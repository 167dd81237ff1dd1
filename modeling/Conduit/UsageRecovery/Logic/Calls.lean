import Conduit.UsageRecovery.Logic.Journal

/-!
# What every call keeps

Between calls the synced log holds every accepted event that is not
acknowledged, and the directory indexes what the log holds. Inside a call both
logs a crash can leave hold these events: the synced one and the one with all
of what was written since.
-/

namespace Conduit.UsageRecovery

open Base Base.Crashing

variable {Usage : Type} {codec : Codec Usage} {config : UsageRecoveryConfig}
  {m : Machine Usage}

/-! ## Invariants -/

/-- A log of records after which the owed events are pending. -/
def Holds (codec : Codec Usage) (config : UsageRecoveryConfig) (bytes : List UInt8)
    (owed : List (MeteredEvent Usage)) : Prop :=
  ∃ records : List (JournalRecord Usage), Journaled codec config bytes records ∧
    ∀ event ∈ owed, event ∈ pendingOf records

/-- A crash that keeps all or nothing of the last write leaves a log that holds
the owed events. -/
structure CrashSafe (codec : Codec Usage) (config : UsageRecoveryConfig) (m : Machine Usage) :
    Prop where
  synced : Holds codec config m.disk.wal.synced m.owed
  visible : Holds codec config m.disk.wal.visible m.owed

/-- The directory of an open journal: one `.ready` file for each pending event,
unless it was set aside. -/
structure Indexed (codec : Codec Usage) (disk : Disk) (pending : List (MeteredEvent Usage)) :
    Prop where
  ready : ∀ (key : String) (bytes : List UInt8), disk.read (.ready key) = some bytes →
    ∃ event ∈ pending, event.eventKey = key ∧ bytes = codec.eventJson event
  kept : ∀ event ∈ pending,
    disk.read (.ready event.eventKey) = some (codec.eventJson event) ∨
      (disk.read (.quarantine event.eventKey)).isSome
  tmp : ∀ key : String, disk.read (.tmp key) = none

/-- The invariant between calls. -/
structure Kept (codec : Codec Usage) (config : UsageRecoveryConfig) (m : Machine Usage) :
    Prop where
  synced : m.disk.wal.synced = m.disk.wal.visible
  log : ∃ records : List (JournalRecord Usage),
    Journaled codec config m.disk.wal.visible records ∧
    (∀ event ∈ m.owed, event ∈ pendingOf records) ∧
    (m.journal.isSome → Indexed codec m.disk (pendingOf records))

theorem Kept.crashSafe (h : Kept codec config m) : CrashSafe codec config m := by
  obtain ⟨records, hlog, howed, _⟩ := h.log
  exact ⟨⟨records, h.synced ▸ hlog, howed⟩, ⟨records, hlog, howed⟩⟩

/-- The journal's memory is not part of the invariant. -/
theorem Kept.congr {m' : Machine Usage} (h : Kept codec config m) (hdisk : m'.disk = m.disk)
    (howed : m'.owed = m.owed) (hopen : m'.journal.isSome → m.journal.isSome) :
    Kept codec config m' := by
  obtain ⟨records, hlog, hpending, hindexed⟩ := h.log
  refine ⟨hdisk ▸ h.synced, records, hdisk ▸ hlog, howed ▸ hpending, ?_⟩
  intro hopened
  rw [hdisk]
  exact hindexed (hopen hopened)

theorem Kept.unhealthy (h : Kept codec config m) : Kept codec config m.unhealthy := by
  refine h.congr rfl rfl ?_
  unfold Machine.unhealthy
  rw [Option.isSome_map]
  exact id

theorem Kept.setReserved (h : Kept codec config m) (f : List String → List String) :
    Kept codec config (m.setReserved f) := by
  refine h.congr rfl rfl ?_
  unfold Machine.setReserved
  rw [Option.isSome_map]
  exact id

/-- Owing less is kept. -/
theorem Kept.forget (h : Kept codec config m) (key : String) : Kept codec config (m.forget key) := by
  obtain ⟨records, hlog, howed, hindexed⟩ := h.log
  refine ⟨h.synced, records, hlog, ?_, hindexed⟩
  intro event hevent
  exact howed event (List.mem_of_mem_filter hevent)

/-! ## Appending -/

theorem Safe.append {payload : JournalRecord Usage} {Q : Unit → Machine Usage → Prop}
    {C : Machine Usage → Prop} (hbefore : C m)
    (hwritten : C (m.onDisk (Disk.appendWal (codec.line payload))))
    (h : Q () ((m.onDisk (Disk.appendWal (codec.line payload))).onDisk Disk.syncWal)) :
    Safe (append codec payload) Q C m :=
  Safe.step_bind hbefore (Safe.step hwritten h)

/-- A record may be appended if the owed events are pending before and after. -/
theorem Kept.append_crashSafe {payload : JournalRecord Usage} {records : List (JournalRecord Usage)}
    (h : Kept codec config m) (hlog : Journaled codec config m.disk.wal.visible records)
    (hpayload : Recorded codec config payload)
    (howed : ∀ event ∈ m.owed, event ∈ applyRecord (pendingOf records) payload) :
    CrashSafe codec config (m.onDisk (Disk.appendWal (codec.line payload))) ∧
      CrashSafe codec config
        ((m.onDisk (Disk.appendWal (codec.line payload))).onDisk Disk.syncWal) := by
  have hnew : Holds codec config (m.disk.wal.visible ++ codec.line payload) m.owed :=
    ⟨records ++ [payload], hlog.concat hpayload, fun event hevent =>
      (pendingOf_concat records payload).symm ▸ howed event hevent⟩
  exact ⟨⟨h.crashSafe.synced, hnew⟩, ⟨hnew, hnew⟩⟩

theorem CrashSafe.congr {m' : Machine Usage} (h : CrashSafe codec config m)
    (hwal : m'.disk.wal = m.disk.wal) (howed : m'.owed = m.owed) : CrashSafe codec config m' := by
  refine ⟨?_, ?_⟩
  · rw [hwal, howed]
    exact h.synced
  · rw [hwal, howed]
    exact h.visible

/-! ## Opening -/

/-- What the first pass over the directory removes. -/
def Stale (pending : List (MeteredEvent Usage)) : IndexFile → Prop
  | .ready key => ∀ event ∈ pending, event.eventKey ≠ key
  | .tmp _ => True
  | .quarantine _ => False

/-- What the passes over the directory leave alone. -/
structure SameLog (m m' : Machine Usage) : Prop where
  wal : m'.disk.wal = m.disk.wal
  owed : m'.owed = m.owed
  opened : m'.journal.isSome = m.journal.isSome

theorem SameLog.trans {m' m'' : Machine Usage} (h : SameLog m m') (h' : SameLog m' m'') :
    SameLog m m'' :=
  ⟨h'.wal.trans h.wal, h'.owed.trans h.owed, h'.opened.trans h.opened⟩

theorem SameLog.unhealthy (m : Machine Usage) : SameLog m m.unhealthy :=
  ⟨rfl, rfl, Option.isSome_map⟩

open Classical in
theorem removeStale_safe (pending : List (MeteredEvent Usage)) (names : List IndexFile)
    (h : CrashSafe codec config m) :
    Safe (removeStale pending names)
      (fun _ m' => SameLog m m' ∧ ∀ name : IndexFile, m'.disk.read name =
        if name ∈ names ∧ Stale pending name then none else m.disk.read name)
      (CrashSafe codec config) m := by
  induction names generalizing m with
  | nil => exact Safe.pure ⟨⟨rfl, rfl, rfl⟩, fun name => by simp⟩
  | cons stale names ih =>
      -- one removal, and what the rest of the pass does after it
      have hremove : Stale pending stale →
          Safe (fileOp (Disk.remove stale) >>= fun _ => removeStale pending names)
            (fun _ m' => SameLog m m' ∧ ∀ name : IndexFile, m'.disk.read name =
              if name ∈ stale :: names ∧ Stale pending name then none else m.disk.read name)
            (CrashSafe codec config) m := by
        intro hstale
        have hnext : CrashSafe codec config (m.onDisk (Disk.remove stale)) := h.congr rfl rfl
        refine Safe.step_bind h ((ih hnext).mono ?_)
        rintro _ m' ⟨hsame, hread⟩
        refine ⟨⟨hsame.wal, hsame.owed, hsame.opened⟩, ?_⟩
        intro name
        rw [hread name]
        show (if name ∈ names ∧ Stale pending name then none
          else (m.disk.remove stale).read name) = _
        rw [Disk.read_remove]
        by_cases hname : name = stale
        · subst hname
          simp [hstale]
        · simp [hname]
      -- a file that stays
      have hskip : ¬ Stale pending stale → ∀ m₁ : Machine Usage, SameLog m m₁ →
          m₁.disk = m.disk → Safe (removeStale pending names)
            (fun _ m' => SameLog m m' ∧ ∀ name : IndexFile, m'.disk.read name =
              if name ∈ stale :: names ∧ Stale pending name then none else m.disk.read name)
            (CrashSafe codec config) m₁ := by
        intro hkept m₁ hsame₁ hdisk
        refine (ih (h.congr hsame₁.wal hsame₁.owed)).mono ?_
        rintro _ m' ⟨hsame, hread⟩
        refine ⟨hsame₁.trans hsame, ?_⟩
        intro name
        rw [hread name, hdisk]
        by_cases hname : name = stale
        · subst hname
          simp [hkept]
        · simp [hname]
      cases stale with
      | quarantine key =>
          exact Safe.modify_bind (hskip id _ (SameLog.unhealthy m) rfl)
      | tmp key => exact hremove trivial
      | ready key =>
          unfold removeStale
          by_cases hpending : (pending.any fun event => decide (event.eventKey = key)) = true
          · rw [if_pos hpending]
            refine hskip ?_ m ⟨rfl, rfl, rfl⟩ rfl
            intro hstale
            obtain ⟨event, hevent, hkey⟩ := List.any_eq_true.mp hpending
            exact hstale event hevent (of_decide_eq_true hkey)
          · rw [if_neg hpending]
            apply hremove
            intro event hevent hkey
            exact hpending (List.any_eq_true.mpr ⟨event, hevent, decide_eq_true hkey⟩)

theorem writeIndexes_safe {events : List (MeteredEvent Usage)} (h : CrashSafe codec config m)
    (hsize : ∀ event ∈ events, (codec.eventJson event).length ≤ config.maxEventBytes)
    (hunique : ∀ event ∈ events, ∀ other ∈ events, event.eventKey = other.eventKey → event = other) :
    Safe (writeIndexes codec config events)
      (fun _ m' => SameLog m m' ∧
        (∀ event ∈ events, m'.disk.read (.ready event.eventKey) = some (codec.eventJson event)) ∧
        ∀ name : IndexFile, (∀ event ∈ events, name ≠ .ready event.eventKey) →
          m'.disk.read name = m.disk.read name)
      (CrashSafe codec config) m := by
  induction events generalizing m with
  | nil =>
      exact Safe.pure ⟨⟨rfl, rfl, rfl⟩, fun _ hevent => absurd hevent List.not_mem_nil, fun _ _ => rfl⟩
  | cons event events ih =>
      unfold writeIndexes
      rw [if_neg (Nat.not_lt.mpr (hsize event List.mem_cons_self))]
      have hnext : CrashSafe codec config ((m.onDisk (Disk.write (.ready event.eventKey) [])).onDisk
          (Disk.write (.ready event.eventKey) (codec.eventJson event))) := h.congr rfl rfl
      refine Safe.step_bind h (Safe.step_bind (h.congr rfl rfl) ?_)
      refine (ih hnext (fun other hother => hsize other (List.mem_cons_of_mem _ hother))
        fun first hfirst second hsecond => hunique first (List.mem_cons_of_mem _ hfirst) second
          (List.mem_cons_of_mem _ hsecond)).mono ?_
      rintro _ m' ⟨hsame, hwritten, hframe⟩
      refine ⟨⟨hsame.wal, hsame.owed, hsame.opened⟩, ?_, ?_⟩
      · intro other hother
        rcases List.mem_cons.mp hother with rfl | hother
        · by_cases hagain : ∃ later ∈ events, later.eventKey = other.eventKey
          · obtain ⟨later, hlater, hkey⟩ := hagain
            have heq := hunique later (List.mem_cons_of_mem _ hlater) other List.mem_cons_self hkey
            exact heq ▸ hwritten later hlater
          · rw [hframe (.ready other.eventKey) fun later hlater heq =>
              hagain ⟨later, hlater, (IndexFile.ready.inj heq).symm⟩]
            show ((m.disk.write _ _).write _ _).read _ = _
            rw [Disk.read_write, if_pos rfl]
        · exact hwritten other hother
      · intro name hname
        rw [hframe name fun other hother => hname other (List.mem_cons_of_mem _ hother)]
        show ((m.disk.write _ _).write _ _).read _ = _
        have hne := hname event List.mem_cons_self
        rw [Disk.read_write, if_neg hne, Disk.read_write, if_neg hne]

/-- Every owed event is in a file that `replay` reads. -/
def Replayable (codec : Codec Usage) (config : UsageRecoveryConfig) (m : Machine Usage) : Prop :=
  ∀ event ∈ m.owed, ∃ bytes : List UInt8,
    m.disk.read (.ready event.eventKey) = some bytes ∧
      readReady codec config event.eventKey bytes = .ok event

theorem Acceptable.readReady {event : MeteredEvent Usage} (h : Acceptable codec config event)
    (hread : codec.readEvent (codec.eventJson event) = some event) :
    readReady codec config event.eventKey (codec.eventJson event) = .ok event := by
  have hidentity : (decide (event.version ≠ 1) || !validKey event.eventKey ||
      decide (event.eventKey ≠ event.eventKey)) = false := by
    rw [h.version, h.key]
    simp
  unfold UsageRecovery.readReady
  rw [if_neg (Nat.not_lt.mpr h.size), hread]
  exact if_neg (Bool.eq_false_iff.mp hidentity)

/-- The two passes leave one file for each pending event. -/
theorem indexed_of_passes {m₁ m₂ : Machine Usage} {pending : List (MeteredEvent Usage)}
    (hremoved : ∀ name : IndexFile, Stale pending name → m₁.disk.read name = none)
    (hwritten : ∀ event ∈ pending,
      m₂.disk.read (.ready event.eventKey) = some (codec.eventJson event))
    (hframe : ∀ name : IndexFile, (∀ event ∈ pending, name ≠ .ready event.eventKey) →
      m₂.disk.read name = m₁.disk.read name) : Indexed codec m₂.disk pending where
  ready key bytes hread := by
    by_cases hpending : ∃ event ∈ pending, event.eventKey = key
    · obtain ⟨event, hevent, rfl⟩ := hpending
      rw [hwritten event hevent] at hread
      exact ⟨event, hevent, rfl, (Option.some.inj hread).symm⟩
    · have hstale : Stale pending (.ready key) := fun event hevent hkey =>
        hpending ⟨event, hevent, hkey⟩
      have hother : ∀ event ∈ pending, IndexFile.ready key ≠ .ready event.eventKey := by
        intro event hevent heq
        exact hpending ⟨event, hevent, (IndexFile.ready.inj heq).symm⟩
      rw [hframe _ hother, hremoved _ hstale] at hread
      exact absurd hread (by simp)
  kept event hevent := .inl (hwritten event hevent)
  tmp key := by
    rw [hframe (.tmp key) fun _ _ heq => by cases heq]
    exact hremoved _ trivial

theorem restoreIndexes_safe {records : List (JournalRecord Usage)}
    (hsynced : m.disk.wal.synced = m.disk.wal.visible)
    (hlog : Journaled codec config m.disk.wal.visible records)
    (howed : ∀ event ∈ m.owed, event ∈ pendingOf records) :
    Safe (restoreIndexes codec config)
      (fun _ m' => Kept codec config m' ∧ Replayable codec config m') (CrashSafe codec config) m := by
  have hholds : Holds codec config m.disk.wal.visible m.owed := ⟨records, hlog, howed⟩
  have hsafe : CrashSafe codec config (m.onDisk Disk.syncWal) := ⟨hholds, hholds⟩
  have hsafe' : CrashSafe codec config ((m.onDisk Disk.syncWal).onDisk Disk.syncDirectory) :=
    ⟨hholds, hholds⟩
  refine Safe.step_bind ⟨hsynced ▸ hholds, hholds⟩ (Safe.step_bind hsafe (Safe.observe_bind ?_))
  have hread : readJournal codec config []
      ((m.onDisk Disk.syncWal).onDisk Disk.syncDirectory).disk.wal.visible =
        some (pendingOf records) := hlog.read
  simp only [hread]
  refine Safe.observe_bind ((removeStale_safe (pendingOf records) _ hsafe').bind ?_)
  rintro _ m₁ ⟨hsame₁, hread₁⟩
  have hpending : ∀ {event : MeteredEvent Usage},
      event ∈ (pendingOf records).mergeSort (fun a b => a.eventKey ≤ b.eventKey) ↔
        event ∈ pendingOf records := List.mem_mergeSort
  refine (writeIndexes_safe (hsafe'.congr hsame₁.wal hsame₁.owed)
    (fun event hevent => (hlog.acceptable (hpending.mp hevent)).size)
    fun event hevent other hother => pendingOf_unique records event (hpending.mp hevent) other
      (hpending.mp hother)).mono ?_
  rintro _ m₂ ⟨hsame₂, hwritten, hframe⟩
  have hsame := hsame₁.trans hsame₂
  have hwal : m₂.disk.wal = ⟨m.disk.wal.visible, m.disk.wal.visible⟩ := hsame.wal
  have howed₂ : m₂.owed = m.owed := hsame.owed
  have hremoved : ∀ name : IndexFile, Stale (pendingOf records) name → m₁.disk.read name = none := by
    intro name hstale
    rw [hread₁ name]
    split_ifs with hlisted
    · rfl
    · exact Disk.read_eq_none fun hname => hlisted ⟨hname, hstale⟩
  have hindexed : Indexed codec m₂.disk (pendingOf records) :=
    indexed_of_passes hremoved (fun event hevent => hwritten event (hpending.mpr hevent))
      fun name hname => hframe name fun event hevent => hname event (hpending.mp hevent)
  refine ⟨⟨by rw [hwal], records, by rw [hwal]; exact hlog, by rw [howed₂]; exact howed,
    fun _ => hindexed⟩, ?_⟩
  intro event hevent
  have hin : event ∈ pendingOf records := howed event (howed₂ ▸ hevent)
  exact ⟨_, hwritten event (hpending.mpr hin),
    (hlog.acceptable hin).readReady (hlog.readEvent hin)⟩

theorem openJournal_safe (h : Kept codec config m) :
    Safe (openJournal codec config)
      (fun _ m' => Kept codec config m' ∧ (m.journal = none → Replayable codec config m'))
      (CrashSafe codec config) m := by
  obtain ⟨records, hlog, howed, _⟩ := h.log
  refine Safe.observe_bind ?_
  cases hjournal : m.journal with
  | some state =>
      show Safe (Pure.pure _) _ _ m
      exact Safe.pure ⟨h, fun hnone => absurd hnone (by simp)⟩
  | none =>
      refine Safe.modify_bind ?_
      have hrestore : Safe (restoreIndexes codec config)
          (fun _ m' => Kept codec config m' ∧ Replayable codec config m') (CrashSafe codec config)
          { m with journal := some ⟨[], true⟩ } := restoreIndexes_safe h.synced hlog howed
      exact hrestore.bind fun _ m' hm' => Safe.pure ⟨hm'.1, fun _ => hm'.2⟩

/-! ## Admission -/

/-- No event is owed when the log is emptied. -/
theorem truncateIdle_safe (h : Kept codec config m) (hopen : m.journal.isSome) :
    Safe (truncateIdle m) (fun _ m' => Kept codec config m') (CrashSafe codec config) m := by
  unfold truncateIdle
  split_ifs with hidle
  · obtain ⟨records, _, howed, hindexed⟩ := h.log
    have hfiles : m.disk.files = [] := by
      rw [Bool.and_eq_true, List.isEmpty_iff, List.isEmpty_iff] at hidle
      exact hidle.2
    have hread : ∀ name : IndexFile, m.disk.read name = none := by
      intro name
      unfold Disk.read
      rw [hfiles]
      rfl
    have hnone : ∀ event ∈ m.owed, event ∈ pendingOf ([] : List (JournalRecord Usage)) := by
      intro event hevent
      rcases (hindexed hopen).kept event (howed event hevent) with hready | hquarantine
      · rw [hread] at hready
        exact absurd hready (by simp)
      · rw [hread] at hquarantine
        exact absurd hquarantine (by simp)
    have hempty : Holds codec config [] m.owed := ⟨[], Journaled.nil, hnone⟩
    refine Safe.step_bind h.crashSafe (Safe.step ⟨h.crashSafe.synced, hempty⟩ ?_)
    refine ⟨rfl, [], Journaled.nil, hnone, fun _ => ⟨?_, ?_, fun key => hread (.tmp key)⟩⟩
    · intro key bytes hsome
      exact absurd ((hread (.ready key)).symm.trans hsome) (by simp)
    · exact fun event hevent => absurd hevent List.not_mem_nil
  · exact Safe.pure h

theorem reserve_safe (h : Kept codec config m) (hopen : m.journal.isSome) (requestKey : String) :
    Safe (reserve codec config requestKey) (fun _ m' => Kept codec config m')
      (CrashSafe codec config) m := by
  refine Safe.observe_bind ?_
  dsimp only [id]
  split_ifs with hhealthy hreserved
  · exact Safe.pure h
  · exact Safe.pure h
  · refine (truncateIdle_safe h hopen).bind ?_
    intro _ m₁ h₁
    refine Safe.observe_bind ?_
    rw [id_eq]
    generalize requiredBytes config m₁ = required
    split_ifs with hcapacity
    · exact Safe.pure h₁
    · exact Safe.modify_bind (Safe.pure (h₁.setReserved _))

theorem release_safe (h : Kept codec config m) (requestKey : String) :
    Safe (release codec requestKey) (fun _ m' => Kept codec config m') (CrashSafe codec config) m :=
  Safe.modify (h.setReserved _)

end Conduit.UsageRecovery
