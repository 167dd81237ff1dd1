import Conduit.UsageRecovery.Logic.Calls

/-!
# Accepting, acknowledging and replaying

Each of these calls appends at most one record for an event and moves its index
file accordingly; between the two the log is already what the call ends with.
-/

namespace Conduit.UsageRecovery

open Base Base.Crashing

variable {Usage : Type} {codec : Codec Usage} {config : UsageRecoveryConfig}
  {m : Machine Usage}

/-! ## Index files -/

theorem Indexed.congr {disk disk' : Disk} {pending : List (MeteredEvent Usage)}
    (h : Indexed codec disk pending) (hread : ∀ name : IndexFile, disk'.read name = disk.read name) :
    Indexed codec disk' pending where
  ready key bytes hsome := h.ready key bytes ((hread _).symm.trans hsome)
  kept event hevent := by
    rw [hread, hread]
    exact h.kept event hevent
  tmp key := (hread _).trans (h.tmp key)

/-- The files of `write_event`, the temporary one first. -/
def publish (codec : Codec Usage) (event : MeteredEvent Usage) (disk : Disk) : Disk :=
  ((disk.write (.tmp event.eventKey) []).write (.tmp event.eventKey) (codec.eventJson event)).rename
    (.tmp event.eventKey) (.ready event.eventKey)

theorem read_publish (event : MeteredEvent Usage) (disk : Disk) (name : IndexFile) :
    (publish codec event disk).read name =
      if name = .ready event.eventKey then some (codec.eventJson event)
      else if name = .tmp event.eventKey then none
      else disk.read name := by
  have htmp : ((disk.write (.tmp event.eventKey) []).write (.tmp event.eventKey)
      (codec.eventJson event)).read (.tmp event.eventKey) = some (codec.eventJson event) := by
    rw [Disk.read_write, if_pos rfl]
  unfold publish
  rw [Disk.read_rename name htmp, Disk.read_write, Disk.read_write]
  split_ifs <;> rfl

theorem wal_publish (event : MeteredEvent Usage) (disk : Disk) :
    (publish codec event disk).wal = disk.wal := by
  unfold publish
  rw [Disk.wal_rename, Disk.wal_write, Disk.wal_write]

theorem Indexed.publish {disk : Disk} {pending : List (MeteredEvent Usage)}
    (h : Indexed codec disk pending) (event : MeteredEvent Usage) :
    Indexed codec (publish codec event disk) (insertPending event pending) where
  ready key bytes hread := by
    rw [read_publish] at hread
    by_cases hkey : key = event.eventKey
    · subst hkey
      rw [if_pos rfl] at hread
      exact ⟨event, mem_insertPending.mpr (.inr rfl), rfl, (Option.some.inj hread).symm⟩
    · rw [if_neg (fun heq => hkey (IndexFile.ready.inj heq)), if_neg (by simp)] at hread
      obtain ⟨other, hother, rfl, hbytes⟩ := h.ready key bytes hread
      exact ⟨other, mem_insertPending.mpr (.inl ⟨hother, hkey⟩), rfl, hbytes⟩
  kept other hother := by
    rw [read_publish, read_publish]
    rcases mem_insertPending.mp hother with ⟨hold, hne⟩ | rfl
    · rw [if_neg (fun heq => hne (IndexFile.ready.inj heq)), if_neg (by simp), if_neg (by simp),
        if_neg (by simp)]
      exact h.kept other hold
    · exact .inl (if_pos rfl)
  tmp key := by
    rw [read_publish, if_neg (by simp)]
    split_ifs
    · rfl
    · exact h.tmp key

theorem Indexed.remove {disk : Disk} {pending : List (MeteredEvent Usage)}
    (h : Indexed codec disk pending) (key : String) :
    Indexed codec (disk.remove (.ready key)) (removePending key pending) where
  ready other bytes hread := by
    rw [Disk.read_remove] at hread
    by_cases hkey : other = key
    · rw [if_pos (congrArg IndexFile.ready hkey)] at hread
      exact absurd hread (by simp)
    · rw [if_neg fun heq => hkey (IndexFile.ready.inj heq)] at hread
      obtain ⟨event, hevent, rfl, hbytes⟩ := h.ready other bytes hread
      exact ⟨event, mem_removePending.mpr ⟨hevent, hkey⟩, rfl, hbytes⟩
  kept event hevent := by
    obtain ⟨hold, hne⟩ := mem_removePending.mp hevent
    rw [Disk.read_remove, Disk.read_remove, if_neg fun heq => hne (IndexFile.ready.inj heq),
      if_neg (by simp)]
    exact h.kept event hold
  tmp other := by
    rw [Disk.read_remove, if_neg (by simp)]
    exact h.tmp other

theorem Indexed.quarantine {disk : Disk} {pending : List (MeteredEvent Usage)}
    (h : Indexed codec disk pending) (key : String) :
    Indexed codec (disk.rename (.ready key) (.quarantine key)) pending := by
  cases hfile : disk.read (.ready key) with
  | none =>
      refine h.congr fun name => ?_
      unfold Disk.rename
      rw [hfile]
  | some bytes =>
      refine ⟨?_, ?_, ?_⟩
      · intro other found hread
        rw [Disk.read_rename _ hfile, if_neg (by simp)] at hread
        by_cases hkey : other = key
        · rw [if_pos (congrArg IndexFile.ready hkey)] at hread
          exact absurd hread (by simp)
        · rw [if_neg fun heq => hkey (IndexFile.ready.inj heq)] at hread
          exact h.ready other found hread
      · intro event hevent
        rw [Disk.read_rename _ hfile, Disk.read_rename _ hfile]
        by_cases hkey : event.eventKey = key
        · right
          rw [if_pos (congrArg IndexFile.quarantine hkey)]
          rfl
        · rw [if_neg (by simp), if_neg fun heq => hkey (IndexFile.ready.inj heq),
            if_neg fun heq => hkey (IndexFile.quarantine.inj heq), if_neg (by simp)]
          exact h.kept event hevent
      · intro other
        rw [Disk.read_rename _ hfile, if_neg (by simp), if_neg (by simp)]
        exact h.tmp other

/-! ## Accepting -/

/-- `put_ready` finds the event indexed or reserved. -/
def Admitted (codec : Codec Usage) (config : UsageRecoveryConfig) (m : Machine Usage)
    (event : MeteredEvent Usage) : Prop :=
  Acceptable codec config event ∧
    (m.disk.read (.ready event.eventKey) = some (codec.eventJson event) ∨
      m.disk.read (.ready event.eventKey) = none ∧ event.eventKey ∈ m.state.reserved)

/-- The record of an admitted event reads back, and it takes the place of no
other owed event. -/
def PutSound (codec : Codec Usage) (config : UsageRecoveryConfig) (m : Machine Usage)
    (event : MeteredEvent Usage) : Prop :=
  Admitted codec config m event → ReadsBack codec config (.ready event) ∧
    (m.disk.read (.ready event.eventKey) = none →
      ∀ other ∈ m.owed, other.eventKey = event.eventKey → other = event)

/-- The event is indexed already. -/
theorem Kept.accept_indexed {event : MeteredEvent Usage} (h : Kept codec config m)
    (hopen : m.journal.isSome) (hback : ReadsBack codec config (.ready event))
    (hfile : m.disk.read (.ready event.eventKey) = some (codec.eventJson event)) :
    Kept codec config (m.accept event) := by
  obtain ⟨records, hlog, howed, hindexed⟩ := h.log
  have hpending : event ∈ pendingOf records := by
    obtain ⟨other, hother, _, hbytes⟩ := (hindexed hopen).ready _ _ hfile
    have hread := hlog.readEvent hother
    rw [← hbytes, hback.event event rfl] at hread
    exact Option.some.inj hread ▸ hother
  refine ⟨h.synced, records, hlog, ?_, hindexed⟩
  intro owed howes
  rcases List.mem_cons.mp howes with rfl | howes
  · exact hpending
  · exact howed owed howes

/-- The machine after the record of an event was appended and its file published. -/
theorem Kept.accept_published {event : MeteredEvent Usage} {m' : Machine Usage}
    (h : Kept codec config m) (hrecord : Recorded codec config (.ready event))
    (hother : ∀ other ∈ m.owed, other.eventKey = event.eventKey → other = event)
    (hsynced : m'.disk.wal.synced = m'.disk.wal.visible)
    (hvisible : m'.disk.wal.visible = m.disk.wal.visible ++ codec.line (.ready event))
    (howed' : m'.owed = m.owed) (hopen : m'.journal.isSome → m.journal.isSome)
    (hread : ∀ name : IndexFile, m'.disk.read name = (publish codec event m.disk).read name) :
    Kept codec config (m'.accept event) := by
  obtain ⟨records, hlog, howed, hindexed⟩ := h.log
  refine ⟨hsynced, records ++ [.ready event], ?_, ?_, ?_⟩
  · show Journaled codec config m'.disk.wal.visible _
    rw [hvisible]
    exact hlog.concat hrecord
  · intro owed howes
    rw [pendingOf_concat]
    rcases List.mem_cons.mp howes with rfl | howes
    · exact mem_insertPending.mpr (.inr rfl)
    · rw [howed'] at howes
      by_cases hkey : owed.eventKey = event.eventKey
      · exact mem_insertPending.mpr (.inr (hother owed howes hkey))
      · exact mem_insertPending.mpr (.inl ⟨howed owed howes, hkey⟩)
  · intro hopened
    rw [pendingOf_concat]
    exact ((hindexed (hopen hopened)).publish event).congr hread

theorem writeEvent_safe {event : MeteredEvent Usage} (h : Kept codec config m)
    (hopen : m.journal.isSome) (hsound : PutSound codec config m event) :
    Safe (writeEvent codec config event)
      (fun result m' => match result with
        | .error _ => Kept codec config m'
        | .ok () => Kept codec config (m'.accept event))
      (CrashSafe codec config) m := by
  refine Safe.observe_bind ?_
  dsimp only [id]
  by_cases hidentity : (!validKey event.eventKey || decide (event.version ≠ 1)) = true
  · rw [if_pos hidentity]
    exact Safe.pure h
  rw [if_neg hidentity]
  by_cases hsize : config.maxEventBytes < (codec.eventJson event).length
  · rw [if_pos hsize]
    exact Safe.pure h
  rw [if_neg hsize]
  have hacceptable : Acceptable codec config event := by
    rw [Bool.or_eq_true, not_or, Bool.not_eq_true, Bool.not_eq_true, Bool.not_eq_false',
      decide_eq_false_iff_not, not_not] at hidentity
    exact ⟨hidentity.2, hidentity.1, Nat.not_lt.mp hsize⟩
  cases hfile : m.disk.read (.ready event.eventKey) with
  | some bytes =>
      dsimp only
      by_cases hconflict : bytes ≠ codec.eventJson event
      · rw [if_pos hconflict]
        exact Safe.pure h
      · rw [if_neg hconflict]
        rw [not_not.mp hconflict] at hfile
        have hback := (hsound ⟨hacceptable, .inl hfile⟩).1
        exact Safe.modify_bind (Safe.pure ((h.accept_indexed hopen hback hfile).setReserved _))
  | none =>
      dsimp only
      by_cases hreserved : (!m.state.reserved.contains event.eventKey) = true
      · rw [if_pos hreserved]
        exact Safe.pure h
      rw [if_neg hreserved]
      have hadmitted : Admitted codec config m event := by
        refine ⟨hacceptable, .inr ⟨hfile, ?_⟩⟩
        simpa using hreserved
      obtain ⟨hback, hother⟩ := hsound hadmitted
      have hrecord : Recorded codec config (.ready event) :=
        ⟨hback, fun other heq => JournalRecord.ready.inj heq ▸ hacceptable⟩
      obtain ⟨records, hlog, howed, hindexed⟩ := h.log
      -- the record in the log, seen or synced
      obtain ⟨hwritten, hsynced⟩ := h.append_crashSafe hlog hrecord fun owed howes => by
        by_cases hkey : owed.eventKey = event.eventKey
        · exact mem_insertPending.mpr (.inr (hother hfile owed howes hkey))
        · exact mem_insertPending.mpr (.inl ⟨howed owed howes, hkey⟩)
      refine Safe.bind (Safe.append (Q := fun _ m' => m' =
        (m.onDisk (Disk.appendWal (codec.line (.ready event)))).onDisk Disk.syncWal)
        h.crashSafe hwritten rfl) ?_
      rintro _ _ rfl
      refine Safe.observe_bind ?_
      dsimp only [id]
      have htmp : ((m.onDisk (Disk.appendWal (codec.line (.ready event)))).onDisk
          Disk.syncWal).disk.read (.tmp event.eventKey) = none := (hindexed hopen).tmp _
      rw [htmp]
      dsimp only [Option.isSome]
      rw [if_neg Bool.false_ne_true]
      refine Safe.step_bind hsynced (Safe.step_bind (hsynced.congr rfl rfl)
        (Safe.step_bind (hsynced.congr rfl rfl) (Safe.modify_bind (Safe.pure ?_))))
      have hpublished : Kept codec config ((((m.onDisk (Disk.appendWal (codec.line (.ready event)))).onDisk
          Disk.syncWal).onDisk (publish codec event)).accept event) := by
        refine h.accept_published hrecord (hother hfile) ?_ ?_ ?_ id ?_
        · show (publish codec event _).wal.synced = (publish codec event _).wal.visible
          rw [wal_publish]
          rfl
        · show (publish codec event _).wal.visible = _
          rw [wal_publish]
          rfl
        · rfl
        · intro name
          show (publish codec event _).read name = _
          rw [read_publish, read_publish]
          rfl
      exact hpublished.setReserved _

theorem putReady_safe {event : MeteredEvent Usage} (h : Kept codec config m)
    (hopen : m.journal.isSome) (hsound : PutSound codec config m event) :
    Safe (putReady codec config event) (fun _ m' => Kept codec config m')
      (CrashSafe codec config) m := by
  refine (writeEvent_safe h hopen hsound).bind ?_
  rintro (error | ⟨⟩) m' h'
  · exact Safe.modify_bind (Safe.pure h'.unhealthy)
  · exact Safe.modify_bind (Safe.pure h')

/-! ## Acknowledging -/

/-- The record of the acknowledgement reads back, if one is written. -/
def AckSound (codec : Codec Usage) (config : UsageRecoveryConfig) (m : Machine Usage)
    (key : String) : Prop :=
  validKey key = true → (m.disk.read (.ready key)).isSome → ReadsBack codec config (.ack key)

theorem ack_safe {key : String} (h : Kept codec config m) (hsound : AckSound codec config m key) :
    Safe (ack codec key) (fun _ m' => Kept codec config m') (CrashSafe codec config) m := by
  unfold ack
  by_cases hkey : (!validKey key) = true
  · rw [if_pos hkey]
    exact Safe.pure h
  rw [if_neg hkey]
  rw [Bool.not_eq_true, Bool.not_eq_false'] at hkey
  have hforgot := h.forget key
  refine Safe.modify_bind (Safe.observe_bind ?_)
  dsimp only [id]
  by_cases hfile : ((m.forget key).disk.read (.ready key)).isNone = true
  · rw [if_pos hfile]
    exact Safe.pure hforgot
  rw [if_neg hfile]
  have hrecord : Recorded codec config (.ack key) := by
    refine ⟨hsound hkey ?_, fun _ heq => by cases heq⟩
    rw [Bool.not_eq_true, Option.isNone_eq_false_iff] at hfile
    exact hfile
  obtain ⟨records, hlog, howed, hindexed⟩ := hforgot.log
  have hremaining : ∀ event ∈ (m.forget key).owed,
      event ∈ applyRecord (pendingOf records) (.ack key) := by
    intro event hevent
    refine mem_removePending.mpr ⟨howed event hevent, ?_⟩
    exact of_decide_eq_true (List.mem_filter.mp hevent).2
  obtain ⟨hwritten, hsynced⟩ := hforgot.append_crashSafe hlog hrecord hremaining
  refine Safe.bind (Safe.append (Q := fun _ m' => m' =
    ((m.forget key).onDisk (Disk.appendWal (codec.line (.ack key)))).onDisk Disk.syncWal)
    hforgot.crashSafe hwritten rfl) ?_
  rintro _ _ rfl
  refine Safe.step_bind hsynced (Safe.pure ?_)
  refine ⟨rfl, records ++ [JournalRecord.ack key], ?_, ?_, ?_⟩
  · exact hlog.concat hrecord
  · intro event hevent
    rw [pendingOf_concat]
    exact hremaining event hevent
  · intro hopen
    rw [pendingOf_concat]
    exact ((hindexed hopen).remove key).congr fun name => rfl

/-! ## Replaying -/

theorem quarantine_safe (h : Kept codec config m) (key : String) :
    Safe (quarantine key) (fun _ m' => Kept codec config m') (CrashSafe codec config) m := by
  refine Safe.step_bind h.crashSafe (Safe.modify ?_)
  have hmoved : Kept codec config (m.onDisk (Disk.rename (.ready key) (.quarantine key))) := by
    obtain ⟨records, hlog, howed, hindexed⟩ := h.log
    have hwal : (m.onDisk (Disk.rename (.ready key) (.quarantine key))).disk.wal = m.disk.wal :=
      Disk.wal_rename _ _ _
    refine ⟨?_, records, ?_, howed, fun hopen => (hindexed hopen).quarantine key⟩
    · rw [hwal]
      exact h.synced
    · rw [hwal]
      exact hlog
  exact hmoved.unhealthy

theorem quarantineConflict_safe (h : Kept codec config m) (key error : String) :
    Safe (quarantineConflict key error) (fun _ m' => Kept codec config m')
      (CrashSafe codec config) m := by
  unfold quarantineConflict
  by_cases hconflict : isConflict error = true
  · rw [if_pos hconflict]
    exact quarantine_safe h key
  · rw [if_neg hconflict]
    exact Safe.pure h

theorem readReady_key {key : String} {bytes : List UInt8} {event : MeteredEvent Usage}
    (h : readReady codec config key bytes = .ok event) :
    event.eventKey = key ∧ validKey key = true := by
  unfold readReady at h
  split_ifs at h
  cases hread : codec.readEvent bytes with
  | none =>
      rw [hread] at h
      cases h
  | some found =>
      rw [hread] at h
      dsimp only at h
      split_ifs at h with hidentity
      cases h
      simp only [Bool.or_eq_true, not_or, Bool.not_eq_true, Bool.not_eq_false', decide_eq_true_eq,
        not_not] at hidentity
      exact ⟨hidentity.2.symm, hidentity.2 ▸ hidentity.1.2⟩

theorem replayKeys_safe {handoff : MeteredEvent Usage → Except String Unit} {keys : List String}
    {done : Nat} (h : Kept codec config m)
    (hsound : ∀ key ∈ keys, validKey key = true → ReadsBack codec config (.ack key)) :
    Safe (replayKeys codec config handoff keys done) (fun _ m' => Kept codec config m')
      (CrashSafe codec config) m := by
  induction keys generalizing m done with
  | nil => exact Safe.pure h
  | cons key keys ih =>
      have hrest := fun other hother => hsound other (List.mem_cons_of_mem key hother)
      unfold replayKeys
      refine Safe.observe_bind ?_
      cases m.disk.read (.ready key) with
      | none => exact ih h hrest
      | some bytes =>
          dsimp only
          cases hevent : readReady codec config key bytes with
          | error error =>
              exact (quarantine_safe h key).bind fun _ _ h' => Safe.pure h'
          | ok event =>
              dsimp only
              obtain ⟨hkey, hvalid⟩ := readReady_key hevent
              cases handoff event with
              | error error =>
                  exact (quarantineConflict_safe h key error).bind fun _ _ h' => Safe.pure h'
              | ok _ =>
                  have hack : AckSound codec config m event.eventKey := by
                    intro _ _
                    exact hkey ▸ hsound key List.mem_cons_self hvalid
                  refine (ack_safe h hack).bind ?_
                  rintro (error | ⟨⟩) m' h'
                  · exact Safe.pure h'
                  · exact ih h' hrest

/-- Every file is acknowledged with a record that reads back. -/
def ReplaySound (codec : Codec Usage) (config : UsageRecoveryConfig) (m : Machine Usage) : Prop :=
  ∀ key ∈ readyKeys m.disk, validKey key = true → ReadsBack codec config (.ack key)

theorem replay_safe (h : Kept codec config m) (hsound : ReplaySound codec config m)
    (handoff : MeteredEvent Usage → Except String Unit) :
    Safe (replay codec config handoff) (fun _ m' => Kept codec config m')
      (CrashSafe codec config) m := by
  refine Safe.observe_bind (replayKeys_safe h ?_)
  intro key hkey
  exact hsound key (List.mem_mergeSort.mp (List.mem_of_mem_take hkey))

end Conduit.UsageRecovery
