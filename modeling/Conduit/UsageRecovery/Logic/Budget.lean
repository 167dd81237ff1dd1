import Conduit.UsageRecovery.Logic.Events

/-!
# The size of the journal

Each reservation keeps room for one event in the log and in its index file, and
for the frames around it. The event may be smaller; the acknowledgement is then
written out of what is left over, and later it is paid for by the index file
that goes away with it.
-/

namespace Conduit.UsageRecovery

open Base Base.Crashing

variable {Usage : Type} {codec : Codec Usage} {config : UsageRecoveryConfig}
  {m : Machine Usage}

/-! ## Sizes -/

/-- `serde_json` and `sha2` on frames: what stands around an event, and the
length of an acknowledgement. The key and the digest are hexadecimal, without
escapes. -/
structure Framed (codec : Codec Usage) : Prop where
  ready : ∀ event : MeteredEvent Usage,
    (codec.frameJson (.ready event) (codec.checksum (.ready event))).length =
      (codec.eventJson event).length + 115
  ack : ∀ key : String, validKey key = true →
    (codec.frameJson (.ack key) (codec.checksum (.ack key))).length = 177
  digest : ∀ bytes : List UInt8, validKey (codec.sha256 bytes) = true

theorem Framed.readyLine (h : Framed codec) (event : MeteredEvent Usage) :
    (codec.line (.ready event)).length = (codec.eventJson event).length + 116 := by
  unfold Codec.line
  rw [List.length_append, h.ready, List.length_singleton]

theorem Framed.ackLine (h : Framed codec) {key : String} (hkey : validKey key = true) :
    (codec.line (.ack key)).length = 178 := by
  unfold Codec.line
  rw [List.length_append, h.ack key hkey, List.length_singleton]

def filesBytes (files : List (IndexFile × List UInt8)) : Nat :=
  (files.map fun entry => entry.2.length).sum

@[simp] theorem filesBytes_cons (entry : IndexFile × List UInt8)
    (files : List (IndexFile × List UInt8)) :
    filesBytes (entry :: files) = entry.2.length + filesBytes files := List.sum_cons

/-- The size of the log and the index files, as a number of bytes. -/
def used (disk : Disk) : Nat := disk.wal.visible.length + filesBytes disk.files

/-- What one reservation keeps free. -/
def slotBytes (config : UsageRecoveryConfig) : Nat := config.maxEventBytes * 2 + 1024

/-- What is left of a slot after the event was written. -/
def spareBytes : Nat := 908

theorem satU64_le_iff {n bound : Nat} (hbound : bound < UInt64.size - 1) :
    satU64 n ≤ bound ↔ n ≤ bound := by
  unfold satU64
  rw [min_le_iff]
  exact or_iff_left (Nat.not_le.mpr hbound)

theorem satU64_eq {n bound : Nat} (hbound : bound < UInt64.size - 1) (h : satU64 n ≤ bound) :
    satU64 n = n :=
  min_eq_left (((satU64_le_iff hbound).mp h).trans hbound.le)

theorem satU64_le_of_le {n bound : Nat} (h : n ≤ bound) : satU64 n ≤ bound :=
  (min_le_left _ _).trans h

/-- A bound that no `u64` exceeds. -/
theorem satU64_le_of_large {n bound : Nat} (h : UInt64.size - 1 ≤ bound) : satU64 n ≤ bound :=
  (min_le_right _ _).trans h

theorem filter_filesBytes_le (name : IndexFile) (files : List (IndexFile × List UInt8)) :
    filesBytes (files.filter fun entry => entry.1 ≠ name) ≤ filesBytes files := by
  induction files with
  | nil => exact Nat.le_refl _
  | cons entry files ih =>
      by_cases hname : entry.1 = name
      · rw [List.filter_cons_of_neg (by simp [hname]), filesBytes_cons]
        omega
      · rw [List.filter_cons_of_pos (by simp [hname]), filesBytes_cons, filesBytes_cons]
        omega

theorem filter_filesBytes_lookup_le {name : IndexFile} {bytes : List UInt8}
    {files : List (IndexFile × List UInt8)} (h : files.lookup name = some bytes) :
    filesBytes (files.filter fun entry => entry.1 ≠ name) + bytes.length ≤ filesBytes files := by
  induction files with
  | nil => exact absurd h (by simp)
  | cons entry files ih =>
      obtain ⟨key, value⟩ := entry
      rw [List.lookup_cons] at h
      by_cases hname : name = key
      · subst hname
        rw [beq_self_eq_true] at h
        have hvalue : value = bytes := Option.some.inj h
        subst hvalue
        rw [List.filter_cons_of_neg (by simp), filesBytes_cons]
        have hrest := filter_filesBytes_le name files
        dsimp only
        omega
      · rw [beq_false_of_ne hname] at h
        rw [List.filter_cons_of_pos (by simp [Ne.symm hname]), filesBytes_cons, filesBytes_cons]
        have hrest := ih h
        omega

theorem used_appendWal (bytes : List UInt8) (disk : Disk) :
    used (disk.appendWal bytes) = used disk + bytes.length := by
  show (disk.wal.visible ++ bytes).length + filesBytes disk.files =
    disk.wal.visible.length + filesBytes disk.files + bytes.length
  rw [List.length_append]
  omega

theorem used_remove_le (name : IndexFile) (disk : Disk) : used (disk.remove name) ≤ used disk :=
  Nat.add_le_add_left (filter_filesBytes_le name disk.files) _

theorem used_remove_add {name : IndexFile} {bytes : List UInt8} {disk : Disk}
    (h : disk.read name = some bytes) : used (disk.remove name) + bytes.length ≤ used disk := by
  have hfiles := Nat.add_le_add_left (filter_filesBytes_lookup_le h) disk.wal.visible.length
  rw [← Nat.add_assoc] at hfiles
  exact hfiles

/-- Writing a file is removing it first. -/
theorem used_write (name : IndexFile) (bytes : List UInt8) (disk : Disk) :
    used (disk.write name bytes) = used (disk.remove name) + bytes.length := by
  show disk.wal.visible.length + filesBytes ((name, bytes) :: (disk.remove name).files) =
    disk.wal.visible.length + filesBytes (disk.remove name).files + bytes.length
  rw [filesBytes_cons, Nat.add_comm bytes.length, Nat.add_assoc]

theorem used_write_le (name : IndexFile) (bytes : List UInt8) (disk : Disk) :
    used (disk.write name bytes) ≤ used disk + bytes.length := by
  rw [used_write]
  exact Nat.add_le_add_right (used_remove_le name disk) _

/-- Overwriting a file frees what was in it. -/
theorem used_write_again (name : IndexFile) (bytes other : List UInt8) (disk : Disk) :
    used ((disk.write name bytes).write name other) ≤ used disk + other.length := by
  have hread : (disk.write name bytes).read name = some bytes := by
    rw [Disk.read_write, if_pos rfl]
  have hagain := used_remove_add hread
  have hfirst := used_write_le name bytes disk
  rw [used_write]
  omega

theorem used_rename_le (old new : IndexFile) (disk : Disk) :
    used (disk.rename old new) ≤ used disk := by
  unfold Disk.rename
  cases hfile : disk.read old with
  | none => exact Nat.le_refl _
  | some bytes =>
      have hmoved := used_write_le new bytes (disk.remove old)
      have hfreed := used_remove_add hfile
      exact hmoved.trans hfreed

/-! ## The budget -/

def Within (config : UsageRecoveryConfig) (disk : Disk) : Prop := diskBytes disk ≤ config.maxBytes

/-- The invariant: every reservation has its room, and when there is none, an
acknowledgement still fits. -/
structure Budgeted (config : UsageRecoveryConfig) (m : Machine Usage) : Prop where
  opened : m.journal.isSome
  fits : used m.disk + m.state.reserved.length * slotBytes config ≤ config.maxBytes
  spare : m.state.reserved = [] → used m.disk = 0 ∨ used m.disk + spareBytes ≤ config.maxBytes
  ready : ∀ (key : String) (bytes : List UInt8), m.disk.read (.ready key) = some bytes →
    178 ≤ bytes.length
  tmp : ∀ key : String, m.disk.read (.tmp key) = none
  valid : ∀ key ∈ m.state.reserved, validKey key = true

theorem used_setReserved (m : Machine Usage) (f : List String → List String) :
    used (m.setReserved f).disk = used m.disk := rfl

theorem within_of_used {disk : Disk} (h : used disk ≤ config.maxBytes) : Within config disk :=
  satU64_le_of_le h

theorem Budgeted.within (h : Budgeted config m) : Within config m.disk :=
  within_of_used ((Nat.le_add_right _ _).trans h.fits)

/-- A slot that is still reserved. -/
theorem Budgeted.slot (h : Budgeted config m) (hreserved : m.state.reserved ≠ []) :
    used m.disk + slotBytes config ≤ config.maxBytes := by
  have hpos : 0 < m.state.reserved.length := List.length_pos_iff.mpr hreserved
  have hslots : slotBytes config ≤ m.state.reserved.length * slotBytes config :=
    Nat.le_mul_of_pos_left _ hpos
  have hfits := h.fits
  omega

/-- The disk gets no fuller and no file gets shorter. -/
theorem Budgeted.shrink {m' : Machine Usage} (h : Budgeted config m)
    (hjournal : m'.journal = m.journal) (hused : used m'.disk ≤ used m.disk)
    (hready : ∀ (key : String) (bytes : List UInt8), m'.disk.read (.ready key) = some bytes →
      m.disk.read (.ready key) = some bytes)
    (htmp : ∀ key : String, m'.disk.read (.tmp key) = none) : Budgeted config m' := by
  have hstate : m'.state = m.state := by
    unfold Machine.state
    rw [hjournal]
  refine ⟨hjournal ▸ h.opened, ?_, ?_, fun key bytes hread => h.ready key bytes (hready key bytes hread),
    htmp, hstate ▸ h.valid⟩
  · rw [hstate]
    exact (Nat.add_le_add_right hused _).trans h.fits
  · rw [hstate]
    intro hnone
    rcases h.spare hnone with hzero | hroom
    · exact .inl (Nat.le_zero.mp (hzero ▸ hused))
    · exact .inr ((Nat.add_le_add_right hused _).trans hroom)

theorem Budgeted.unhealthy (h : Budgeted config m) : Budgeted config m.unhealthy := by
  obtain ⟨state, hstate⟩ := Option.isSome_iff_exists.mp h.opened
  have hunhealthy : m.unhealthy.journal = some { state with healthy := false } := by
    unfold Machine.unhealthy
    rw [hstate]
    rfl
  have hreserved : m.unhealthy.state.reserved = m.state.reserved := by
    unfold Machine.state
    rw [hunhealthy, hstate]
    rfl
  refine ⟨by rw [hunhealthy]; rfl, ?_, ?_, h.ready, h.tmp, hreserved ▸ h.valid⟩
  · rw [hreserved]
    exact h.fits
  · rw [hreserved]
    exact h.spare

theorem Budgeted.state_setReserved (h : Budgeted config m) (f : List String → List String) :
    (m.setReserved f).state.reserved = f m.state.reserved := by
  obtain ⟨state, hstate⟩ := Option.isSome_iff_exists.mp h.opened
  unfold Machine.setReserved Machine.state
  dsimp only
  rw [hstate]
  rfl

theorem Budgeted.opened_setReserved (h : Budgeted config m) (f : List String → List String) :
    (m.setReserved f).journal.isSome := by
  unfold Machine.setReserved
  rw [Option.isSome_map]
  exact h.opened

/-- A reservation is given up. -/
theorem Budgeted.unreserve (h : Budgeted config m) (key : String) :
    Budgeted config (m.setReserved fun reserved => reserved.filter (· ≠ key)) := by
  have hstate := h.state_setReserved fun reserved => reserved.filter (· ≠ key)
  refine ⟨h.opened_setReserved _, ?_, ?_, h.ready, h.tmp, ?_⟩
  · rw [hstate]
    refine (Nat.add_le_add_left (Nat.mul_le_mul_right _ (List.length_filter_le _ _)) _).trans h.fits
  · intro _
    by_cases hreserved : m.state.reserved = []
    · exact h.spare hreserved
    · have hroom := h.slot hreserved
      have hspare : spareBytes ≤ slotBytes config := by
        unfold spareBytes slotBytes
        omega
      exact .inr ((Nat.add_le_add_left hspare _).trans hroom)
  · rw [hstate]
    intro other hother
    exact h.valid other (List.mem_of_mem_filter hother)

/-! ## Admission -/

theorem truncateIdle_budget (h : Budgeted config m) :
    Safe (truncateIdle m) (fun _ m' => Budgeted config m') (fun m' => Within config m'.disk) m := by
  have hempty : used m.disk.truncateWal ≤ used m.disk := by
    show ([] : List UInt8).length + filesBytes m.disk.files ≤
      m.disk.wal.visible.length + filesBytes m.disk.files
    exact Nat.add_le_add_right (Nat.zero_le _) _
  have htruncated : Budgeted config (m.onDisk Disk.truncateWal) :=
    h.shrink rfl hempty (fun _ _ hread => hread) h.tmp
  unfold truncateIdle
  by_cases hidle : (m.state.reserved.isEmpty && m.disk.files.isEmpty) = true
  · rw [if_pos hidle]
    refine Safe.step_bind h.within (Safe.step htruncated.within ?_)
    exact htruncated.shrink rfl (Nat.le_refl _) (fun _ _ hread => hread) htruncated.tmp
  · rw [if_neg hidle]
    exact Safe.pure h

/-- The check of `reserve`, without saturation. -/
theorem requiredBytes_exact (hsmall : config.maxBytes < UInt64.size - 1)
    (h : requiredBytes config m ≤ config.maxBytes) :
    used m.disk + (m.state.reserved.length + 1) * slotBytes config ≤ config.maxBytes := by
  have hsum := (satU64_le_iff hsmall).mp h
  have hdisk : diskBytes m.disk = used m.disk :=
    satU64_eq hsmall ((Nat.le_add_right _ _).trans hsum)
  have hslots := (Nat.le_add_left _ _).trans hsum
  have hproduct := (satU64_le_iff hsmall).mp hslots
  have hslot := (Nat.le_mul_of_pos_left _ (Nat.succ_pos m.state.reserved.length)).trans hproduct
  have hevents := (Nat.le_add_right _ _).trans ((satU64_le_iff hsmall).mp hslot)
  rw [satU64_eq hsmall hslots, satU64_eq hsmall hslot, satU64_eq hsmall hevents, hdisk] at hsum
  exact hsum

theorem reserve_budget (hframed : Framed codec) (hsmall : config.maxBytes < UInt64.size - 1)
    (h : Budgeted config m) (requestKey : String) :
    Safe (reserve codec config requestKey) (fun _ m' => Budgeted config m')
      (fun m' => Within config m'.disk) m := by
  refine Safe.observe_bind ?_
  dsimp only [id]
  split_ifs with hhealthy hreserved
  · exact Safe.pure h
  · exact Safe.pure h
  refine (truncateIdle_budget h).bind ?_
  intro _ m₁ h₁
  refine Safe.observe_bind ?_
  rw [id_eq]
  have hexact : requiredBytes config m₁ ≤ config.maxBytes →
      used m₁.disk + (m₁.state.reserved.length + 1) * slotBytes config ≤ config.maxBytes :=
    requiredBytes_exact hsmall
  generalize requiredBytes config m₁ = required at hexact
  split_ifs with hcapacity
  · exact Safe.pure h₁
  refine Safe.modify_bind (Safe.pure ?_)
  have hstate := h₁.state_setReserved (codec.eventKey requestKey :: ·)
  refine ⟨h₁.opened_setReserved _, ?_, ?_, h₁.ready, h₁.tmp, ?_⟩
  · rw [hstate, List.length_cons]
    exact hexact (Nat.not_lt.mp hcapacity)
  · intro hnone
    rw [hstate] at hnone
    exact absurd hnone (List.cons_ne_nil _ _)
  · rw [hstate]
    intro key hkey
    rcases List.mem_cons.mp hkey with rfl | hold
    · exact hframed.digest _
    · exact h₁.valid key hold

/-! ## Events -/

/-- An event takes the room of its reservation. -/
theorem Budgeted.publish {event : MeteredEvent Usage} {m' : Machine Usage} (h : Budgeted config m)
    (hevent : (codec.eventJson event).length ≤ config.maxEventBytes)
    (hlong : 178 ≤ (codec.eventJson event).length) (hkey : event.eventKey ∈ m.state.reserved)
    (hjournal : m'.journal = m.journal)
    (hused : used m'.disk ≤ used m.disk + (codec.eventJson event).length * 2 + 116)
    (hread : ∀ name : IndexFile, m'.disk.read name = (publish codec event m.disk).read name) :
    Budgeted config (m'.setReserved fun reserved => reserved.filter (· ≠ event.eventKey)) := by
  have hstate' : m'.state = m.state := by
    unfold Machine.state
    rw [hjournal]
  have hstate : (m'.setReserved fun reserved => reserved.filter (· ≠ event.eventKey)).state.reserved =
      m.state.reserved.filter (· ≠ event.eventKey) := by
    obtain ⟨state, hstate⟩ := Option.isSome_iff_exists.mp h.opened
    unfold Machine.setReserved Machine.state
    dsimp only
    rw [hjournal, hstate]
    rfl
  have hfewer : (m.state.reserved.filter (· ≠ event.eventKey)).length + 1 ≤
      m.state.reserved.length := by
    apply List.length_filter_lt_length_iff_exists.mpr
    exact ⟨event.eventKey, hkey, by simp⟩
  have hslots : (m.state.reserved.filter (· ≠ event.eventKey)).length * slotBytes config +
      slotBytes config ≤ m.state.reserved.length * slotBytes config := by
    rw [← Nat.succ_mul]
    exact Nat.mul_le_mul_right _ hfewer
  have hfits := h.fits
  have hslot : (codec.eventJson event).length * 2 + 1024 ≤ slotBytes config := by
    unfold slotBytes
    omega
  refine ⟨?_, ?_, ?_, ?_, ?_, ?_⟩
  · unfold Machine.setReserved
    rw [Option.isSome_map, hjournal]
    exact h.opened
  · rw [hstate]
    rw [used_setReserved]
    omega
  · intro _
    right
    rw [used_setReserved]
    unfold spareBytes
    omega
  · intro key bytes hsome
    have hpublished := (hread _).symm.trans hsome
    rw [read_publish] at hpublished
    by_cases hsame : key = event.eventKey
    · rw [if_pos (congrArg IndexFile.ready hsame)] at hpublished
      rw [← Option.some.inj hpublished]
      exact hlong
    · rw [if_neg fun heq => hsame (IndexFile.ready.inj heq), if_neg (by simp)] at hpublished
      exact h.ready key bytes hpublished
  · intro key
    show m'.disk.read _ = none
    rw [hread, read_publish, if_neg (by simp)]
    split_ifs
    · rfl
    · exact h.tmp key
  · rw [hstate]
    intro key hin
    exact h.valid key (List.mem_of_mem_filter hin)

theorem used_publish_le (codec : Codec Usage) (event : MeteredEvent Usage) (disk : Disk) :
    used (publish codec event disk) ≤ used disk + (codec.eventJson event).length :=
  (used_rename_le _ _ _).trans (used_write_again _ _ _ _)

theorem writeEvent_budget {event : MeteredEvent Usage} (hframed : Framed codec)
    (h : Budgeted config m) (hlong : 178 ≤ (codec.eventJson event).length) :
    Safe (writeEvent codec config event) (fun _ m' => Budgeted config m')
      (fun m' => Within config m'.disk) m := by
  refine Safe.observe_bind ?_
  dsimp only [id]
  by_cases hidentity : (!validKey event.eventKey || decide (event.version ≠ 1)) = true
  · rw [if_pos hidentity]
    exact Safe.pure h
  rw [if_neg hidentity]
  by_cases hsize : config.maxEventBytes < (codec.eventJson event).length
  · rw [if_pos hsize]
    exact Safe.pure h
  rw [if_neg hsize]
  cases hfile : m.disk.read (.ready event.eventKey) with
  | some bytes =>
      dsimp only
      by_cases hconflict : bytes ≠ codec.eventJson event
      · rw [if_pos hconflict]
        exact Safe.pure h
      · rw [if_neg hconflict]
        exact Safe.modify_bind (Safe.pure (h.unreserve event.eventKey))
  | none =>
      dsimp only
      by_cases hreserved : (!m.state.reserved.contains event.eventKey) = true
      · rw [if_pos hreserved]
        exact Safe.pure h
      rw [if_neg hreserved]
      have hkey : event.eventKey ∈ m.state.reserved := by simpa using hreserved
      have hroom := h.slot (List.ne_nil_of_mem hkey)
      unfold slotBytes at hroom
      have hline := hframed.readyLine event
      -- the log with the record, and the writes that follow it
      have hlog : used ((m.onDisk (Disk.appendWal (codec.line (.ready event)))).onDisk
          Disk.syncWal).disk = used m.disk + ((codec.eventJson event).length + 116) := by
        rw [← hline]
        exact used_appendWal _ _
      have hwithin : ∀ disk : Disk, used disk ≤ used m.disk + (codec.eventJson event).length * 2 + 116 →
          Within config disk := fun disk hused => within_of_used (by omega)
      refine Safe.bind (Safe.append (Q := fun _ m' => m' =
        (m.onDisk (Disk.appendWal (codec.line (.ready event)))).onDisk Disk.syncWal) h.within
        (hwithin _ ?_) rfl) ?_
      · show used (m.disk.appendWal _) ≤ _
        rw [used_appendWal, hline]
        omega
      rintro _ _ rfl
      refine Safe.observe_bind ?_
      dsimp only [id]
      have htmp : ((m.onDisk (Disk.appendWal (codec.line (.ready event)))).onDisk
          Disk.syncWal).disk.read (.tmp event.eventKey) = none := h.tmp _
      rw [htmp]
      dsimp only [Option.isSome]
      rw [if_neg Bool.false_ne_true]
      generalize hm : (m.onDisk (Disk.appendWal (codec.line (.ready event)))).onDisk Disk.syncWal = m₁
        at hlog
      have hcreated := used_write_le (.tmp event.eventKey) [] m₁.disk
      have hwritten := used_write_again (.tmp event.eventKey) [] (codec.eventJson event) m₁.disk
      have hpublished := used_publish_le codec event m₁.disk
      rw [List.length_nil] at hcreated
      refine Safe.step_bind (hwithin _ (by omega)) (Safe.step_bind (hwithin _ ?_)
        (Safe.step_bind (hwithin _ ?_) (Safe.modify_bind (Safe.pure ?_))))
      · exact hcreated.trans (by omega)
      · exact hwritten.trans (by omega)
      · have hfinal : Budgeted config ((m₁.onDisk (UsageRecovery.publish codec event)).setReserved
            fun reserved => reserved.filter (· ≠ event.eventKey)) := by
          refine h.publish (Nat.not_lt.mp hsize) hlong hkey ?_ ?_ ?_
          · rw [← hm]
            rfl
          · exact hpublished.trans (by omega)
          · intro name
            rw [← hm]
            show (UsageRecovery.publish codec event _).read name = _
            rw [read_publish, read_publish]
            rfl
        exact hfinal

theorem putReady_budget {event : MeteredEvent Usage} (hframed : Framed codec)
    (h : Budgeted config m) (hlong : 178 ≤ (codec.eventJson event).length) :
    Safe (putReady codec config event) (fun _ m' => Budgeted config m')
      (fun m' => Within config m'.disk) m := by
  refine (writeEvent_budget hframed h hlong).bind ?_
  rintro (error | ⟨⟩) m' h'
  · exact Safe.modify_bind (Safe.pure h'.unhealthy)
  · exact Safe.modify_bind (Safe.pure
      (h'.shrink rfl (Nat.le_refl _) (fun _ _ hread => hread) h'.tmp))

/-- Room for an acknowledgement, as long as there is a file to acknowledge. -/
theorem Budgeted.ackRoom {key : String} {bytes : List UInt8} (h : Budgeted config m)
    (hfile : m.disk.read (.ready key) = some bytes) : used m.disk + 178 ≤ config.maxBytes := by
  by_cases hreserved : m.state.reserved = []
  · have hlong := h.ready key bytes hfile
    have hheld := used_remove_add hfile
    have hspare : 178 ≤ spareBytes := by decide
    rcases h.spare hreserved with hzero | hroom
    · omega
    · omega
  · have hroom := h.slot hreserved
    unfold slotBytes at hroom
    omega

theorem ack_budget (hframed : Framed codec) (h : Budgeted config m) (key : String) :
    Safe (ack codec key) (fun _ m' => Budgeted config m') (fun m' => Within config m'.disk) m := by
  have hforgot : Budgeted config (m.forget key) :=
    h.shrink rfl (Nat.le_refl _) (fun _ _ hread => hread) h.tmp
  unfold ack
  by_cases hkey : (!validKey key) = true
  · rw [if_pos hkey]
    exact Safe.pure h
  rw [if_neg hkey]
  rw [Bool.not_eq_true, Bool.not_eq_false'] at hkey
  refine Safe.modify_bind (Safe.observe_bind ?_)
  dsimp only [id]
  cases hfile : (m.forget key).disk.read (.ready key) with
  | none =>
      rw [Option.isNone_none, if_pos rfl]
      exact Safe.pure hforgot
  | some bytes =>
      rw [Option.isNone_some, if_neg Bool.false_ne_true]
      have hroom := hforgot.ackRoom hfile
      have hline := hframed.ackLine hkey
      have happended : used ((m.forget key).disk.appendWal (codec.line (.ack key))) =
          used (m.forget key).disk + 178 := by
        rw [used_appendWal, hline]
      have hwithin : Within config ((m.forget key).disk.appendWal (codec.line (.ack key))) :=
        within_of_used (happended ▸ hroom)
      refine Safe.bind (Safe.append (Q := fun _ m' => m' =
        ((m.forget key).onDisk (Disk.appendWal (codec.line (.ack key)))).onDisk Disk.syncWal)
        hforgot.within hwithin rfl) ?_
      rintro _ _ rfl
      refine Safe.step_bind hwithin (Safe.pure (hforgot.shrink rfl ?_ ?_ ?_))
      · -- the file is at least as long as the acknowledgement
        have hfreed : used (((m.forget key).disk.appendWal (codec.line (.ack key))).remove
            (.ready key)) + bytes.length ≤ used ((m.forget key).disk.appendWal (codec.line (.ack key))) :=
          used_remove_add hfile
        have hlong := hforgot.ready key bytes hfile
        rw [happended] at hfreed
        show used (((m.forget key).disk.appendWal (codec.line (.ack key))).remove (.ready key)) ≤ _
        omega
      · intro other found hread
        have hread' : (((m.forget key).disk.appendWal (codec.line (.ack key))).remove
            (.ready key)).read (.ready other) = some found := hread
        rw [Disk.read_remove] at hread'
        split_ifs at hread'
        exact hread'
      · intro other
        show (((m.forget key).disk.appendWal (codec.line (.ack key))).remove (.ready key)).read _ = none
        rw [Disk.read_remove, if_neg (by simp)]
        exact hforgot.tmp other

/-! ## Replaying -/

theorem quarantine_budget (h : Budgeted config m) (key : String) :
    Safe (quarantine key) (fun _ m' => Budgeted config m') (fun m' => Within config m'.disk) m := by
  refine Safe.step_bind h.within (Safe.modify (Budgeted.unhealthy ?_))
  refine h.shrink rfl (used_rename_le _ _ _) ?_ ?_
  · intro other found hread
    have hread' : (m.disk.rename (.ready key) (.quarantine key)).read (.ready other) = some found :=
      hread
    cases hfile : m.disk.read (.ready key) with
    | none =>
        unfold Disk.rename at hread'
        rw [hfile] at hread'
        exact hread'
    | some bytes =>
        rw [Disk.read_rename _ hfile, if_neg (by simp)] at hread'
        split_ifs at hread'
        exact hread'
  · intro other
    show (m.disk.rename (.ready key) (.quarantine key)).read (.tmp other) = none
    cases hfile : m.disk.read (.ready key) with
    | none =>
        unfold Disk.rename
        rw [hfile]
        exact h.tmp other
    | some bytes =>
        rw [Disk.read_rename _ hfile, if_neg (by simp), if_neg (by simp)]
        exact h.tmp other

theorem quarantineConflict_budget (h : Budgeted config m) (key error : String) :
    Safe (quarantineConflict key error) (fun _ m' => Budgeted config m')
      (fun m' => Within config m'.disk) m := by
  unfold quarantineConflict
  by_cases hconflict : isConflict error = true
  · rw [if_pos hconflict]
    exact quarantine_budget h key
  · rw [if_neg hconflict]
    exact Safe.pure h

theorem replayKeys_budget {handoff : MeteredEvent Usage → Except String Unit} {keys : List String}
    {done : Nat} (hframed : Framed codec) (h : Budgeted config m) :
    Safe (replayKeys codec config handoff keys done) (fun _ m' => Budgeted config m')
      (fun m' => Within config m'.disk) m := by
  induction keys generalizing m done with
  | nil => exact Safe.pure h
  | cons key keys ih =>
      unfold replayKeys
      refine Safe.observe_bind ?_
      cases m.disk.read (.ready key) with
      | none => exact ih h
      | some bytes =>
          dsimp only
          cases readReady codec config key bytes with
          | error error => exact (quarantine_budget h key).bind fun _ _ h' => Safe.pure h'
          | ok event =>
              dsimp only
              cases handoff event with
              | error error =>
                  exact (quarantineConflict_budget h key error).bind fun _ _ h' => Safe.pure h'
              | ok _ =>
                  refine (ack_budget hframed h event.eventKey).bind ?_
                  rintro (error | ⟨⟩) m' h'
                  · exact Safe.pure h'
                  · exact ih h'

/-! ## Calls -/

/-- The event of a call is at least as long as its acknowledgement. -/
def Call.LongEvent (codec : Codec Usage) : Call Usage → Prop
  | .putReady event => (codec.line (.ack event.eventKey)).length ≤ (codec.eventJson event).length
  | _ => True

theorem onOpen_budget {α : Type} {t : Crashing (Machine Usage) α} (h : Budgeted config m)
    (ht : Safe t (fun _ m' => Budgeted config m') (fun m' => Within config m'.disk) m) :
    Safe (onOpen t) (fun _ m' => Budgeted config m') (fun m' => Within config m'.disk) m := by
  refine Safe.observe_bind ?_
  rw [if_pos h.opened]
  exact ht.bind fun _ _ h' => Safe.pure h'

theorem putReady_budget_call {event : MeteredEvent Usage} (hframed : Framed codec)
    (h : Budgeted config m) (hlong : (Call.putReady event).LongEvent codec) :
    Safe (putReady codec config event) (fun _ m' => Budgeted config m')
      (fun m' => Within config m'.disk) m := by
  by_cases hkey : validKey event.eventKey = true
  · have hlength : (codec.line (.ack event.eventKey)).length ≤ (codec.eventJson event).length := hlong
    rw [hframed.ackLine hkey] at hlength
    exact putReady_budget hframed h hlength
  · -- rejected before anything is written
    refine Safe.bind (Q := fun result m' => (∃ error, result = .error error) ∧ m' = m) ?_ ?_
    · refine Safe.observe_bind ?_
      dsimp only [id]
      rw [if_pos (by simp [hkey])]
      exact Safe.pure ⟨⟨_, rfl⟩, rfl⟩
    · rintro _ _ ⟨⟨error, rfl⟩, rfl⟩
      exact Safe.modify_bind (Safe.pure h.unhealthy)

theorem Call.perform_budget {call : Call Usage} (hframed : Framed codec)
    (hsmall : config.maxBytes < UInt64.size - 1) (h : Budgeted config m)
    (hlong : call.LongEvent codec) :
    Safe (call.perform codec config) (fun _ m' => Budgeted config m')
      (fun m' => Within config m'.disk) m := by
  cases call with
  | «open» =>
      refine Safe.bind (Q := fun _ m' => Budgeted config m') ?_ fun _ _ h' => Safe.pure h'
      refine Safe.observe_bind ?_
      rw [if_pos h.opened]
      exact Safe.pure h
  | reserve requestKey => exact onOpen_budget h (reserve_budget hframed hsmall h requestKey)
  | release requestKey =>
      exact onOpen_budget h (Safe.modify (h.unreserve (codec.eventKey requestKey)))
  | putReady event => exact onOpen_budget h (putReady_budget_call hframed h hlong)
  | ack key => exact onOpen_budget h (ack_budget hframed h key)
  | replay handoff => exact onOpen_budget h (Safe.observe_bind (replayKeys_budget hframed h))

end Conduit.UsageRecovery
