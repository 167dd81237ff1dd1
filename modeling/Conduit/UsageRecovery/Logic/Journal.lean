import Conduit.UsageRecovery.Journal

/-!
# What the log and the directory hold

A log that consists of the lines of records reads back as what is pending
after these records. Beside it, the files of the directory after each file
operation.
-/

namespace Conduit.UsageRecovery

variable {Usage : Type}

/-! ## The directory -/

theorem lookup_filter_ne {α β : Type} [DecidableEq α] (name other : α) (entries : List (α × β)) :
    (entries.filter fun entry => entry.1 ≠ name).lookup other =
      if other = name then none else entries.lookup other := by
  induction entries with
  | nil => simp
  | cons entry entries ih =>
      obtain ⟨key, value⟩ := entry
      by_cases hkey : key = name
      · rw [List.filter_cons_of_neg (by simp [hkey]), ih]
        split_ifs with hother
        · rfl
        · rw [List.lookup_cons, beq_false_of_ne (hkey ▸ hother)]
      · rw [List.filter_cons_of_pos (by simp [hkey]), List.lookup_cons, List.lookup_cons]
        by_cases hfound : other = key
        · rw [if_neg (hfound ▸ hkey), hfound, beq_self_eq_true]
        · rw [beq_false_of_ne hfound]
          exact ih

namespace Disk

@[simp] theorem read_remove (name other : IndexFile) (disk : Disk) :
    (disk.remove name).read other = if other = name then none else disk.read other :=
  lookup_filter_ne name other disk.files

@[simp] theorem read_write (name other : IndexFile) (bytes : List UInt8) (disk : Disk) :
    (disk.write name bytes).read other = if other = name then some bytes else disk.read other := by
  unfold read write
  rw [List.lookup_cons]
  by_cases hother : other = name
  · rw [if_pos hother, hother, beq_self_eq_true]
  · rw [if_neg hother, beq_false_of_ne hother, lookup_filter_ne, if_neg hother]

@[simp] theorem read_appendWal (name : IndexFile) (bytes : List UInt8) (disk : Disk) :
    (disk.appendWal bytes).read name = disk.read name := rfl

@[simp] theorem read_truncateWal (name : IndexFile) (disk : Disk) :
    disk.truncateWal.read name = disk.read name := rfl

@[simp] theorem read_syncWal (name : IndexFile) (disk : Disk) :
    disk.syncWal.read name = disk.read name := rfl

@[simp] theorem read_syncDirectory (name : IndexFile) (disk : Disk) :
    disk.syncDirectory.read name = disk.read name := rfl

@[simp] theorem wal_remove (name : IndexFile) (disk : Disk) : (disk.remove name).wal = disk.wal := rfl

@[simp] theorem wal_write (name : IndexFile) (bytes : List UInt8) (disk : Disk) :
    (disk.write name bytes).wal = disk.wal := rfl

@[simp] theorem wal_rename (old new : IndexFile) (disk : Disk) :
    (disk.rename old new).wal = disk.wal := by
  unfold rename
  cases disk.read old <;> rfl

theorem read_rename {old new : IndexFile} (other : IndexFile) {bytes : List UInt8} {disk : Disk}
    (h : disk.read old = some bytes) :
    (disk.rename old new).read other =
      if other = new then some bytes else if other = old then none else disk.read other := by
  unfold rename
  rw [h]
  simp

theorem read_eq_none {name : IndexFile} {disk : Disk} (h : name ∉ disk.files.map Prod.fst) :
    disk.read name = none := by
  unfold read
  rw [List.lookup_eq_none_iff]
  intro entry hentry
  rw [bne_iff_ne]
  rintro rfl
  exact h (List.mem_map_of_mem hentry)

end Disk

/-! ## Records -/

/-- What the second check of `put_ready` and the reader of the log ask of an event. -/
structure Acceptable (codec : Codec Usage) (config : UsageRecoveryConfig)
    (event : MeteredEvent Usage) : Prop where
  version : event.version = 1
  key : validKey event.eventKey = true
  size : (codec.eventJson event).length ≤ config.maxEventBytes

/-- The record reads back from the line that is written for it, and an event
from the file that is written for it. -/
structure ReadsBack (codec : Codec Usage) (config : UsageRecoveryConfig)
    (payload : JournalRecord Usage) : Prop where
  oneLine : 10 ∉ codec.frameJson payload (codec.checksum payload)
  size : (codec.line payload).length ≤ config.maxEventBytes + 1024
  frame : codec.readFrame (codec.line payload) = some (payload, codec.checksum payload)
  event : ∀ event : MeteredEvent Usage, payload = .ready event →
    codec.readEvent (codec.eventJson event) = some event

/-- A record of the log. -/
structure Recorded (codec : Codec Usage) (config : UsageRecoveryConfig)
    (payload : JournalRecord Usage) : Prop extends ReadsBack codec config payload where
  acceptable : ∀ event : MeteredEvent Usage, payload = .ready event → Acceptable codec config event

variable {codec : Codec Usage} {config : UsageRecoveryConfig}

theorem ReadsBack.readLine {payload : JournalRecord Usage} (h : ReadsBack codec config payload)
    (rest : List UInt8) :
    readLine (config.maxEventBytes + 1024) (codec.line payload ++ rest) = codec.line payload := by
  have htake : ((codec.line payload ++ rest).takeWhile (· != 10)).length + 1 =
      (codec.line payload).length := by
    unfold Codec.line
    rw [List.append_assoc, List.takeWhile_append_of_pos, List.singleton_append,
      List.takeWhile_cons_of_neg (by simp), List.append_nil, List.length_append,
      List.length_singleton]
    intro b hb
    rw [bne_iff_ne]
    rintro rfl
    exact h.oneLine hb
  unfold UsageRecovery.readLine
  rw [htake, Nat.min_eq_right h.size, List.take_left]

theorem ReadsBack.decodeLine {payload : JournalRecord Usage} (h : ReadsBack codec config payload) :
    decodeLine codec (codec.line payload) = some payload := by
  have hend : (codec.line payload).getLast? = some 10 := by
    unfold Codec.line
    rw [List.getLast?_concat]
  unfold UsageRecovery.decodeLine
  rw [if_pos hend, h.frame, Option.bind_some]
  exact if_pos rfl

/-! ## What is pending -/

def applyRecord (pending : List (MeteredEvent Usage)) :
    JournalRecord Usage → List (MeteredEvent Usage)
  | .ready event => insertPending event pending
  | .ack key => removePending key pending

/-- The events that are pending after the records of a log. -/
def pendingOf (records : List (JournalRecord Usage)) : List (MeteredEvent Usage) :=
  records.foldl applyRecord []

theorem pendingOf_concat (records : List (JournalRecord Usage)) (payload : JournalRecord Usage) :
    pendingOf (records ++ [payload]) = applyRecord (pendingOf records) payload := by
  unfold pendingOf
  rw [List.foldl_append]
  rfl

theorem mem_insertPending {event other : MeteredEvent Usage} {pending : List (MeteredEvent Usage)} :
    other ∈ insertPending event pending ↔
      other ∈ pending ∧ other.eventKey ≠ event.eventKey ∨ other = event := by
  unfold insertPending
  simp

theorem mem_removePending {key : String} {other : MeteredEvent Usage}
    {pending : List (MeteredEvent Usage)} :
    other ∈ removePending key pending ↔ other ∈ pending ∧ other.eventKey ≠ key := by
  unfold removePending
  simp

/-- At most one event is pending for a key. -/
theorem pendingOf_unique (records : List (JournalRecord Usage)) :
    ∀ event ∈ pendingOf records, ∀ other ∈ pendingOf records,
      event.eventKey = other.eventKey → event = other := by
  induction records using List.reverseRecOn with
  | nil => exact fun _ h => absurd h List.not_mem_nil
  | append_singleton records payload ih =>
      rw [pendingOf_concat]
      cases payload with
      | ready added =>
          intro event hevent other hother hkey
          rcases mem_insertPending.mp hevent with ⟨hevent, hne⟩ | rfl
          · rcases mem_insertPending.mp hother with ⟨hother, _⟩ | rfl
            · exact ih event hevent other hother hkey
            · exact absurd hkey hne
          · rcases mem_insertPending.mp hother with ⟨_, hne⟩ | rfl
            · exact absurd hkey.symm hne
            · rfl
      | ack key =>
          intro event hevent other hother hkey
          exact ih event (mem_removePending.mp hevent).1 other (mem_removePending.mp hother).1 hkey

/-- Only recorded events are pending. -/
theorem ready_mem_of_pending {records : List (JournalRecord Usage)} {event : MeteredEvent Usage}
    (h : event ∈ pendingOf records) : .ready event ∈ records := by
  induction records using List.reverseRecOn with
  | nil => exact absurd h List.not_mem_nil
  | append_singleton records payload ih =>
      rw [pendingOf_concat] at h
      cases payload with
      | ready added =>
          rcases mem_insertPending.mp h with ⟨hold, _⟩ | rfl
          · exact List.mem_append_left _ (ih hold)
          · exact List.mem_append_right _ List.mem_cons_self
      | ack key => exact List.mem_append_left _ (ih (mem_removePending.mp h).1)

/-! ## The log -/

/-- The log consists of the lines of these records. -/
structure Journaled (codec : Codec Usage) (config : UsageRecoveryConfig) (bytes : List UInt8)
    (records : List (JournalRecord Usage)) : Prop where
  lines : bytes = records.flatMap codec.line
  recorded : ∀ payload ∈ records, Recorded codec config payload

theorem Journaled.nil : Journaled codec config [] [] where
  lines := rfl
  recorded _ h := absurd h List.not_mem_nil

theorem Journaled.concat {bytes : List UInt8} {records : List (JournalRecord Usage)}
    {payload : JournalRecord Usage} (h : Journaled codec config bytes records)
    (hpayload : Recorded codec config payload) :
    Journaled codec config (bytes ++ codec.line payload) (records ++ [payload]) where
  lines := by
    rw [h.lines, List.flatMap_append, List.flatMap_singleton]
  recorded other hother := by
    rcases List.mem_append.mp hother with hold | hnew
    · exact h.recorded other hold
    · rw [List.mem_singleton.mp hnew]
      exact hpayload

theorem Journaled.acceptable {bytes : List UInt8} {records : List (JournalRecord Usage)}
    {event : MeteredEvent Usage} (h : Journaled codec config bytes records)
    (hpending : event ∈ pendingOf records) : Acceptable codec config event :=
  (h.recorded _ (ready_mem_of_pending hpending)).acceptable event rfl

theorem Journaled.readEvent {bytes : List UInt8} {records : List (JournalRecord Usage)}
    {event : MeteredEvent Usage} (h : Journaled codec config bytes records)
    (hpending : event ∈ pendingOf records) : codec.readEvent (codec.eventJson event) = some event :=
  (h.recorded _ (ready_mem_of_pending hpending)).event event rfl

/-- The reader gets to what comes after the lines of records. -/
theorem readJournal_append {records : List (JournalRecord Usage)}
    (h : ∀ payload ∈ records, Recorded codec config payload) (pending : List (MeteredEvent Usage))
    (rest : List UInt8) :
    readJournal codec config pending (records.flatMap codec.line ++ rest) =
      readJournal codec config (records.foldl applyRecord pending) rest := by
  induction records generalizing pending with
  | nil => rfl
  | cons payload records ih =>
      have hpayload := h payload List.mem_cons_self
      have hrest := fun other hother => h other (List.mem_cons_of_mem payload hother)
      have hne : codec.line payload ++ (records.flatMap codec.line ++ rest) ≠ [] := by
        unfold Codec.line
        simp
      have hdrop : (codec.line payload ++ (records.flatMap codec.line ++ rest)).drop
          (codec.line payload).length = records.flatMap codec.line ++ rest := List.drop_left
      rw [List.flatMap_cons, List.append_assoc, readJournal, dif_neg hne]
      dsimp only
      rw [hpayload.readLine, hpayload.decodeLine, hdrop, List.foldl_cons]
      cases payload with
      | ready event =>
          have hevent := hpayload.acceptable event rfl
          have hvalid : (decide (event.version ≠ 1) || !validKey event.eventKey) = false := by
            rw [hevent.key, hevent.version]
            rfl
          dsimp only
          rw [hvalid]
          exact ih hrest _
      | ack key => exact ih hrest _

/-- A log of records reads back. -/
theorem Journaled.read {bytes : List UInt8} {records : List (JournalRecord Usage)}
    (h : Journaled codec config bytes records) :
    readJournal codec config [] bytes = some (pendingOf records) := by
  have hlines := readJournal_append h.recorded [] []
  rw [List.append_nil, ← h.lines] at hlines
  rw [hlines, readJournal]
  rfl

end Conduit.UsageRecovery
