import Conduit.UsageRecovery.Logic.Events

/-!
# A run that is cut off

One event is accepted, and the append of a second one is cut off before it is
synced. Whatever part of the second record is left, the index file of the first
event may be gone, and opening the journal does not write it again.
-/

namespace Conduit.UsageRecovery

open Base Base.Crashing

variable {Usage : Type} {codec : Codec Usage} {config : UsageRecoveryConfig}

def uncut (call : Call Usage) : Action Usage := ⟨call, none, 0, []⟩

/-- An event that a request can be metered with. -/
structure Metered (codec : Codec Usage) (config : UsageRecoveryConfig) (requestKey : String)
    (event : MeteredEvent Usage) : Prop extends Acceptable codec config event where
  reservation : codec.eventKey requestKey = event.eventKey
  back : ReadsBack codec config (.ready event)

/-- The journal without an event. -/
def idle (reserved : List String) : Machine Usage :=
  ⟨⟨⟨[], []⟩, [], []⟩, some ⟨reserved, true⟩, []⟩

/-- The journal after one event. -/
def accepted (codec : Codec Usage) (event : MeteredEvent Usage) (reserved : List String) :
    Machine Usage :=
  ⟨publish codec event ⟨⟨codec.line (.ready event), codec.line (.ready event)⟩, [], []⟩,
    some ⟨reserved, true⟩, [event]⟩

theorem step_open : (system codec config).step (system codec config).init (uncut .open) = idle [] := by
  have hread : readJournal codec config ([] : List (MeteredEvent Usage)) [] = some [] := by
    rw [readJournal]
    rfl
  simp [system, uncut, Call.perform, openJournal, restoreIndexes, fileOp, bind_apply, pure_apply,
    step_none, modify_apply, observe_apply, Machine.onDisk, Disk.syncWal, Disk.syncDirectory, hread,
    removeStale, writeIndexes, idle]

theorem satU64_le (n : Nat) : satU64 n ≤ n := min_le_left _ _

theorem requiredBytes_le (config : UsageRecoveryConfig) (m : Machine Usage) : requiredBytes config m ≤
    m.disk.wal.visible.length + (m.disk.files.map fun entry => entry.2.length).sum +
      (m.state.reserved.length + 1) * (config.maxEventBytes * 2 + 1024) := by
  have hslot : satU64 (satU64 (config.maxEventBytes * 2) + 1024) ≤ config.maxEventBytes * 2 + 1024 :=
    (satU64_le _).trans (Nat.add_le_add_right (satU64_le _) _)
  refine (satU64_le _).trans (Nat.add_le_add (satU64_le _) ((satU64_le _).trans ?_))
  exact Nat.mul_le_mul_left _ hslot

theorem files_accepted (codec : Codec Usage) (event : MeteredEvent Usage) (reserved : List String) :
    (accepted codec event reserved).disk.files = [(.ready event.eventKey, codec.eventJson event)] := by
  simp [accepted, publish, Disk.rename, Disk.read, Disk.write, Disk.remove]

theorem wal_accepted (codec : Codec Usage) (event : MeteredEvent Usage) (reserved : List String) :
    (accepted codec event reserved).disk.wal =
      ⟨codec.line (.ready event), codec.line (.ready event)⟩ := wal_publish event _

theorem step_reserve_idle {requestKey : String}
    (hcapacity : config.maxEventBytes * 2 + 1024 ≤ config.maxBytes) :
    (system codec config).step (idle []) (uncut (.reserve requestKey)) =
      idle [codec.eventKey requestKey] := by
  have hrequired : ¬ config.maxBytes < requiredBytes config (idle [] : Machine Usage) := by
    have h := requiredBytes_le config (idle [] : Machine Usage)
    simp only [idle, Machine.state] at h
    simp at h
    exact Nat.not_lt.mpr (h.trans hcapacity)
  generalize hneed : requiredBytes config (idle [] : Machine Usage) = need at hrequired
  have hneed' : requiredBytes config (⟨⟨⟨[], []⟩, [], []⟩, some ⟨[], true⟩, []⟩ : Machine Usage) = need := hneed
  simp [system, uncut, Call.perform, onOpen, reserve, truncateIdle, fileOp, bind_apply, pure_apply,
    step_none, modify_apply, observe_apply, Machine.onDisk, Disk.syncWal, Disk.truncateWal, idle,
    Machine.state, hneed', hrequired, Machine.setReserved]

theorem step_putReady_idle {requestKey : String} {event : MeteredEvent Usage}
    (h : Metered codec config requestKey event) :
    (system codec config).step (idle [codec.eventKey requestKey]) (uncut (.putReady event)) =
      accepted codec event [] := by
  have hsize : ¬ config.maxEventBytes < (codec.eventJson event).length := Nat.not_lt.mpr h.size
  simp [system, uncut, Call.perform, onOpen, putReady, writeEvent, append, fileOp, bind_apply,
    pure_apply, step_none, modify_apply, observe_apply, Machine.onDisk, Disk.syncWal,
    Disk.appendWal, idle, Machine.state, Machine.setReserved, Machine.accept, h.reservation, h.key,
    h.version, hsize, Disk.read, accepted, publish]

theorem step_reserve_accepted {requestKey : String} {event : MeteredEvent Usage}
    (hcapacity : (codec.line (.ready event)).length + (codec.eventJson event).length +
      (config.maxEventBytes * 2 + 1024) ≤ config.maxBytes) :
    (system codec config).step (accepted codec event []) (uncut (.reserve requestKey)) =
      accepted codec event [codec.eventKey requestKey] := by
  have hrequired : ¬ config.maxBytes < requiredBytes config (accepted codec event []) := by
    have h := requiredBytes_le config (accepted codec event [])
    rw [files_accepted, wal_accepted] at h
    have hreserved : (accepted codec event []).state.reserved = [] := rfl
    rw [hreserved] at h
    simp at h
    exact Nat.not_lt.mpr (h.trans hcapacity)
  have hfiles : (accepted codec event []).disk.files ≠ [] := by
    rw [files_accepted]
    exact List.cons_ne_nil _ _
  have hstate : (accepted codec event []).state = ⟨[], true⟩ := rfl
  have hopen : (accepted codec event []).journal.isSome = true := rfl
  generalize hm : accepted codec event [] = m at hrequired hfiles hstate hopen
  simp [system, uncut, Call.perform, onOpen, reserve, truncateIdle, bind_apply, pure_apply,
    modify_apply, observe_apply, hrequired, hfiles, hstate, hopen]
  rw [← hm]
  rfl

/-- A call that is cut off before its record is synced. -/
def cut (survived : Nat) (event : MeteredEvent Usage) : Action Usage :=
  ⟨.putReady event, some 1, survived, []⟩

theorem step_cut {requestKey : String} {event other : MeteredEvent Usage} (survived : Nat)
    (h : Metered codec config requestKey other) (hne : event.eventKey ≠ other.eventKey) :
    (system codec config).step (accepted codec event [codec.eventKey requestKey])
        (cut survived other) =
      ⟨⟨⟨codec.line (.ready event) ++ (codec.line (.ready other)).take survived,
        codec.line (.ready event) ++ (codec.line (.ready other)).take survived⟩, [], []⟩, none,
        [event]⟩ := by
  have hsize : ¬ config.maxEventBytes < (codec.eventJson other).length := Nat.not_lt.mpr h.size
  have hread : (accepted codec event [codec.eventKey requestKey]).disk.read (.ready other.eventKey) =
      none := by
    unfold Disk.read
    rw [files_accepted]
    simp [Ne.symm hne]
  have hkeys : (accepted codec event [other.eventKey]).state.reserved = [other.eventKey] := rfl
  have hopen : (accepted codec event [other.eventKey]).journal.isSome = true := rfl
  have hwal := wal_accepted codec event [other.eventKey]
  have hfiles := files_accepted codec event [other.eventKey]
  have hdirty : IndexFile.ready event.eventKey ∈ (accepted codec event [other.eventKey]).disk.dirty := by
    simp [accepted, publish, Disk.rename, Disk.read, Disk.write, Disk.remove]
  have howed : (accepted codec event [other.eventKey]).owed = [event] := rfl
  rw [h.reservation] at hread ⊢
  generalize accepted codec event [other.eventKey] = m at hread hkeys hopen hwal hfiles hdirty howed
  simp [system, cut, Call.perform, onOpen, putReady, writeEvent, append, fileOp, bind_apply,
    step_zero, step_succ, observe_apply, Machine.onDisk, Disk.appendWal, h.key, h.version, hsize, hread,
    hkeys, hopen, hwal, Machine.crash, Disk.crash, hfiles, hdirty, howed, List.take_append]


/-! ## Opening on a torn log -/

theorem decodeLine_eq_none {line : List UInt8} (h : 10 ∉ line) : decodeLine codec line = none := by
  unfold decodeLine
  exact if_neg fun hlast => h (List.mem_of_getLast? hlast)

/-- The log of one record and a part of another does not read back. -/
theorem readJournal_torn {event other : MeteredEvent Usage} {survived : Nat}
    (hrecord : Recorded codec config (.ready event)) (hother : ReadsBack codec config (.ready other))
    (hpos : 0 < survived) (hpart : survived < (codec.line (.ready other)).length) :
    readJournal codec config [] (codec.line (.ready event) ++ (codec.line (.ready other)).take survived) =
      none := by
  have hinside : (codec.line (.ready other)).take survived =
      (codec.frameJson (.ready other) (codec.checksum (.ready other))).take survived := by
    unfold Codec.line at hpart ⊢
    rw [List.length_append, List.length_singleton] at hpart
    rw [List.take_append_of_le_length (Nat.lt_succ_iff.mp hpart)]
  have hline : 10 ∉ (codec.line (.ready other)).take survived := by
    rw [hinside]
    exact fun hin => hother.oneLine (List.mem_of_mem_take hin)
  have hrest : (codec.line (.ready other)).take survived ≠ [] := by
    rw [← List.length_pos_iff, List.length_take]
    omega
  have hlog := readJournal_append (fun payload hpayload => by
    rw [List.mem_singleton.mp hpayload]
    exact hrecord) [] ((codec.line (.ready other)).take survived)
  rw [List.flatMap_singleton] at hlog
  have hinvalid : decodeLine codec (readLine (config.maxEventBytes + 1024)
      ((codec.line (.ready other)).take survived)) = none :=
    decodeLine_eq_none fun hin => hline (List.mem_of_mem_take hin)
  rw [hlog, readJournal, dif_neg hrest]
  dsimp only
  rw [hinvalid]

theorem step_open_torn {bytes : List UInt8} {owed : List (MeteredEvent Usage)}
    (hbytes : readJournal codec config [] bytes = none) :
    (system codec config).step ⟨⟨⟨bytes, bytes⟩, [], []⟩, none, owed⟩ (uncut .open) =
      ⟨⟨⟨bytes, bytes⟩, [], []⟩, some ⟨[], false⟩, owed⟩ := by
  simp [system, uncut, Call.perform, openJournal, restoreIndexes, fileOp, bind_apply, pure_apply,
    step_none, modify_apply, observe_apply, Machine.onDisk, Disk.syncWal, Disk.syncDirectory,
    hbytes, Machine.unhealthy]

/-! ## The run -/

/-- Two requests, the second one's event cut off. -/
def cutRun (requestKey requestKey' : String) (event event' : MeteredEvent Usage)
    (survived : Nat) : List (Action Usage) :=
  [uncut .open, uncut (.reserve requestKey), uncut (.putReady event), uncut (.reserve requestKey'),
    cut survived event']

/-- What two requests with an event each have to fit in. -/
structure Fits (codec : Codec Usage) (config : UsageRecoveryConfig) (requestKey requestKey' : String)
    (event event' : MeteredEvent Usage) : Prop where
  first : Metered codec config requestKey event
  second : Metered codec config requestKey' event'
  distinct : event.eventKey ≠ event'.eventKey
  capacity : (codec.line (.ready event)).length + (codec.eventJson event).length +
    (config.maxEventBytes * 2 + 1024) ≤ config.maxBytes

variable {requestKey requestKey' : String} {event event' : MeteredEvent Usage}

theorem run_cutRun (h : Fits codec config requestKey requestKey' event event') (survived : Nat) :
    (system codec config).run (system codec config).init
        (cutRun requestKey requestKey' event event' survived) =
      ⟨⟨⟨codec.line (.ready event) ++ (codec.line (.ready event')).take survived,
        codec.line (.ready event) ++ (codec.line (.ready event')).take survived⟩, [], []⟩, none,
        [event]⟩ := by
  have hcapacity : config.maxEventBytes * 2 + 1024 ≤ config.maxBytes :=
    (Nat.le_add_left _ _).trans h.capacity
  unfold cutRun
  rw [TSys.run_cons, TSys.run_cons, TSys.run_cons, TSys.run_cons, TSys.run_cons, TSys.run_nil,
    step_open, step_reserve_idle hcapacity, step_putReady_idle h.first,
    step_reserve_accepted h.capacity, step_cut survived h.second h.distinct]

/-- The accepted event has no index file after the journal was opened again. -/
theorem not_replayable_of_torn (h : Fits codec config requestKey requestKey' event event')
    {survived : Nat} (hpos : 0 < survived)
    (hpart : survived < (codec.line (.ready event')).length) :
    ¬ Replayable codec config ((system codec config).run (system codec config).init
      (cutRun requestKey requestKey' event event' survived ++ [uncut .open])) := by
  have hrecord : Recorded codec config (.ready event) :=
    ⟨h.first.back, fun _ heq => JournalRecord.ready.inj heq ▸ h.first.toAcceptable⟩
  intro hreplayable
  rw [TSys.run_append, run_cutRun h, TSys.run_cons, TSys.run_nil,
    step_open_torn (readJournal_torn hrecord h.second.back hpos hpart)] at hreplayable
  obtain ⟨bytes, hread, _⟩ := hreplayable event (List.mem_singleton.mpr rfl)
  exact absurd hread (by simp [Disk.read])

end Conduit.UsageRecovery
