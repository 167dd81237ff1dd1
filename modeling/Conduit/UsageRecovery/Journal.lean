import Mathlib
import Conduit.Base.Crash
import Conduit.Base.TSys

/-!
# The usage journal

A metering event is accepted when its record is synced to the append log
`journal.wal`. The `.ready` files are an index of the accepted events that are
not acknowledged yet; opening the journal rebuilds them from the log.

File operations succeed unless the machine crashes. The file system keeps the
synced content of the log; of what was written since, a crash keeps some of
it, and of an index file that was touched since the directory was synced it
may leave anything.
-/

namespace Conduit.UsageRecovery

open Base

structure UsageRecoveryConfig where
  maxBytes : Nat
  maxEventBytes : Nat
  replayBatchSize : Nat

/-! ## Records -/

/-- The usage of an event is not looked into. -/
structure MeteredEvent (Usage : Type) where
  version : Nat
  eventKey : String
  reservationKey : Option String
  usage : Usage
deriving DecidableEq

inductive JournalRecord (Usage : Type)
  | ready (event : MeteredEvent Usage)
  | ack (key : String)
deriving DecidableEq

/-- What the journal uses of `serde_json` and `sha2`. -/
structure Codec (Usage : Type) where
  /-- `serde_json::to_vec` of a record. -/
  recordJson : JournalRecord Usage → List UInt8
  /-- `serde_json::to_vec` of a frame: a record with its checksum. -/
  frameJson : JournalRecord Usage → String → List UInt8
  /-- `serde_json::from_slice` of a frame. -/
  readFrame : List UInt8 → Option (JournalRecord Usage × String)
  eventJson : MeteredEvent Usage → List UInt8
  readEvent : List UInt8 → Option (MeteredEvent Usage)
  /-- A digest in hexadecimal. -/
  sha256 : List UInt8 → String

variable {Usage : Type}

def validKey (key : String) : Bool :=
  key.toList.length == 64 && key.toList.all fun c =>
    c.isDigit || ('a' ≤ c && c ≤ 'f') || ('A' ≤ c && c ≤ 'F')

def Codec.checksum (codec : Codec Usage) (payload : JournalRecord Usage) : String :=
  codec.sha256 (codec.recordJson payload)

/-- The line that `append` writes. -/
def Codec.line (codec : Codec Usage) (payload : JournalRecord Usage) : List UInt8 :=
  codec.frameJson payload (codec.checksum payload) ++ [10]

def Codec.eventKey (codec : Codec Usage) (requestKey : String) : String :=
  codec.sha256 (("usage:v1:api:" ++ requestKey).toList.flatMap String.utf8EncodeChar)

/-! ## The disk -/

inductive IndexFile
  | ready (key : String)
  | tmp (key : String)
  | quarantine (key : String)
deriving DecidableEq

/-- The log as it is on the disk and as it is read. -/
structure Wal where
  synced : List UInt8
  visible : List UInt8

structure Disk where
  wal : Wal
  files : List (IndexFile × List UInt8)
  /-- The files that were touched since the directory was synced. -/
  dirty : List IndexFile

namespace Disk

def read (disk : Disk) (name : IndexFile) : Option (List UInt8) := disk.files.lookup name

def appendWal (bytes : List UInt8) (disk : Disk) : Disk :=
  { disk with wal := { disk.wal with visible := disk.wal.visible ++ bytes } }

/-- `set_len(0)`. -/
def truncateWal (disk : Disk) : Disk := { disk with wal := { disk.wal with visible := [] } }

def syncWal (disk : Disk) : Disk := { disk with wal := ⟨disk.wal.visible, disk.wal.visible⟩ }

def syncDirectory (disk : Disk) : Disk := { disk with dirty := [] }

def remove (name : IndexFile) (disk : Disk) : Disk :=
  { disk with
    files := disk.files.filter fun entry => entry.1 ≠ name
    dirty := name :: disk.dirty }

/-- Creates or overwrites a file. -/
def write (name : IndexFile) (bytes : List UInt8) (disk : Disk) : Disk :=
  { disk with
    files := (name, bytes) :: disk.files.filter fun entry => entry.1 ≠ name
    dirty := name :: disk.dirty }

def rename (old new : IndexFile) (disk : Disk) : Disk :=
  match disk.read old with
  | some bytes => write new bytes (remove old disk)
  | none => disk

/-- The disk after a crash: `survived` bytes of what was appended to the log
since it was synced are left, or the old log if it was truncated and nothing
survived; the touched files are as in `files`. -/
def crash (survived : Nat) (files : List (IndexFile × List UInt8)) (disk : Disk) : Disk :=
  let left :=
    if disk.wal.synced <+: disk.wal.visible then
      disk.wal.visible.take (disk.wal.synced.length + survived)
    else if survived = 0 then disk.wal.synced
    else disk.wal.visible
  { wal := ⟨left, left⟩
    files := (disk.files.filter fun entry => entry.1 ∉ disk.dirty) ++
      files.filter fun entry => entry.1 ∈ disk.dirty
    dirty := [] }

end Disk

/-! ## The machine -/

structure JournalState where
  reserved : List String
  healthy : Bool

/-- The disk, the journal while it is open, and the events that were accepted
and not acknowledged. -/
structure Machine (Usage : Type) where
  disk : Disk
  journal : Option JournalState
  owed : List (MeteredEvent Usage)

namespace Machine

variable (m : Machine Usage)

def state : JournalState := m.journal.getD ⟨[], false⟩

def onDisk (f : Disk → Disk) : Machine Usage := { m with disk := f m.disk }

def unhealthy : Machine Usage :=
  { m with journal := m.journal.map fun state => { state with healthy := false } }

def setReserved (f : List String → List String) : Machine Usage :=
  { m with journal := m.journal.map fun state => { state with reserved := f state.reserved } }

def accept (event : MeteredEvent Usage) : Machine Usage := { m with owed := event :: m.owed }

def forget (key : String) : Machine Usage :=
  { m with owed := m.owed.filter fun event => event.eventKey ≠ key }

end Machine

/-- A file operation: a crash may come before it. -/
def fileOp (f : Disk → Disk) : Crashing (Machine Usage) Unit := Crashing.step fun m => m.onDisk f

/-! ## Opening -/

/-- What `take(limit).read_until(b'\n')` reads. -/
def readLine (limit : Nat) (bytes : List UInt8) : List UInt8 :=
  bytes.take (min limit ((bytes.takeWhile (· != 10)).length + 1))

def decodeLine (codec : Codec Usage) (line : List UInt8) : Option (JournalRecord Usage) :=
  if line.getLast? = some 10 then
    (codec.readFrame line).bind fun (payload, checksum) =>
      if checksum = codec.checksum payload then some payload else none
  else none

/-- `pending.insert`. -/
def insertPending (event : MeteredEvent Usage) (pending : List (MeteredEvent Usage)) :
    List (MeteredEvent Usage) :=
  pending.filter (fun other => other.eventKey ≠ event.eventKey) ++ [event]

def removePending (key : String) (pending : List (MeteredEvent Usage)) :
    List (MeteredEvent Usage) :=
  pending.filter fun other => other.eventKey ≠ key

theorem drop_readLine_lt (limit : Nat) {bytes : List UInt8} (h : bytes ≠ []) :
    (bytes.drop (readLine (limit + 1024) bytes).length).length < bytes.length := by
  have hpos : 0 < bytes.length := List.length_pos_iff.mpr h
  unfold readLine
  rw [List.length_drop, List.length_take]
  omega

/-- The records of the log, applied in order; `none` at an invalid one. -/
def readJournal (codec : Codec Usage) (config : UsageRecoveryConfig)
    (pending : List (MeteredEvent Usage)) (bytes : List UInt8) :
    Option (List (MeteredEvent Usage)) :=
  if _hempty : bytes = [] then some pending
  else
    let line := readLine (config.maxEventBytes + 1024) bytes
    match decodeLine codec line with
    | none => none
    | some (.ready event) =>
        if event.version ≠ 1 || !validKey event.eventKey then none
        else readJournal codec config (insertPending event pending) (bytes.drop line.length)
    | some (.ack key) =>
        readJournal codec config (removePending key pending) (bytes.drop line.length)
termination_by bytes.length
decreasing_by all_goals exact drop_readLine_lt config.maxEventBytes _hempty

/-- The first pass over the directory. -/
def removeStale (pending : List (MeteredEvent Usage)) :
    List IndexFile → Crashing (Machine Usage) Unit
  | [] => pure ()
  | .quarantine _ :: names => do
      Crashing.modify Machine.unhealthy
      removeStale pending names
  | .tmp key :: names => do
      fileOp (Disk.remove (.tmp key))
      removeStale pending names
  | .ready key :: names =>
      if pending.any fun event => event.eventKey = key then removeStale pending names
      else do
        fileOp (Disk.remove (.ready key))
        removeStale pending names

/-- The second pass: one index file for each pending event. -/
def writeIndexes (codec : Codec Usage) (config : UsageRecoveryConfig) :
    List (MeteredEvent Usage) → Crashing (Machine Usage) Unit
  | [] => pure ()
  | event :: events =>
      if config.maxEventBytes < (codec.eventJson event).length then
        Crashing.modify Machine.unhealthy
      else do
        fileOp (Disk.write (.ready event.eventKey) [])
        fileOp (Disk.write (.ready event.eventKey) (codec.eventJson event))
        writeIndexes codec config events

def restoreIndexes (codec : Codec Usage) (config : UsageRecoveryConfig) :
    Crashing (Machine Usage) Unit := do
  fileOp Disk.syncWal
  fileOp Disk.syncDirectory
  let bytes ← Crashing.observe fun m => m.disk.wal.visible
  match readJournal codec config [] bytes with
  | none => Crashing.modify Machine.unhealthy
  | some pending => do
      let names ← Crashing.observe fun m => m.disk.files.map Prod.fst
      removeStale pending names
      writeIndexes codec config (pending.mergeSort fun a b => a.eventKey ≤ b.eventKey)

/-- `UsageJournal::open`. -/
def openJournal (codec : Codec Usage) (config : UsageRecoveryConfig) :
    Crashing (Machine Usage) (Except String Unit) := do
  let locked ← Crashing.observe fun m : Machine Usage => m.journal.isSome
  if locked then pure (.error "usage journal directory is already owned by another process")
  else do
    Crashing.modify fun m => { m with journal := some ⟨[], true⟩ }
    restoreIndexes codec config
    pure (.ok ())

/-! ## Admission -/

/-- Saturation at `u64::MAX`. -/
def satU64 (n : Nat) : Nat := min n (UInt64.size - 1)

def diskBytes (disk : Disk) : Nat :=
  satU64 (disk.wal.visible.length + (disk.files.map fun entry => entry.2.length).sum)

/-- What `reserve` asks for: the disk as it is and room for every reservation. -/
def requiredBytes (config : UsageRecoveryConfig) (m : Machine Usage) : Nat :=
  satU64 (diskBytes m.disk +
    satU64 ((m.state.reserved.length + 1) * satU64 (satU64 (config.maxEventBytes * 2) + 1024)))

/-- The log is emptied when nothing is reserved and nothing is indexed. -/
def truncateIdle (m : Machine Usage) : Crashing (Machine Usage) Unit :=
  if m.state.reserved.isEmpty && m.disk.files.isEmpty then do
    fileOp Disk.truncateWal
    fileOp Disk.syncWal
  else pure ()

def reserve (codec : Codec Usage) (config : UsageRecoveryConfig) (requestKey : String) :
    Crashing (Machine Usage) (Except String Unit) := do
  let m ← Crashing.observe id
  let key := codec.eventKey requestKey
  if !m.state.healthy then pure (.error "usage journal is unhealthy; admission stopped")
  else if m.state.reserved.contains key then pure (.ok ())
  else do
    truncateIdle m
    let m ← Crashing.observe id
    if config.maxBytes < requiredBytes config m then
      pure (.error "usage journal capacity exhausted; admission stopped")
    else do
      Crashing.modify fun m => m.setReserved (key :: ·)
      pure (.ok ())

def release (codec : Codec Usage) (requestKey : String) : Crashing (Machine Usage) Unit :=
  Crashing.modify fun m => m.setReserved fun reserved => reserved.filter (· ≠ codec.eventKey requestKey)

/-! ## Events -/

def append (codec : Codec Usage) (payload : JournalRecord Usage) : Crashing (Machine Usage) Unit := do
  fileOp (Disk.appendWal (codec.line payload))
  fileOp Disk.syncWal

def writeEvent (codec : Codec Usage) (config : UsageRecoveryConfig) (event : MeteredEvent Usage) :
    Crashing (Machine Usage) (Except String Unit) := do
  let m ← Crashing.observe id
  let key := event.eventKey
  let unreserve := Crashing.modify fun m : Machine Usage =>
    m.setReserved fun reserved => reserved.filter (· ≠ key)
  if !validKey key || event.version ≠ 1 then pure (.error "invalid metering event identity")
  else if config.maxEventBytes < (codec.eventJson event).length then
    pure (.error "metering event exceeds reserved budget")
  else
    match m.disk.read (.ready key) with
    | some bytes =>
        if bytes ≠ codec.eventJson event then pure (.error "metering event key/payload conflict")
        else do
          unreserve
          pure (.ok ())
    | none =>
        if !m.state.reserved.contains key then
          pure (.error "metering event has no admission reservation")
        else do
          append codec (.ready event)
          let m ← Crashing.observe id
          -- `create_new`
          if (m.disk.read (.tmp key)).isSome then pure (.error "file exists")
          else do
            fileOp (Disk.write (.tmp key) [])
            fileOp (Disk.write (.tmp key) (codec.eventJson event))
            fileOp (Disk.rename (.tmp key) (.ready key))
            unreserve
            pure (.ok ())

def putReady (codec : Codec Usage) (config : UsageRecoveryConfig) (event : MeteredEvent Usage) :
    Crashing (Machine Usage) (Except String Unit) := do
  let result ← writeEvent codec config event
  match result with
  | .error error => do
      Crashing.modify Machine.unhealthy
      pure (.error error)
  | .ok () => do
      Crashing.modify fun m => m.accept event
      pure (.ok ())

/-- From here on the event counts as acknowledged. -/
def ack (codec : Codec Usage) (key : String) : Crashing (Machine Usage) (Except String Unit) := do
  if !validKey key then pure (.error "invalid journal acknowledgement")
  else do
    Crashing.modify fun m => m.forget key
    let m ← Crashing.observe id
    if (m.disk.read (.ready key)).isNone then pure (.ok ())
    else do
      append codec (.ack key)
      fileOp (Disk.remove (.ready key))
      pure (.ok ())

/-! ## Replay -/

def readReady (codec : Codec Usage) (config : UsageRecoveryConfig) (key : String)
    (bytes : List UInt8) : Except String (MeteredEvent Usage) :=
  if config.maxEventBytes < bytes.length then .error "oversized journal file"
  else
    match codec.readEvent bytes with
    | none => .error "invalid event"
    | some event =>
        if event.version ≠ 1 || !validKey event.eventKey || key ≠ event.eventKey then
          .error "journal identity mismatch"
        else .ok event

/-- Errors of the handoff that more replays do not help. -/
def isConflict (error : String) : Bool :=
  decide ("payload conflict".toList <:+: error.toList) ||
    decide ("manual reconciliation".toList <:+: error.toList)

def quarantine (key : String) : Crashing (Machine Usage) Unit := do
  fileOp (Disk.rename (.ready key) (.quarantine key))
  Crashing.modify Machine.unhealthy

def quarantineConflict (key error : String) : Crashing (Machine Usage) Unit :=
  if isConflict error then quarantine key else pure ()

/-- The loop of `replay`; `handoff` is what the database answers. -/
def replayKeys (codec : Codec Usage) (config : UsageRecoveryConfig)
    (handoff : MeteredEvent Usage → Except String Unit) :
    List String → Nat → Crashing (Machine Usage) (Except String Nat)
  | [], done => pure (.ok done)
  | key :: keys, done => do
      let file ← Crashing.observe fun m => m.disk.read (.ready key)
      match file with
      | none => replayKeys codec config handoff keys done
      | some bytes =>
          match readReady codec config key bytes with
          | .error error => do
              quarantine key
              pure (.error error)
          | .ok event =>
              match handoff event with
              | .error error => do
                  quarantineConflict key error
                  pure (.error error)
              | .ok () => do
                  let acked ← ack codec event.eventKey
                  match acked with
                  | .error error => pure (.error error)
                  | .ok () => replayKeys codec config handoff keys (done + 1)

def readyKeys (disk : Disk) : List String :=
  disk.files.filterMap fun entry =>
    match entry.1 with
    | .ready key => some key
    | _ => none

def replay (codec : Codec Usage) (config : UsageRecoveryConfig)
    (handoff : MeteredEvent Usage → Except String Unit) :
    Crashing (Machine Usage) (Except String Nat) := do
  let m ← Crashing.observe id
  let keys := (readyKeys m.disk).mergeSort fun a b => a ≤ b
  replayKeys codec config handoff (keys.take config.replayBatchSize) 0

/-! ## Runs -/

inductive Call (Usage : Type)
  | open
  | reserve (requestKey : String)
  | release (requestKey : String)
  | putReady (event : MeteredEvent Usage)
  | ack (key : String)
  | replay (handoff : MeteredEvent Usage → Except String Unit)

/-- A call on an open journal. -/
def onOpen {α : Type} (t : Crashing (Machine Usage) α) : Crashing (Machine Usage) Unit := do
  let running ← Crashing.observe fun m : Machine Usage => m.journal.isSome
  if running then do
    let _ ← t
    pure ()
  else pure ()

def Call.perform (codec : Codec Usage) (config : UsageRecoveryConfig) :
    Call Usage → Crashing (Machine Usage) Unit
  | .open => do
      let _ ← openJournal codec config
      pure ()
  | .reserve requestKey => onOpen (UsageRecovery.reserve codec config requestKey)
  | .release requestKey => onOpen (UsageRecovery.release codec requestKey)
  | .putReady event => onOpen (UsageRecovery.putReady codec config event)
  | .ack key => onOpen (UsageRecovery.ack codec key)
  | .replay handoff => onOpen (UsageRecovery.replay codec config handoff)

/-- A call, and the crash that cuts it off or follows it: after how many file
operations it comes, if at all, and what it leaves. -/
structure Action (Usage : Type) where
  call : Call Usage
  left : Option Nat
  survived : Nat
  files : List (IndexFile × List UInt8)

namespace Machine

def crash (survived : Nat) (files : List (IndexFile × List UInt8)) (m : Machine Usage) :
    Machine Usage :=
  { m with disk := m.disk.crash survived files, journal := none }

end Machine

/-- Runs of the journal on a disk without one. -/
def system (codec : Codec Usage) (config : UsageRecoveryConfig) :
    TSys (Machine Usage) (Action Usage) where
  init := ⟨⟨⟨[], []⟩, [], []⟩, none, []⟩
  step m a :=
    match a.call.perform codec config m a.left with
    | .returned _ m none => m
    | .returned _ m (some _) | .crashed m => m.crash a.survived a.files

end Conduit.UsageRecovery
