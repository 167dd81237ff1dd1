import Conduit.Billing.Outbox
import Conduit.UsageRecovery.Journal

/-!
# The metering handoff

`handoff` brings an event of the journal into PostgreSQL in one transaction: a
receipt for its key, a usage log, an outbox row and the link from the receipt
to the usage log. The recorder that accepted the event hands it over, and so
does every replay that finds its index file, on this process or on another one
with the same database. Beside them run the settlement tasks and the retention
of usage logs.

A transaction is one step. A crash takes the journal and all tasks with it; it
may come before or after every step, and inside of the file operations.
-/

namespace Conduit.UsageRecovery

open Base Base.Transaction
open Billing (Calendar Db Instant OutboxRow Settler UsageLog WalletStatus)

/-! ## Tables -/

/-- `usage_recovery_receipts`, whose primary key is the event key. -/
structure Receipt where
  eventKey : String
  payloadHash : String
  usageLogId : Option Int
deriving DecidableEq, Repr

/-- What the handoff uses of a `CreateUsageLogInput`. -/
structure UsageInput (Usage : Type) where
  /-- `row_from_input` and the columns of the insert; the id is given by the table. -/
  usageLog : Usage → Except String UsageLog
  /-- `request_id.parse::<i64>()`. -/
  requestId : Usage → Except String Int

structure Ledger (Usage : Type) where
  receipts : Table Receipt
  /-- The usage logs, the outbox and the billing tables. -/
  settler : Settler
  /-- The next id of `usage_logs`, a `BIGSERIAL`. -/
  serial : Int
  /-- The requests with `metering_pending`. -/
  meteringPending : List Int
  /-- The usage logs that handoffs inserted, with their event keys. -/
  metered : List (String × Int)
  /-- The events of the handoffs that committed. -/
  handedOff : List (MeteredEvent Usage)

namespace Ledger

variable {Usage : Type} (l : Ledger Usage)

def receipt (key : String) : Option Receipt := l.receipts.find? fun row => row.eventKey == key

/-- `ON CONFLICT DO NOTHING`. -/
def insertReceipt (key hash : String) : Ledger Usage :=
  if (l.receipt key).isSome then l
  else { l with receipts := l.receipts.insertRow ⟨key, hash, none⟩ }

def usageExists (id : Int) : Bool := (l.settler.findById id).isSome

def insertUsage (key : String) (log : UsageLog) : Ledger Usage :=
  { l with
    settler := l.settler.record { log with id := l.serial }
    serial := l.serial + 1
    metered := l.metered ++ [(key, l.serial)] }

def insertOutbox (id : Int) (reservationKey : Option String) (now : Instant) : Ledger Usage :=
  { l with settler := l.settler.insertOutbox id reservationKey now }

def setUsageLog (key : String) (id : Int) : Ledger Usage :=
  { l with
    receipts := l.receipts.updateWhere (fun row => row.eventKey == key)
      fun row => { row with usageLogId := some id } }

def clearMeteringPending (requestId : Int) : Ledger Usage :=
  { l with meteringPending := l.meteringPending.filter fun id => id ≠ requestId }

/-- The commit of a handoff. -/
def close (event : MeteredEvent Usage) : Ledger Usage :=
  { l with handedOff := event :: l.handedOff }

end Ledger

/-! ## The transaction -/

/-- With what a handoff commits; an existing row is then read again. -/
inductive Handed
  | inserted (id : Int)
  | existing (id : Int)
deriving DecidableEq, Repr

variable {Usage : Type}

def Codec.payloadHash (codec : Codec Usage) (event : MeteredEvent Usage) : String :=
  codec.sha256 (codec.eventJson event)

def handoff (codec : Codec Usage) (input : UsageInput Usage) (now : Instant)
    (event : MeteredEvent Usage) : Transaction (Ledger Usage) String Handed := do
  write fun l => l.insertReceipt event.eventKey (codec.payloadHash event)
  let l ← read
  let receipt ← orAbort (l.receipt event.eventKey)
    "no rows returned by a query that expected to return at least one row"
  require (receipt.payloadHash = codec.payloadHash event) "usage receipt payload conflict"
  match receipt.usageLogId with
  | some id => do
      require (l.usageExists id ∨ l.settler.outboxCompleted id)
        ("usage receipt has no usage or completed settlement fence; " ++
          "manual reconciliation required")
      let requestId ← attempt (input.requestId event.usage)
      write fun l => l.clearMeteringPending requestId
      write fun l => l.close event
      pure (.existing id)
  | none => do
      let log ← attempt (input.usageLog event.usage)
      write fun l => l.insertUsage event.eventKey log
      write fun l' => l'.insertOutbox l.serial event.reservationKey now
      write fun l' => l'.setUsageLog event.eventKey l.serial
      let requestId ← attempt (input.requestId event.usage)
      write fun l => l.clearMeteringPending requestId
      write fun l => l.close event
      pure (.inserted l.serial)

/-! ## Tasks -/

/-- On whose behalf an event is handed over: the recorder that accepted it, or
a replay that has these keys left. -/
inductive Origin
  | live
  | replay (keys : List String) (done : Nat)
deriving DecidableEq, Repr

/-- What a task does next. -/
inductive RecoveryTask (Usage : Type)
  | handoff (event : MeteredEvent Usage) (origin : Origin)
  /-- `find_by_id` after the commit. -/
  | find (event : MeteredEvent Usage) (id : Int) (origin : Origin)
  | ack (event : MeteredEvent Usage) (origin : Origin)
  /-- The loop of `replay`. -/
  | next (keys : List String) (done : Nat)

/-- How a statement or a transaction ends: answered, not executed, or executed
with the answer lost. -/
inductive Reply
  | answered
  | refused (error : String)
  | unanswered (error : String)

/-- Where a crash cuts off the file operations of a step, if it does, and what
it leaves. -/
structure Cut where
  left : Option Nat
  survived : Nat
  files : List (IndexFile × List UInt8)

structure Recovery (Usage : Type) where
  machine : Machine Usage
  ledger : Ledger Usage
  tasks : List (RecoveryTask Usage)

/-- What `replay` does with the index file after an error of the handoff. The
file may have been acknowledged in the meantime. -/
def quarantineFailed (key error : String) : Crashing (Machine Usage) Unit := do
  let file ← Crashing.observe fun m : Machine Usage => m.disk.read (.ready key)
  if file.isNone then pure () else quarantineConflict key error

namespace Recovery

variable (σ : Recovery Usage)

def crash (survived : Nat) (files : List (IndexFile × List UInt8)) : Recovery Usage :=
  { σ with machine := σ.machine.crash survived files, tasks := [] }

/-- A call on the journal, after which the tasks are `next`. -/
def onJournal {α : Type} (t : Crashing (Machine Usage) α) (cut : Cut)
    (next : α → List (RecoveryTask Usage)) : Recovery Usage :=
  match t σ.machine cut.left with
  | .returned a m none => { σ with machine := m, tasks := next a }
  | .returned _ m (some _) | .crashed m =>
      ({ σ with machine := m } : Recovery Usage).crash cut.survived cut.files

/-- The recorder defers the handoff; the replay is over. -/
def handoffFailed (i : Nat) (event : MeteredEvent Usage) (error : String) (cut : Cut) :
    Origin → Recovery Usage
  | .live => { σ with tasks := σ.tasks.eraseIdx i }
  | .replay _ _ =>
      σ.onJournal (quarantineFailed event.eventKey error) cut fun _ => σ.tasks.eraseIdx i

def runHandoff (codec : Codec Usage) (input : UsageInput Usage) (i : Nat)
    (event : MeteredEvent Usage) (origin : Origin) (now : Instant) (reply : Reply) (cut : Cut) :
    Recovery Usage :=
  match reply, UsageRecovery.handoff codec input now event σ.ledger with
  | .refused error, _ => σ.handoffFailed i event error cut origin
  | _, .error error => σ.handoffFailed i event error cut origin
  | .answered, .ok (.inserted _, ledger) =>
      { σ with ledger, tasks := σ.tasks.set i (.ack event origin) }
  | .answered, .ok (.existing id, ledger) =>
      { σ with ledger, tasks := σ.tasks.set i (.find event id origin) }
  | .unanswered error, .ok (_, ledger) =>
      ({ σ with ledger } : Recovery Usage).handoffFailed i event error cut origin

/-- One step of a task. -/
def execute (codec : Codec Usage) (config : UsageRecoveryConfig) (input : UsageInput Usage)
    (i : Nat) (now : Instant) (reply : Reply) (cut : Cut) : RecoveryTask Usage → Recovery Usage
  | .handoff event origin => σ.runHandoff codec input i event origin now reply cut
  | .find event _ origin =>
      match reply with
      | .answered => { σ with tasks := σ.tasks.set i (.ack event origin) }
      | .refused error | .unanswered error => σ.handoffFailed i event error cut origin
  | .ack event origin =>
      σ.onJournal (UsageRecovery.ack codec event.eventKey) cut fun result =>
        match origin, result with
        | .replay keys done, .ok () => σ.tasks.set i (.next keys (done + 1))
        | _, _ => σ.tasks.eraseIdx i
  | .next [] _ => { σ with tasks := σ.tasks.eraseIdx i }
  | .next (key :: keys) done =>
      match σ.machine.disk.read (.ready key) with
      | none => { σ with tasks := σ.tasks.set i (.next keys done) }
      | some bytes =>
          match readReady codec config key bytes with
          | .error _ => σ.onJournal (quarantine key) cut fun _ => σ.tasks.eraseIdx i
          | .ok event => { σ with tasks := σ.tasks.set i (.handoff event (.replay keys done)) }

/-! ## Retention -/

/-- `delete_created_at_in_batches` on `usage_logs`: a batch of the logs that are
older than the cutoff and have no outbox row that is not completed. -/
def retain (cutoff : Instant) (batch : Nat) : Recovery Usage :=
  let doomed := (((σ.ledger.settler.usageLogs.filter fun log =>
    decide (log.createdAt < cutoff) && !σ.ledger.settler.outbox.any fun row =>
      row.usageLogId == log.id && row.status != .completed).insertionSort
        fun x y => x.id ≤ y.id).take batch).map UsageLog.id
  { σ with
    ledger := { σ.ledger with
      settler := { σ.ledger.settler with
        usageLogs := σ.ledger.settler.usageLogs.filter fun log => log.id ∉ doomed } } }

/-! ## The system -/

inductive Action (Usage : Type)
  | open (cut : Cut)
  | reserve (requestKey : String) (cut : Cut)
  | release (requestKey : String) (cut : Cut)
  /-- The journal branch of `record_success`, up to the handoff. -/
  | record (event : MeteredEvent Usage) (cut : Cut)
  | replay
  | execute (task : Nat) (now : Instant) (reply : Reply) (cut : Cut)
  | dropTask (task : Nat)
  | crash (survived : Nat) (files : List (IndexFile × List UInt8))
  /-- A handoff by another process. -/
  | handoff (event : MeteredEvent Usage) (now : Instant)
  /-- A usage log that does not come from a metering event. -/
  | insertUsage (log : UsageLog)
  /-- An id of `usage_logs` goes to an insert that is rolled back. -/
  | skipId
  | settle (action : Settler.Action)
  | retain (cutoff : Instant) (batch : Nat)

/-- The settlement tasks and the billing operations; usage logs are inserted by
the actions above. -/
def settle (cal : Calendar) : Settler.Action → Recovery Usage
  | .record _ | .handoff _ _ _ => σ
  | action => { σ with ledger := { σ.ledger with settler := σ.ledger.settler.step cal action } }

def step (codec : Codec Usage) (config : UsageRecoveryConfig) (input : UsageInput Usage)
    (cal : Calendar) (σ : Recovery Usage) : Action Usage → Recovery Usage
  | .open cut => σ.onJournal (openJournal codec config) cut fun _ => σ.tasks
  | .reserve requestKey cut =>
      σ.onJournal (onOpen (UsageRecovery.reserve codec config requestKey)) cut fun _ => σ.tasks
  | .release requestKey cut =>
      σ.onJournal (onOpen (UsageRecovery.release codec requestKey)) cut fun _ => σ.tasks
  | .record event cut =>
      if σ.machine.journal.isSome then
        σ.onJournal (putReady codec config event) cut fun result =>
          match result with
          | .ok () => σ.tasks ++ [.handoff event .live]
          | .error _ => σ.tasks
      else σ
  | .replay =>
      if σ.machine.journal.isSome then
        let keys := (readyKeys σ.machine.disk).mergeSort fun a b => a ≤ b
        { σ with tasks := σ.tasks ++ [.next (keys.take config.replayBatchSize) 0] }
      else σ
  | .execute i now reply cut =>
      match σ.tasks[i]? with
      | none => σ
      | some task => σ.execute codec config input i now reply cut task
  | .dropTask i => { σ with tasks := σ.tasks.eraseIdx i }
  | .crash survived files => σ.crash survived files
  | .handoff event now =>
      { σ with ledger := (UsageRecovery.handoff codec input now event).commit σ.ledger }
  | .insertUsage log =>
      { σ with
        ledger := { σ.ledger with
          settler := σ.ledger.settler.record { log with id := σ.ledger.serial }
          serial := σ.ledger.serial + 1 } }
  | .skipId => { σ with ledger := { σ.ledger with serial := σ.ledger.serial + 1 } }
  | .settle action => σ.settle cal action
  | .retain cutoff batch => σ.retain cutoff batch

end Recovery

/-- The journal of a process, the database, and everyone who works on them. -/
def recovering (codec : Codec Usage) (config : UsageRecoveryConfig) (input : UsageInput Usage)
    (cal : Calendar) (projects : List (Int × WalletStatus)) :
    TSys (Recovery Usage) (Recovery.Action Usage) where
  init := ⟨⟨⟨⟨[], []⟩, [], []⟩, none, []⟩,
    ⟨[], ⟨Db.fresh projects, [], [], [], []⟩, 1, [], [], []⟩, []⟩
  step := Recovery.step codec config input cal

end Conduit.UsageRecovery
