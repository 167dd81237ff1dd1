import Conduit.Billing.System

/-!
# The settlement outbox

Who settles a usage log, and when: the caller that recorded it, a worker that
got it from the queue, or the reconciler. Each is a task that executes one
statement or transaction at a time, so a run interleaves any number of tasks
with each other and with the other billing operations. A task or a queued job
can vanish at any point, which is what a crash does to all of a process's
tasks and jobs; only the tables survive. A statement can fail before it takes
effect or, when the answer is lost, after it.
-/

namespace Conduit.Billing

open Base Transaction

/-! ## Tables and jobs -/

inductive OutboxStatus
  | pending
  | completed
  | failed
deriving DecidableEq, Repr

/-- `usage_charge_outbox`: at most one row for each usage log. -/
structure OutboxRow where
  usageLogId : Int
  reservationKey : Option String
  status : OutboxStatus
  attempts : Nat
  lastError : Option TxError
  availableAt : Instant
deriving DecidableEq, Repr

def OutboxRow.new (usageLogId : Int) (reservationKey : Option String) (now : Instant) : OutboxRow where
  usageLogId
  reservationKey
  status := .pending
  attempts := 0
  lastError := none
  availableAt := now

def OutboxRow.retried (row : OutboxRow) (error : TxError) (now : Instant) : OutboxRow :=
  { row with
    status := if 20 ≤ row.attempts + 1 then .failed else .pending
    attempts := row.attempts + 1
    lastError := some error
    availableAt := now + 5000000 }

structure SettlementJob where
  log : UsageLog
  reservationKey : Option String
deriving DecidableEq, Repr

/-- A pass of `reconcile_missing` over the rows that it fetched. -/
structure Pass where
  limit : Nat
  pending : List (Int × Option String)
  repaired : Nat
deriving DecidableEq, Repr

/-- Who waits for a settlement or a mark. -/
inductive Caller
  | live
  | worker
  | reconciler (rest : Pass)
  | repair (ids : List Int)
deriving DecidableEq, Repr

/-- What a task does next. -/
inductive Task
  | persist (job : SettlementJob)
  | send (job : SettlementJob)
  | settle (job : SettlementJob) (caller : Caller)
  | complete (usageLogId : Int) (caller : Caller)
  | fail (usageLogId : Int) (error : TxError) (caller : Caller)
  | reconcile (pass : Pass)
  | repair (ids : List Int)
deriving DecidableEq, Repr

structure Settler where
  db : Db
  usageLogs : List UsageLog
  outbox : Table OutboxRow
  queue : List SettlementJob
  tasks : List Task
deriving DecidableEq, Repr

namespace Settler

variable (σ : Settler)

def findById (usageLogId : Int) : Option UsageLog :=
  σ.usageLogs.find? fun log => log.id == usageLogId

def outboxRow (usageLogId : Int) : Option (Nat × OutboxRow) :=
  σ.outbox.selectOne fun row => row.usageLogId == usageLogId

/-! ## Statements on the outbox -/

/-- The upsert of `persist_outbox`. -/
def persistOutbox (usageLogId : Int) (reservationKey : Option String) (now : Instant) : Settler :=
  match σ.outboxRow usageLogId with
  | some (i, _) =>
      { σ with
        outbox := σ.outbox.updateRow i fun row =>
          { row with reservationKey := row.reservationKey <|> reservationKey } }
  | none => { σ with outbox := σ.outbox.insertRow (OutboxRow.new usageLogId reservationKey now) }

/-- The row it returns is `completed`. -/
def outboxCompleted (usageLogId : Int) : Bool :=
  match σ.outboxRow usageLogId with
  | some (_, row) => row.status == .completed
  | none => false

def markOutboxCompleted (usageLogId : Int) : Settler :=
  { σ with
    outbox := σ.outbox.updateWhere (fun row => row.usageLogId == usageLogId)
      fun row => { row with status := .completed, lastError := none } }

def markOutboxFailed (usageLogId : Int) (error : TxError) (now : Instant) : Settler :=
  { σ with
    outbox := σ.outbox.updateWhere
      (fun row => row.usageLogId == usageLogId && row.status != .completed)
      fun row => row.retried error now }

/-! ## The reconciler -/

/-- The rows that a pass fetches. -/
def pendingOutbox (limit : Nat) (now : Instant) : List (Int × Option String) :=
  (((σ.outbox.filter fun row => row.status == .pending && row.availableAt ≤ now).insertionSort
    (fun x y => x.usageLogId ≤ y.usageLogId)).take limit).map
      fun row => (row.usageLogId, row.reservationKey)

/-- Usage logs that are sixteen minutes old and have neither event nor row. -/
def missingOutbox (limit : Nat) (now : Instant) : List Int :=
  (((σ.usageLogs.filter fun log =>
    (σ.db.chargeEventOf log.id).isNone && (σ.outboxRow log.id).isNone
      && log.createdAt ≤ now - 960000000).insertionSort (fun x y => x.id ≤ y.id)).take limit).map
        UsageLog.id

end Settler

/-- A known user or model of the request differs from the reservation's. -/
def Reservation.identityMismatch (r : Reservation) (expected : Option RequestIdentity) : Bool :=
  expected.any fun identity =>
    identity.userId.any (· != r.userId) || identity.publicModelId.any (· != r.publicModelId)

/-- `matches!(status, "expired" | "released" | "capture_failed" | "soft_insufficient")`. -/
def ReservationStatus.gone : ReservationStatus → Bool
  | expired | released | captureFailed | softInsufficient => true
  | _ => false

/-- The effective reservation key of a pending row, or why the row fails. -/
def Db.effectiveReservationKey (db : Db) (log : UsageLog) (expected : Option RequestIdentity)
    (reservationKey : Option String) : Except TxError (Option String) :=
  match reservationKey with
  | none => .ok none
  | some key =>
    match db.reservationByKey key with
    | none => .ok none
    | some (_, r, wallet) =>
      if wallet.projectId ≠ log.projectId then .error (.rejected "reservation_project_mismatch")
      else if r.identityMismatch expected then .error (.rejected "reservation_identity_mismatch")
      else if r.status.gone then .ok none
      else .ok (some key)

/-! ## Tasks -/

/-- How a statement ends: executed and answered, not executed, or executed
with the answer lost. -/
inductive Delivery
  | answered
  | refused
  | unanswered
deriving DecidableEq, Repr

/-- What a task finds outside the billing tables when it executes. -/
structure Surroundings where
  now : Instant
  facts : ChargeFacts
  delivery : Delivery
  queueOpen : Bool

namespace Settler

/-- Who continues after a settlement that returned `Ok`. -/
def settled (usageLogId : Int) : Caller → Option Task
  | .live => none
  | .worker => some (.complete usageLogId .worker)
  | .reconciler rest => some (.complete usageLogId (.reconciler rest))
  | .repair ids => some (.repair ids)

/-- Who continues after a settlement that returned `Err`. -/
def unsettled (usageLogId : Int) (error : TxError) : Caller → Option Task
  | .live => none
  | .worker => some (.fail usageLogId error .worker)
  | .reconciler rest => some (.fail usageLogId error (.reconciler rest))
  | .repair _ => none

/-- Who continues after a mark; a mark that failed ends the task. -/
def marked (delivery : Delivery) (repaired : Nat) : Caller → Option Task
  | .reconciler rest =>
      if delivery = .answered then some (.reconcile { rest with repaired := rest.repaired + repaired })
      else none
  | _ => none

/-- The synchronous `settle_usage` as one transaction. -/
def settle (σ : Settler) (job : SettlementJob) (caller : Caller) (around : Surroundings) :
    Settler × Option Task :=
  match around.delivery, settleUsage job.log around.facts job.reservationKey around.now σ.db with
  | .refused, _ => (σ, unsettled job.log.id (.storage "") caller)
  | _, .error error => (σ, unsettled job.log.id error caller)
  | .answered, .ok (_, db) => ({ σ with db }, settled job.log.id caller)
  | .unanswered, .ok (_, db) => ({ σ with db }, unsettled job.log.id (.storage "") caller)

/-- One statement of a task and what the task does next. -/
def execute (σ : Settler) (around : Surroundings) : Task → Settler × Option Task
  | .persist job =>
      match around.delivery with
      | .answered =>
          (σ.persistOutbox job.log.id job.reservationKey around.now,
            if σ.outboxCompleted job.log.id then none else some (.send job))
      | .refused => (σ, some (.settle job .live))
      | .unanswered =>
          (σ.persistOutbox job.log.id job.reservationKey around.now, some (.settle job .live))
  | .send job =>
      if around.queueOpen then ({ σ with queue := σ.queue ++ [job] }, none)
      else (σ, some (.settle job .live))
  | .settle job caller => σ.settle job caller around
  | .complete usageLogId caller =>
      (if around.delivery = .refused then σ else σ.markOutboxCompleted usageLogId,
        marked around.delivery 1 caller)
  | .fail usageLogId error caller =>
      (if around.delivery = .refused then σ else σ.markOutboxFailed usageLogId error around.now,
        marked around.delivery 0 caller)
  | .reconcile pass =>
      match pass.pending with
      | [] => (σ, if pass.limit - pass.repaired = 0 then none
          else some (.repair (σ.missingOutbox (pass.limit - pass.repaired) around.now)))
      | (usageLogId, reservationKey) :: rest =>
        if around.delivery ≠ .answered then (σ, none)
        else
          match σ.findById usageLogId with
          | none => (σ, some (.fail usageLogId (.rejected "usage_log_not_found")
              (.reconciler { pass with pending := rest })))
          | some log =>
            match σ.db.effectiveReservationKey log around.facts.request reservationKey with
            | .error error =>
                (σ, some (.fail usageLogId error (.reconciler { pass with pending := rest })))
            | .ok key => (σ, some (.settle ⟨log, key⟩ (.reconciler { pass with pending := rest })))
  | .repair [] => (σ, none)
  | .repair (usageLogId :: ids) =>
      if around.delivery ≠ .answered then (σ, none)
      else
        match σ.findById usageLogId with
        | none => (σ, some (.repair ids))
        | some log => (σ, some (.settle ⟨log, none⟩ (.repair ids)))

/-- The task goes on as `next`, or is over. -/
def resume (σ : Settler) (i : Nat) (next : Option Task) : Settler :=
  { σ with
    tasks := match next with
      | some task => σ.tasks.set i task
      | none => σ.tasks.eraseIdx i }

/-! ## The system -/

inductive Action
  | record (log : UsageLog)
  | handoff (log : UsageLog) (reservationKey : Option String) (now : Instant)
  | settleUsage (usageLogId : Int) (reservationKey : Option String) (asyncSettlement : Bool)
  | receive
  | reconcileMissing (limit : Int) (now : Instant)
  | execute (task : Nat) (around : Surroundings)
  | dropTask (task : Nat)
  | dropJob (job : Nat)
  | billing (op : Op)

/-- A new usage log; ids are never used twice. -/
def record (σ : Settler) (log : UsageLog) : Settler :=
  if (σ.findById log.id).isSome then σ else { σ with usageLogs := σ.usageLogs ++ [log] }

/-- The insert of an outbox row with `ON CONFLICT DO NOTHING`. -/
def insertOutbox (σ : Settler) (usageLogId : Int) (reservationKey : Option String) (now : Instant) :
    Settler :=
  if (σ.outboxRow usageLogId).isSome then σ
  else { σ with outbox := σ.outbox.insertRow (OutboxRow.new usageLogId reservationKey now) }

def step (cal : Calendar) (σ : Settler) : Action → Settler
  | .record log => σ.record log
  | .handoff log reservationKey now => (σ.record log).insertOutbox log.id reservationKey now
  | .settleUsage usageLogId reservationKey asyncSettlement =>
      match σ.findById usageLogId with
      | none => σ
      | some log =>
        { σ with
          tasks := σ.tasks ++ [if asyncSettlement then .persist ⟨log, reservationKey⟩
            else .settle ⟨log, reservationKey⟩ .live] }
  | .receive =>
      match σ.queue with
      | [] => σ
      | job :: queue => { σ with queue, tasks := σ.tasks ++ [.settle job .worker] }
  | .reconcileMissing limit now =>
      let limit := (max 1 (min limit 1000)).toNat
      { σ with tasks := σ.tasks ++ [.reconcile ⟨limit, σ.pendingOutbox limit now, 0⟩] }
  | .execute i around =>
      match σ.tasks[i]? with
      | none => σ
      | some task => (σ.execute around task).1.resume i (σ.execute around task).2
  | .dropTask i => { σ with tasks := σ.tasks.eraseIdx i }
  | .dropJob i => { σ with queue := σ.queue.eraseIdx i }
  | .billing op => { σ with db := op.apply cal σ.db }

end Settler

/-- The billing system with its settlement tasks. -/
def settling (cal : Calendar) (projects : List (Int × WalletStatus)) :
    TSys Settler Settler.Action where
  init := ⟨Db.fresh projects, [], [], [], []⟩
  step := Settler.step cal

end Conduit.Billing
