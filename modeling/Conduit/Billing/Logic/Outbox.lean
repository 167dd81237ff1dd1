import Conduit.Billing.Logic.System
import Conduit.Billing.Outbox

/-!
# The outbox acknowledges what was charged

`Acknowledged`: the billing tables are sound, a completed outbox row has its
charge event, and so has every row that a task is about to complete. A task
gets to that point only from a settlement that returned `Ok`.
-/

namespace Conduit.Billing

open Base Transaction

/-- What has to hold before a task may execute. -/
def Task.Backed (db : Db) : Task → Prop
  | .complete usageLogId _ => db.Charged usageLogId
  | _ => True

theorem Task.Backed.mono {db db' : Db} (hadvance : Advance db db') {task : Task}
    (h : task.Backed db) : task.Backed db' := by
  cases task with
  | complete usageLogId caller => exact hadvance.charged usageLogId h
  | _ => trivial

/-- Completed rows have their events. -/
def Covered (outbox : Table OutboxRow) (db : Db) : Prop :=
  ∀ (i : Nat) (row : OutboxRow), outbox[i]? = some row → row.status = .completed →
    db.Charged row.usageLogId

namespace Settler

structure Acknowledged (σ : Settler) : Prop where
  sound : Sound σ.db
  covered : Covered σ.outbox σ.db
  backed : ∀ task ∈ σ.tasks, task.Backed σ.db

/-! ## Statements on the outbox -/

variable {σ : Settler}

theorem covered_insertRow {outbox : Table OutboxRow} {db : Db} (h : Covered outbox db)
    (usageLogId : Int) (reservationKey : Option String) (now : Instant) :
    Covered (outbox.insertRow (OutboxRow.new usageLogId reservationKey now)) db := by
  intro i row hrow hstatus
  rcases Table.getElem?_insertRow_cases hrow with ⟨_, rfl⟩ | hold
  · exact absurd hstatus (by simp [OutboxRow.new])
  · exact h i row hold hstatus

theorem covered_persistOutbox (h : Covered σ.outbox σ.db) (usageLogId : Int)
    (reservationKey : Option String) (now : Instant) :
    Covered (σ.persistOutbox usageLogId reservationKey now).outbox σ.db := by
  unfold persistOutbox
  split
  · intro i row hrow hstatus
    rcases Table.getElem?_updateRow_cases hrow with ⟨rfl, old, hold, rfl⟩ | ⟨_, hold⟩
    · exact h _ old hold hstatus
    · exact h i row hold hstatus
  · exact covered_insertRow h usageLogId reservationKey now

/-- Only a charged usage log may be marked. -/
theorem covered_markOutboxCompleted (h : Covered σ.outbox σ.db) {usageLogId : Int}
    (hcharged : σ.db.Charged usageLogId) :
    Covered (σ.markOutboxCompleted usageLogId).outbox σ.db := by
  intro i row hrow hstatus
  obtain ⟨old, hold, rfl⟩ := Table.getElem?_updateWhere_cases hrow
  by_cases hmatch : (old.usageLogId == usageLogId) = true
  · rw [if_pos hmatch]
    exact beq_iff_eq.mp hmatch ▸ hcharged
  · rw [if_neg hmatch] at hstatus ⊢
    exact h i old hold hstatus

theorem retried_not_completed (row : OutboxRow) (error : TxError) (now : Instant) :
    (row.retried error now).status ≠ .completed := by
  unfold OutboxRow.retried
  split <;> simp

theorem covered_markOutboxFailed (h : Covered σ.outbox σ.db) (usageLogId : Int)
    (error : TxError) (now : Instant) :
    Covered (σ.markOutboxFailed usageLogId error now).outbox σ.db := by
  intro i row hrow hstatus
  obtain ⟨old, hold, rfl⟩ := Table.getElem?_updateWhere_cases hrow
  split at hstatus
  · exact absurd hstatus (retried_not_completed old error now)
  · next hother =>
      rw [if_neg hother]
      exact h i old hold hstatus

/-! ## One task -/

/-- What executing one task does: the billing tables advance, completed rows
stay covered, and the task may go on. -/
structure Executed (σ σ' : Settler) (next : Option Task) : Prop where
  advance : Advance σ.db σ'.db
  covered : Covered σ'.outbox σ'.db
  tasks : σ'.tasks = σ.tasks
  backed : ∀ task ∈ next, task.Backed σ'.db

theorem backed_none (db : Db) : ∀ task ∈ (none : Option Task), task.Backed db := by
  simp

theorem backed_some {db : Db} {next : Task} (h : next.Backed db) :
    ∀ task ∈ some next, task.Backed db := by
  simpa using h

theorem backed_unsettled (db : Db) (usageLogId : Int) (error : TxError) (caller : Caller) :
    ∀ task ∈ unsettled usageLogId error caller, task.Backed db := by
  intro task htask
  cases caller <;> simp only [unsettled, Option.mem_def, Option.some.injEq, reduceCtorEq] at htask
  all_goals
    subst htask
    trivial

theorem backed_settled {db : Db} {usageLogId : Int} (hcharged : db.Charged usageLogId)
    (caller : Caller) : ∀ task ∈ settled usageLogId caller, task.Backed db := by
  intro task htask
  cases caller <;> simp only [settled, Option.mem_def, Option.some.injEq, reduceCtorEq] at htask
  all_goals
    subst htask
    first | exact hcharged | trivial

theorem backed_marked (db : Db) (delivery : Delivery) (repaired : Nat) (caller : Caller) :
    ∀ task ∈ marked delivery repaired caller, task.Backed db := by
  intro task htask
  unfold marked at htask
  split at htask
  · split at htask
    · obtain rfl := Option.some.inj htask
      trivial
    · exact absurd htask (by simp)
  · exact absurd htask (by simp)

/-- A settlement advances the tables, and its `Ok` means that its usage log is
charged. -/
theorem Acknowledged.settle (h : σ.Acknowledged) (job : SettlementJob) (caller : Caller)
    (around : Surroundings) :
    Executed σ (σ.settle job caller around).1 (σ.settle job caller around).2 := by
  have hstay : ∀ error, Executed σ σ (unsettled job.log.id error caller) := fun error =>
    ⟨.refl h.sound, h.covered, rfl, backed_unsettled σ.db _ error caller⟩
  have hadvance := h.sound.settleUsage job.log around.facts job.reservationKey around.now
  unfold Settler.settle
  cases hrun : settleUsage job.log around.facts job.reservationKey around.now σ.db with
  | error error =>
      cases around.delivery with
      | refused => exact hstay _
      | answered => exact hstay error
      | unanswered => exact hstay error
  | ok result =>
      obtain ⟨u, db'⟩ := result
      have hcommits : Commits (settleUsage job.log around.facts job.reservationKey around.now)
        σ.db u db' := hrun
      have hstate : (settleUsage job.log around.facts job.reservationKey around.now).commit σ.db =
          db' := by
        unfold commit
        rw [hrun]
      rw [hstate] at hadvance
      have hcovered : Covered σ.outbox db' := fun i row hrow hstatus =>
        hadvance.charged _ (h.covered i row hrow hstatus)
      cases around.delivery with
      | refused => exact hstay _
      | answered =>
          exact ⟨hadvance, hcovered, rfl, backed_settled (settleUsage_charged hcommits) caller⟩
      | unanswered => exact ⟨hadvance, hcovered, rfl, backed_unsettled db' _ _ caller⟩

/-- Every task. -/
theorem Acknowledged.execute (h : σ.Acknowledged) (around : Surroundings) {task : Task}
    (hbacked : task.Backed σ.db) :
    Executed σ (σ.execute around task).1 (σ.execute around task).2 := by
  have hstay : ∀ {next : Option Task}, (∀ task ∈ next, task.Backed σ.db) → Executed σ σ next :=
    fun hnext => ⟨.refl h.sound, h.covered, rfl, hnext⟩
  cases task with
  | persist job =>
      have hpersist : ∀ {next : Option Task}, (∀ task ∈ next, task.Backed σ.db) →
          Executed σ (σ.persistOutbox job.log.id job.reservationKey around.now) next := by
        intro next hnext
        have hcovered := covered_persistOutbox h.covered job.log.id job.reservationKey around.now
        unfold persistOutbox at hcovered ⊢
        split at hcovered
        · exact ⟨.refl h.sound, hcovered, rfl, hnext⟩
        · exact ⟨.refl h.sound, hcovered, rfl, hnext⟩
      unfold Settler.execute
      dsimp only
      cases around.delivery with
      | answered =>
          refine hpersist ?_
          dsimp only
          split
          · exact backed_none σ.db
          · exact backed_some trivial
      | refused => exact hstay (backed_some trivial)
      | unanswered => exact hpersist (backed_some trivial)
  | send job =>
      unfold Settler.execute
      dsimp only
      split
      · exact ⟨.refl h.sound, h.covered, rfl, backed_none σ.db⟩
      · exact hstay (backed_some trivial)
  | settle job caller => exact h.settle job caller around
  | complete usageLogId caller =>
      unfold Settler.execute
      dsimp only
      split
      · exact hstay (backed_marked σ.db _ _ caller)
      · exact ⟨.refl h.sound, covered_markOutboxCompleted h.covered hbacked, rfl,
          backed_marked σ.db _ _ caller⟩
  | fail usageLogId error caller =>
      unfold Settler.execute
      dsimp only
      split
      · exact hstay (backed_marked σ.db _ _ caller)
      · exact ⟨.refl h.sound, covered_markOutboxFailed h.covered usageLogId error around.now, rfl,
          backed_marked σ.db _ _ caller⟩
  | reconcile pass =>
      unfold Settler.execute
      dsimp only
      repeat' split
      all_goals first | exact hstay (backed_none σ.db) | exact hstay (backed_some trivial)
  | repair ids =>
      cases ids with
      | nil => exact hstay (backed_none σ.db)
      | cons usageLogId ids =>
          unfold Settler.execute
          dsimp only
          repeat' split
          all_goals first | exact hstay (backed_none σ.db) | exact hstay (backed_some trivial)

/-! ## Runs -/

/-- New tasks, queues and usage logs do not touch what is acknowledged. -/
theorem Acknowledged.spawn (h : σ.Acknowledged) {task : Task} (hbacked : task.Backed σ.db)
    {queue : List SettlementJob} :
    Acknowledged { σ with queue, tasks := σ.tasks ++ [task] } := by
  refine ⟨h.sound, h.covered, fun other hmem => ?_⟩
  rcases List.mem_append.mp hmem with hold | hnew
  · exact h.backed other hold
  · rw [List.mem_singleton.mp hnew]
    exact hbacked

theorem Executed.resume {σ' : Settler} {next : Option Task} (h : σ.Acknowledged)
    (hexecuted : Executed σ σ' next) (i : Nat) : (σ'.resume i next).Acknowledged := by
  refine ⟨hexecuted.advance.sound, hexecuted.covered, ?_⟩
  have hold : ∀ task ∈ σ'.tasks, task.Backed σ'.db := by
    rw [hexecuted.tasks]
    exact fun task hmem => (h.backed task hmem).mono hexecuted.advance
  intro task hmem
  unfold Settler.resume at hmem ⊢
  cases next with
  | none => exact hold task (List.mem_of_mem_eraseIdx hmem)
  | some new =>
      rcases List.mem_or_eq_of_mem_set hmem with hmem | rfl
      · exact hold task hmem
      · exact hexecuted.backed task rfl

theorem Acknowledged.record (h : σ.Acknowledged) (log : UsageLog) : (σ.record log).Acknowledged := by
  unfold Settler.record
  split
  · exact h
  · exact ⟨h.sound, h.covered, h.backed⟩

theorem Acknowledged.insertOutbox (h : σ.Acknowledged) (usageLogId : Int)
    (reservationKey : Option String) (now : Instant) :
    (σ.insertOutbox usageLogId reservationKey now).Acknowledged := by
  unfold Settler.insertOutbox
  split
  · exact h
  · exact ⟨h.sound, covered_insertRow h.covered usageLogId reservationKey now, h.backed⟩

theorem Acknowledged.step (h : σ.Acknowledged) (cal : Calendar) (action : Action) :
    (σ.step cal action).Acknowledged := by
  cases action with
  | record log => exact h.record log
  | handoff log reservationKey now => exact (h.record log).insertOutbox log.id reservationKey now
  | settleUsage usageLogId reservationKey asyncSettlement =>
      unfold Settler.step
      dsimp only
      split
      · exact h
      · refine h.spawn ?_
        split <;> trivial
  | receive =>
      unfold Settler.step
      dsimp only
      split
      · exact h
      · refine h.spawn ?_
        trivial
  | reconcileMissing limit now =>
      refine h.spawn ?_
      trivial
  | execute i around =>
      unfold Settler.step
      dsimp only
      split
      · exact h
      · next task htask =>
          exact (h.execute around (h.backed task (List.mem_of_getElem? htask))).resume h i
  | dropTask i =>
      exact ⟨h.sound, h.covered, fun task hmem => h.backed task (List.mem_of_mem_eraseIdx hmem)⟩
  | dropJob i => exact ⟨h.sound, h.covered, h.backed⟩
  | billing op =>
      have hadvance := h.sound.step cal op
      exact ⟨hadvance.sound, fun i row hrow hstatus => hadvance.charged _ (h.covered i row hrow hstatus),
        fun task hmem => (h.backed task hmem).mono hadvance⟩

/-! ## One row for each usage log -/

/-- The primary key of the outbox. -/
def Distinct (outbox : Table OutboxRow) : Prop := (outbox.map OutboxRow.usageLogId).Nodup

/-- Rows stay, and a new one is for another usage log. -/
structure RowsKept (outbox outbox' : Table OutboxRow) : Prop where
  distinct : Distinct outbox → Distinct outbox'
  ids : outbox.map OutboxRow.usageLogId <+: outbox'.map OutboxRow.usageLogId

theorem RowsKept.of_map {outbox outbox' : Table OutboxRow}
    (hids : outbox'.map OutboxRow.usageLogId = outbox.map OutboxRow.usageLogId) :
    RowsKept outbox outbox' := by
  constructor
  · unfold Distinct
    rw [hids]
    exact id
  · rw [hids]

theorem RowsKept.refl (outbox : Table OutboxRow) : RowsKept outbox outbox := .of_map rfl

theorem RowsKept.trans {outbox outbox' outbox'' : Table OutboxRow} (h : RowsKept outbox outbox')
    (h' : RowsKept outbox' outbox'') : RowsKept outbox outbox'' :=
  ⟨fun hdistinct => h'.distinct (h.distinct hdistinct), h.ids.trans h'.ids⟩

theorem not_mem_of_outboxRow {usageLogId : Int} (h : σ.outboxRow usageLogId = none) :
    usageLogId ∉ σ.outbox.map OutboxRow.usageLogId := by
  intro hmem
  obtain ⟨row, hrow, heq⟩ := List.mem_map.mp hmem
  obtain ⟨i, hi⟩ := List.getElem?_of_mem hrow
  have hfalse := Table.selectOne_none h hi
  rw [heq, beq_self_eq_true] at hfalse
  exact Bool.noConfusion hfalse

theorem rowsKept_insertRow {usageLogId : Int} (hnone : σ.outboxRow usageLogId = none)
    (reservationKey : Option String) (now : Instant) :
    RowsKept σ.outbox (σ.outbox.insertRow (OutboxRow.new usageLogId reservationKey now)) := by
  have hmap : (σ.outbox.insertRow (OutboxRow.new usageLogId reservationKey now)).map
      OutboxRow.usageLogId = σ.outbox.map OutboxRow.usageLogId ++ [usageLogId] := List.map_append
  constructor
  · intro h
    unfold Distinct
    rw [hmap]
    exact List.nodup_append_comm.mp (List.nodup_cons.mpr ⟨not_mem_of_outboxRow hnone, h⟩)
  · rw [hmap]
    exact List.prefix_append _ _

theorem rowsKept_persistOutbox (σ : Settler) (usageLogId : Int) (reservationKey : Option String)
    (now : Instant) : RowsKept σ.outbox (σ.persistOutbox usageLogId reservationKey now).outbox := by
  unfold persistOutbox
  split
  · exact .of_map (Table.map_updateRow_of_eq fun _ => rfl)
  · next hnone => exact rowsKept_insertRow hnone reservationKey now

theorem rowsKept_insertOutbox (σ : Settler) (usageLogId : Int) (reservationKey : Option String)
    (now : Instant) : RowsKept σ.outbox (σ.insertOutbox usageLogId reservationKey now).outbox := by
  unfold Settler.insertOutbox
  by_cases hfound : (σ.outboxRow usageLogId).isSome = true
  · rw [if_pos hfound]
    exact .refl _
  · rw [if_neg hfound]
    exact rowsKept_insertRow (Option.not_isSome_iff_eq_none.mp hfound) reservationKey now

theorem rowsKept_markOutboxCompleted (σ : Settler) (usageLogId : Int) :
    RowsKept σ.outbox (σ.markOutboxCompleted usageLogId).outbox :=
  .of_map (Table.map_updateWhere_of_eq fun _ => rfl)

theorem rowsKept_markOutboxFailed (σ : Settler) (usageLogId : Int) (error : TxError) (now : Instant) :
    RowsKept σ.outbox (σ.markOutboxFailed usageLogId error now).outbox :=
  .of_map (Table.map_updateWhere_of_eq fun _ => rfl)

theorem settle_outbox (job : SettlementJob) (caller : Caller) (around : Surroundings) :
    (σ.settle job caller around).1.outbox = σ.outbox := by
  unfold Settler.settle
  split <;> rfl

theorem rowsKept_execute (σ : Settler) (around : Surroundings) (task : Task) :
    RowsKept σ.outbox (σ.execute around task).1.outbox := by
  cases task with
  | persist job =>
      unfold Settler.execute
      dsimp only
      cases around.delivery with
      | answered => exact rowsKept_persistOutbox σ job.log.id job.reservationKey around.now
      | refused => exact .refl _
      | unanswered => exact rowsKept_persistOutbox σ job.log.id job.reservationKey around.now
  | send job =>
      unfold Settler.execute
      dsimp only
      split <;> exact .refl _
  | settle job caller =>
      show RowsKept σ.outbox (σ.settle job caller around).1.outbox
      rw [settle_outbox]
      exact .refl _
  | complete usageLogId caller =>
      unfold Settler.execute
      dsimp only
      split
      · exact .refl _
      · exact rowsKept_markOutboxCompleted σ usageLogId
  | fail usageLogId error caller =>
      unfold Settler.execute
      dsimp only
      split
      · exact .refl _
      · exact rowsKept_markOutboxFailed σ usageLogId error around.now
  | reconcile pass =>
      unfold Settler.execute
      dsimp only
      repeat' split
      all_goals exact .refl _
  | repair ids =>
      cases ids with
      | nil => exact .refl _
      | cons usageLogId ids =>
          unfold Settler.execute
          dsimp only
          repeat' split
          all_goals exact .refl _

theorem record_outbox (log : UsageLog) : (σ.record log).outbox = σ.outbox := by
  unfold Settler.record
  split <;> rfl

theorem rowsKept_step (σ : Settler) (cal : Calendar) (action : Action) :
    RowsKept σ.outbox (σ.step cal action).outbox := by
  cases action with
  | record log =>
      show RowsKept σ.outbox (σ.record log).outbox
      rw [record_outbox]
      exact .refl _
  | handoff log reservationKey now =>
      have hinsert := rowsKept_insertOutbox (σ.record log) log.id reservationKey now
      rw [record_outbox] at hinsert
      exact hinsert
  | settleUsage usageLogId reservationKey asyncSettlement =>
      unfold Settler.step
      dsimp only
      split <;> exact .refl _
  | receive =>
      unfold Settler.step
      dsimp only
      split <;> exact .refl _
  | execute i around =>
      unfold Settler.step
      dsimp only
      split
      · exact .refl _
      · exact rowsKept_execute σ around _
  | reconcileMissing limit now => exact .refl _
  | dropTask i => exact .refl _
  | dropJob i => exact .refl _
  | billing op => exact .refl _

end Settler

theorem acknowledged_inductive (cal : Calendar) (projects : List (Int × WalletStatus)) :
    (settling cal projects).Inductive Settler.Acknowledged where
  init := ⟨sound_fresh projects, fun _ _ hrow => absurd hrow (by simp [settling]),
    fun _ hmem => absurd hmem (by simp [settling])⟩
  step _ action h := h.step cal action

end Conduit.Billing
