import Conduit.UsageRecovery.Logic.Events
import Conduit.UsageRecovery.Logic.Handoff

/-!
# Who owes what in a run

`Owes` follows the owed events through the calls on the journal: `put_ready`
adds the event, `ack` takes those of its key, and nothing else touches them. A
task that is about to acknowledge an event carries the handoff that committed.
-/

namespace Conduit.UsageRecovery

open Base Base.Crashing Base.Transaction
open Billing (Calendar Instant Settler WalletStatus)
open Billing.Settler (RowsKept)

variable {Usage : Type}

/-! ## Calls on the journal -/

/-- Since the events were `owed`, some that are `lost` may have been
acknowledged and some that are `gained` accepted. -/
structure Owes (gained lost : MeteredEvent Usage → Prop) (owed : List (MeteredEvent Usage))
    (m : Machine Usage) : Prop where
  kept : ∀ event ∈ owed, event ∈ m.owed ∨ lost event
  known : ∀ event ∈ m.owed, event ∈ owed ∨ gained event

variable {gained lost : MeteredEvent Usage → Prop} {owed : List (MeteredEvent Usage)}
  {m m' : Machine Usage}

theorem Owes.refl (m : Machine Usage) : Owes gained lost m.owed m :=
  ⟨fun _ h => .inl h, fun _ h => .inl h⟩

theorem Owes.congr (h : Owes gained lost owed m) (howed : m'.owed = m.owed) :
    Owes gained lost owed m' := by
  constructor
  · rw [howed]
    exact h.kept
  · rw [howed]
    exact h.known

theorem Owes.accept (h : Owes gained lost owed m) {event : MeteredEvent Usage}
    (hgained : gained event) : Owes gained lost owed (m.accept event) where
  kept other hother := (h.kept other hother).imp_left (List.mem_cons_of_mem event)
  known other hother := by
    rcases List.mem_cons.mp hother with rfl | hold
    · exact .inr hgained
    · exact h.known other hold

theorem Owes.forget (h : Owes gained lost owed m) {key : String}
    (hlost : ∀ event : MeteredEvent Usage, event.eventKey = key → lost event) :
    Owes gained lost owed (m.forget key) where
  kept other hother := by
    rcases h.kept other hother with hold | hgone
    · by_cases hkey : other.eventKey = key
      · exact .inr (hlost other hkey)
      · exact .inl (List.mem_filter.mpr ⟨hold, decide_eq_true hkey⟩)
    · exact .inr hgone
  known other hother := h.known other (List.mem_of_mem_filter hother)

theorem keeps_unhealthy :
    Keeps (Owes gained lost owed) (Crashing.modify (Machine.unhealthy : Machine Usage → _)) :=
  Keeps.modify fun _ h => h.congr rfl

theorem keeps_setReserved (f : List String → List String) :
    Keeps (Owes gained lost owed) (Crashing.modify fun m : Machine Usage => m.setReserved f) :=
  Keeps.modify fun _ h => h.congr rfl

theorem keeps_fileOp (f : Disk → Disk) :
    Keeps (Owes gained lost owed) (fileOp f : Crashing (Machine Usage) Unit) :=
  Keeps.step fun _ h => h.congr rfl

variable {codec : Codec Usage} {config : UsageRecoveryConfig}

theorem keeps_append (payload : JournalRecord Usage) :
    Keeps (Owes gained lost owed) (append codec payload) :=
  (keeps_fileOp _).bind fun _ => keeps_fileOp _

theorem keeps_removeStale (pending : List (MeteredEvent Usage)) (names : List IndexFile) :
    Keeps (Owes gained lost owed) (removeStale pending names) := by
  induction names with
  | nil => exact Keeps.pure ()
  | cons name names ih =>
      cases name with
      | quarantine key => exact keeps_unhealthy.bind fun _ => ih
      | tmp key => exact (keeps_fileOp _).bind fun _ => ih
      | ready key => exact Keeps.ite ih ((keeps_fileOp _).bind fun _ => ih)

theorem keeps_writeIndexes (events : List (MeteredEvent Usage)) :
    Keeps (Owes gained lost owed) (writeIndexes codec config events) := by
  induction events with
  | nil => exact Keeps.pure ()
  | cons event events ih =>
      exact Keeps.ite keeps_unhealthy
        ((keeps_fileOp _).bind fun _ => (keeps_fileOp _).bind fun _ => ih)

theorem keeps_openJournal : Keeps (Owes gained lost owed) (openJournal codec config) := by
  unfold openJournal restoreIndexes
  refine (Keeps.observe _).bind fun locked => Keeps.ite (Keeps.pure _) ?_
  refine Keeps.bind (Keeps.modify fun _ h => h.congr rfl) fun _ =>
    Keeps.bind ?_ fun _ => Keeps.pure _
  refine (keeps_fileOp _).bind fun _ => (keeps_fileOp _).bind fun _ =>
    (Keeps.observe _).bind fun bytes => ?_
  cases readJournal codec config [] bytes with
  | none => exact keeps_unhealthy
  | some pending =>
      exact (Keeps.observe _).bind fun names =>
        (keeps_removeStale pending names).bind fun _ => keeps_writeIndexes _

theorem keeps_truncateIdle (m : Machine Usage) :
    Keeps (Owes gained lost owed) (truncateIdle m) :=
  Keeps.ite ((keeps_fileOp _).bind fun _ => keeps_fileOp _) (Keeps.pure ())

theorem keeps_reserve (requestKey : String) :
    Keeps (Owes gained lost owed) (reserve codec config requestKey) := by
  unfold reserve
  generalize requiredBytes config = required
  refine (Keeps.observe _).bind fun m => Keeps.ite (Keeps.pure _) (Keeps.ite (Keeps.pure _) ?_)
  refine (keeps_truncateIdle m).bind fun _ => (Keeps.observe _).bind fun m => ?_
  exact Keeps.ite (Keeps.pure _) ((keeps_setReserved _).bind fun _ => Keeps.pure _)

theorem keeps_release (requestKey : String) :
    Keeps (Owes gained lost owed) (release codec requestKey) := keeps_setReserved _

theorem keeps_onOpen {α : Type} {t : Crashing (Machine Usage) α}
    (ht : Keeps (Owes gained lost owed) t) : Keeps (Owes gained lost owed) (onOpen t) :=
  (Keeps.observe _).bind fun _ => Keeps.ite (ht.bind fun _ => Keeps.pure ()) (Keeps.pure ())

theorem keeps_writeEvent (event : MeteredEvent Usage) :
    Keeps (Owes gained lost owed) (writeEvent codec config event) := by
  unfold writeEvent
  refine (Keeps.observe _).bind fun m => Keeps.ite (Keeps.pure _) (Keeps.ite (Keeps.pure _) ?_)
  cases m.disk.read (.ready event.eventKey) with
  | some bytes => exact Keeps.ite (Keeps.pure _) ((keeps_setReserved _).bind fun _ => Keeps.pure _)
  | none =>
      refine Keeps.ite (Keeps.pure _) ((keeps_append _).bind fun _ =>
        (Keeps.observe _).bind fun m => Keeps.ite (Keeps.pure _) ?_)
      exact (keeps_fileOp _).bind fun _ => (keeps_fileOp _).bind fun _ =>
        (keeps_fileOp _).bind fun _ => (keeps_setReserved _).bind fun _ => Keeps.pure _

theorem keeps_putReady {event : MeteredEvent Usage} (hgained : gained event) :
    Keeps (Owes gained lost owed) (putReady codec config event) := by
  refine (keeps_writeEvent event).bind fun result => ?_
  cases result with
  | error error => exact keeps_unhealthy.bind fun _ => Keeps.pure _
  | ok done => exact (Keeps.modify fun m h => h.accept hgained).bind fun _ => Keeps.pure _

theorem keeps_ack {key : String}
    (hlost : ∀ event : MeteredEvent Usage, event.eventKey = key → lost event) :
    Keeps (Owes gained lost owed) (ack codec key) := by
  refine Keeps.ite (Keeps.pure _) ((Keeps.modify fun m h => h.forget hlost).bind fun _ =>
    (Keeps.observe _).bind fun m => Keeps.ite (Keeps.pure _) ?_)
  exact (keeps_append _).bind fun _ => (keeps_fileOp _).bind fun _ => Keeps.pure _

theorem keeps_quarantine (key : String) :
    Keeps (Owes gained lost owed) (quarantine key : Crashing (Machine Usage) Unit) :=
  (keeps_fileOp _).bind fun _ => keeps_unhealthy

theorem keeps_quarantineFailed (key error : String) :
    Keeps (Owes gained lost owed) (quarantineFailed key error : Crashing (Machine Usage) Unit) :=
  (Keeps.observe _).bind fun _ =>
    Keeps.ite (Keeps.pure ()) (Keeps.ite (keeps_quarantine key) (Keeps.pure ()))

namespace Recovery

variable {input : UsageInput Usage} {cal : Calendar} {σ : Recovery Usage} {α : Type}
  {t : Crashing (Machine Usage) α} {cut : Cut} {next : α → List (RecoveryTask Usage)}

theorem onJournal_ledger : (σ.onJournal t cut next).ledger = σ.ledger := by
  unfold onJournal
  split <;> rfl

theorem onJournal_tasks :
    (σ.onJournal t cut next).tasks = [] ∨ ∃ a : α, (σ.onJournal t cut next).tasks = next a := by
  unfold onJournal
  split
  · next a _ _ => exact .inr ⟨a, rfl⟩
  · exact .inl rfl
  · exact .inl rfl

theorem onJournal_owes (ht : Keeps (Owes gained lost σ.machine.owed) t) :
    Owes gained lost σ.machine.owed (σ.onJournal t cut next).machine := by
  have hend := ht.state (Owes.refl σ.machine) cut.left
  unfold onJournal
  split
  · next heq =>
      rw [heq] at hend
      exact hend
  · next heq =>
      rw [heq] at hend
      exact hend.congr rfl
  · next heq =>
      rw [heq] at hend
      exact hend.congr rfl

/-! ## The ledger -/

/-- A step leaves the receipts alone or commits one handoff. -/
def LedgerStep (codec : Codec Usage) (input : UsageInput Usage) (l l' : Ledger Usage) : Prop :=
  l.Aside l' ∨ ∃ (now : Instant) (event : MeteredEvent Usage) (handed : Handed),
    Commits (handoff codec input now event) l handed l'

theorem LedgerStep.refl (l : Ledger Usage) : LedgerStep codec input l l := .inl (.refl l)

theorem LedgerStep.grows {l l' : Ledger Usage} (h : LedgerStep codec input l l') : l.Grows l' := by
  rcases h with haside | ⟨now, event, handed, hcommits⟩
  · exact haside.grows
  · exact handoff_grows hcommits

theorem LedgerStep.fenced {l l' : Ledger Usage} (h : LedgerStep codec input l l')
    (hl : l.Fenced) : l'.Fenced := by
  rcases h with haside | ⟨now, event, handed, hcommits⟩
  · exact hl.aside haside
  · exact handoff_fenced hcommits hl

theorem handoffFailed_ledger (i : Nat) (event : MeteredEvent Usage) (error : String) (cut : Cut)
    (origin : Origin) : (σ.handoffFailed i event error cut origin).ledger = σ.ledger := by
  cases origin with
  | live => rfl
  | replay keys done => exact onJournal_ledger

theorem runHandoff_ledger (i : Nat) (event : MeteredEvent Usage) (origin : Origin) (now : Instant)
    (reply : Reply) (cut : Cut) :
    LedgerStep codec input σ.ledger
      (σ.runHandoff codec input i event origin now reply cut).ledger := by
  unfold runHandoff
  split
  · rw [handoffFailed_ledger]
    exact .refl _
  · rw [handoffFailed_ledger]
    exact .refl _
  · next hcommits => exact .inr ⟨now, event, _, hcommits⟩
  · next hcommits => exact .inr ⟨now, event, _, hcommits⟩
  · next hcommits =>
      rw [handoffFailed_ledger]
      exact .inr ⟨now, event, _, hcommits⟩

theorem execute_ledger (i : Nat) (now : Instant) (reply : Reply) (cut : Cut)
    (task : RecoveryTask Usage) :
    LedgerStep codec input σ.ledger
      (σ.execute codec config input i now reply cut task).ledger := by
  cases task with
  | handoff event origin => exact runHandoff_ledger i event origin now reply cut
  | find event id origin =>
      cases reply with
      | answered => exact .refl _
      | refused error => exact (handoffFailed_ledger i event error cut origin) ▸ .refl _
      | unanswered error => exact (handoffFailed_ledger i event error cut origin) ▸ .refl _
  | ack event origin =>
      unfold execute
      dsimp only
      rw [onJournal_ledger]
      exact .refl _
  | next keys done =>
      cases keys with
      | nil => exact .refl _
      | cons key keys =>
          unfold execute
          dsimp only
          split
          · exact .refl _
          · split
            · rw [onJournal_ledger]
              exact .refl _
            · exact .refl _

theorem settle_aside (action : Settler.Action) :
    σ.ledger.Aside (σ.settle cal action).ledger := by
  have hstep : σ.ledger.Aside { σ.ledger with settler := σ.ledger.settler.step cal action } :=
    ⟨rfl, rfl, rfl, Settler.rowsKept_step _ cal action⟩
  cases action with
  | record log => exact .refl _
  | handoff log reservationKey now => exact .refl _
  | _ => exact hstep

theorem step_ledger (σ : Recovery Usage) (a : Action Usage) :
    LedgerStep codec input σ.ledger (σ.step codec config input cal a).ledger := by
  cases a with
  | «open» cut => exact onJournal_ledger ▸ .refl _
  | reserve requestKey cut => exact onJournal_ledger ▸ .refl _
  | release requestKey cut => exact onJournal_ledger ▸ .refl _
  | record event cut =>
      unfold step
      dsimp only
      split
      · rw [onJournal_ledger]
        exact .refl _
      · exact .refl _
  | replay =>
      unfold step
      dsimp only
      split <;> exact .refl _
  | execute i now reply cut =>
      unfold step
      dsimp only
      split
      · exact .refl _
      · exact execute_ledger i now reply cut _
  | dropTask i => exact .refl _
  | crash survived files => exact .refl _
  | handoff event now =>
      show LedgerStep codec input σ.ledger ((handoff codec input now event).commit σ.ledger)
      rcases commit_cases (handoff codec input now event) σ.ledger with ⟨handed, hcommits⟩ | hsame
      · exact .inr ⟨now, event, handed, hcommits⟩
      · rw [hsame]
        exact .refl _
  | insertUsage log =>
      refine .inl ⟨rfl, rfl, rfl, ?_⟩
      show RowsKept σ.ledger.settler.outbox (σ.ledger.settler.record _).outbox
      rw [Settler.record_outbox]
      exact .refl _
  | skipId => exact .inl ⟨rfl, rfl, rfl, .refl _⟩
  | settle action => exact .inl (settle_aside action)
  | retain cutoff batch => exact .inl ⟨rfl, rfl, rfl, .refl _⟩

theorem fenced_inductive (projects : List (Int × WalletStatus)) :
    (recovering codec config input cal projects).Inductive fun σ => σ.ledger.Fenced where
  init := ⟨List.nodup_nil, fun _ _ h => absurd h List.not_mem_nil,
    fun _ h => absurd h List.not_mem_nil, List.nodup_nil⟩
  step σ a h := (step_ledger σ a).fenced h

theorem grows_run (projects : List (Int × WalletStatus)) (as : List (Action Usage)) :
    ∀ σ : Recovery Usage,
      σ.ledger.Grows ((recovering codec config input cal projects).run σ as).ledger := by
  induction as with
  | nil => exact fun σ => .refl σ.ledger
  | cons a as ih => exact fun σ => (step_ledger σ a).grows.trans (ih _)

/-! ## Acknowledgements -/

/-- Under each key there is one payload: what is put under it, and what a
replay reads back from its index file. -/
def Stable (codec : Codec Usage) (config : UsageRecoveryConfig) (payload : String → List UInt8)
    (σ : Recovery Usage) : Action Usage → Prop
  | .record event _ => codec.eventJson event = payload event.eventKey
  | .execute i _ _ _ =>
      ∀ (key : String) (keys : List String) (done : Nat) (bytes : List UInt8)
        (event : MeteredEvent Usage), σ.tasks[i]? = some (.next (key :: keys) done) →
        σ.machine.disk.read (.ready key) = some bytes →
        readReady codec config key bytes = .ok event → codec.eventJson event = payload key
  | _ => True

/-- A handoff of the event committed. -/
def HandedOff (codec : Codec Usage) (l : Ledger Usage) (event : MeteredEvent Usage) : Prop :=
  ∃ other ∈ l.handedOff, other.eventKey = event.eventKey ∧
    codec.eventJson other = codec.eventJson event

/-- What a task knows of its event. -/
def Backed (codec : Codec Usage) (payload : String → List UInt8) (l : Ledger Usage) :
    RecoveryTask Usage → Prop
  | .handoff event _ => codec.eventJson event = payload event.eventKey
  | .find event _ _ | .ack event _ =>
      codec.eventJson event = payload event.eventKey ∧ event ∈ l.handedOff
  | .next _ _ => True

structure Sound (codec : Codec Usage) (payload : String → List UInt8) (σ : Recovery Usage) :
    Prop where
  backed : ∀ task ∈ σ.tasks, Backed codec payload σ.ledger task
  owed : ∀ event ∈ σ.machine.owed, codec.eventJson event = payload event.eventKey

/-- What a step does to the events that were owed before it. -/
structure Acknowledges (codec : Codec Usage) (payload : String → List UInt8)
    (σ σ' : Recovery Usage) : Prop where
  sound : Sound codec payload σ'
  owed : ∀ event ∈ σ.machine.owed, event ∈ σ'.machine.owed ∨ HandedOff codec σ'.ledger event

variable {payload : String → List UInt8} {σ' : Recovery Usage}

theorem Backed.mono {l l' : Ledger Usage} (hgrows : l.Grows l') {task : RecoveryTask Usage}
    (h : Backed codec payload l task) : Backed codec payload l' task := by
  cases task with
  | handoff event origin => exact h
  | find event id origin => exact ⟨h.1, hgrows.handedOff event h.2⟩
  | ack event origin => exact ⟨h.1, hgrows.handedOff event h.2⟩
  | next keys done => trivial

theorem HandedOff.mono {l l' : Ledger Usage} (hgrows : l.Grows l') {event : MeteredEvent Usage}
    (h : HandedOff codec l event) : HandedOff codec l' event := by
  obtain ⟨other, hother, hsame⟩ := h
  exact ⟨other, hgrows.handedOff other hother, hsame⟩

theorem Sound.erased (h : Sound codec payload σ) {l : Ledger Usage} (hgrows : σ.ledger.Grows l)
    (i : Nat) : ∀ task ∈ σ.tasks.eraseIdx i, Backed codec payload l task :=
  fun task htask => (h.backed task (List.mem_of_mem_eraseIdx htask)).mono hgrows

theorem Sound.set (h : Sound codec payload σ) {l : Ledger Usage} (hgrows : σ.ledger.Grows l)
    (i : Nat) {next : RecoveryTask Usage} (hnext : Backed codec payload l next) :
    ∀ task ∈ σ.tasks.set i next, Backed codec payload l task := by
  intro task htask
  rcases List.mem_or_eq_of_mem_set htask with hold | rfl
  · exact (h.backed task hold).mono hgrows
  · exact hnext

/-- A step that does not touch the journal. -/
theorem Sound.aside (h : Sound codec payload σ) (hmachine : σ'.machine = σ.machine)
    (hbacked : ∀ task ∈ σ'.tasks, Backed codec payload σ'.ledger task) :
    Acknowledges codec payload σ σ' := by
  refine ⟨⟨hbacked, ?_⟩, ?_⟩
  · rw [hmachine]
    exact h.owed
  · rw [hmachine]
    exact fun _ hevent => .inl hevent

/-- A call on the journal. -/
theorem Sound.onJournal (h : Sound codec payload σ) (lost : MeteredEvent Usage → Prop)
    (ht : Keeps (Owes (fun event => codec.eventJson event = payload event.eventKey) lost
      σ.machine.owed) t)
    (hlost : ∀ event ∈ σ.machine.owed, lost event → HandedOff codec σ.ledger event)
    (hbacked : ∀ (a : α), ∀ task ∈ next a, Backed codec payload σ.ledger task) :
    Acknowledges codec payload σ (σ.onJournal t cut next) := by
  have howes : Owes _ lost σ.machine.owed (σ.onJournal t cut next).machine := onJournal_owes ht
  have htasks : (σ.onJournal t cut next).tasks = [] ∨
      ∃ a : α, (σ.onJournal t cut next).tasks = next a := onJournal_tasks
  refine ⟨⟨?_, ?_⟩, ?_⟩
  · rw [onJournal_ledger]
    rcases htasks with hnone | ⟨a, hnext⟩
    · rw [hnone]
      exact fun _ htask => absurd htask List.not_mem_nil
    · rw [hnext]
      exact hbacked a
  · intro event hevent
    exact (howes.known event hevent).elim (h.owed event) id
  · rw [onJournal_ledger]
    exact fun event hevent => (howes.kept event hevent).imp_right (hlost event hevent)

/-- A call on the journal that acknowledges nothing. -/
theorem Sound.onJournal_keeps (h : Sound codec payload σ)
    (ht : Keeps (Owes (fun event => codec.eventJson event = payload event.eventKey)
      (fun _ => False) σ.machine.owed) t)
    (hbacked : ∀ (a : α), ∀ task ∈ next a, Backed codec payload σ.ledger task) :
    Acknowledges codec payload σ (σ.onJournal t cut next) :=
  h.onJournal _ ht (fun _ _ hlost => hlost.elim) hbacked

theorem Sound.handoffFailed (h : Sound codec payload σ) (i : Nat) (event : MeteredEvent Usage)
    (error : String) (cut : Cut) (origin : Origin) :
    Acknowledges codec payload σ (σ.handoffFailed i event error cut origin) := by
  cases origin with
  | live => exact h.aside rfl (h.erased (.refl _) i)
  | replay keys done =>
      exact h.onJournal_keeps (keeps_quarantineFailed _ _) fun _ => h.erased (.refl _) i

/-- A committed handoff before anything else happens. -/
theorem Sound.withLedger (h : Sound codec payload σ) {l : Ledger Usage} (hgrows : σ.ledger.Grows l) :
    Sound codec payload { σ with ledger := l } :=
  ⟨fun task htask => (h.backed task htask).mono hgrows, h.owed⟩

theorem Sound.runHandoff (h : Sound codec payload σ) (i : Nat) {event : MeteredEvent Usage}
    (hevent : codec.eventJson event = payload event.eventKey) (origin : Origin) (now : Instant)
    (reply : Reply) (cut : Cut) :
    Acknowledges codec payload σ (σ.runHandoff codec input i event origin now reply cut) := by
  unfold Recovery.runHandoff
  split
  · exact h.handoffFailed i event _ cut origin
  · exact h.handoffFailed i event _ cut origin
  · next hcommits =>
      exact h.aside rfl (h.set (handoff_grows hcommits) i ⟨hevent, handoff_mem hcommits⟩)
  · next hcommits =>
      exact h.aside rfl (h.set (handoff_grows hcommits) i ⟨hevent, handoff_mem hcommits⟩)
  · next error _ _ hcommits =>
      have hfailed := (h.withLedger (handoff_grows hcommits)).handoffFailed i event error cut origin
      exact ⟨hfailed.sound, hfailed.owed⟩

theorem Sound.execute (h : Sound codec payload σ) (i : Nat) (now : Instant) (reply : Reply)
    (cut : Cut) {task : RecoveryTask Usage} (htask : σ.tasks[i]? = some task)
    (hstable : Stable codec config payload σ (.execute i now reply cut)) :
    Acknowledges codec payload σ (σ.execute codec config input i now reply cut task) := by
  have hbacked := h.backed task (List.mem_of_getElem? htask)
  cases task with
  | handoff event origin => exact h.runHandoff i hbacked origin now reply cut
  | find event id origin =>
      cases reply with
      | answered => exact h.aside rfl (h.set (.refl _) i hbacked)
      | refused error => exact h.handoffFailed i event error cut origin
      | unanswered error => exact h.handoffFailed i event error cut origin
  | ack event origin =>
      -- an owed event under this key has the payload that was handed over
      refine h.onJournal (fun other => other.eventKey = event.eventKey)
        (keeps_ack fun _ hkey => hkey) ?_ ?_
      · intro other hother hkey
        refine ⟨event, hbacked.2, hkey.symm, ?_⟩
        rw [hbacked.1, h.owed other hother, hkey]
      · intro result
        have herased := h.erased (.refl σ.ledger) i
        cases origin with
        | live => exact herased
        | replay keys done =>
            cases result with
            | error error => exact herased
            | ok acked => exact h.set (.refl _) i trivial
  | next keys done =>
      cases keys with
      | nil => exact h.aside rfl (h.erased (.refl _) i)
      | cons key keys =>
          unfold Recovery.execute
          dsimp only
          cases hread : σ.machine.disk.read (.ready key) with
          | none => exact h.aside rfl (h.set (.refl _) i trivial)
          | some bytes =>
              dsimp only
              cases hready : readReady codec config key bytes with
              | error error =>
                  exact h.onJournal_keeps (keeps_quarantine key) fun _ => h.erased (.refl _) i
              | ok event =>
                  have hpayload := hstable key keys done bytes event htask hread hready
                  rw [← (readReady_key hready).1] at hpayload
                  exact h.aside rfl (h.set (.refl _) i hpayload)

theorem Sound.appended (h : Sound codec payload σ) {next : RecoveryTask Usage}
    (hnext : Backed codec payload σ.ledger next) :
    ∀ task ∈ σ.tasks ++ [next], Backed codec payload σ.ledger task := by
  intro task htask
  rcases List.mem_append.mp htask with hold | hnew
  · exact h.backed task hold
  · rw [List.mem_singleton.mp hnew]
    exact hnext

theorem Sound.step (h : Sound codec payload σ) (a : Action Usage)
    (hstable : Stable codec config payload σ a) :
    Acknowledges codec payload σ (σ.step codec config input cal a) := by
  have hbeside : ∀ l : Ledger Usage, σ.ledger.Grows l →
      Acknowledges codec payload σ { σ with ledger := l } :=
    fun l hgrows => h.aside rfl (h.withLedger hgrows).backed
  have hledger : LedgerStep codec input σ.ledger (σ.step codec config input cal a).ledger :=
    step_ledger σ a
  have hgrows := hledger.grows
  cases a with
  | «open» cut => exact h.onJournal_keeps keeps_openJournal fun _ => h.backed
  | reserve requestKey cut =>
      exact h.onJournal_keeps (keeps_onOpen (keeps_reserve requestKey)) fun _ => h.backed
  | release requestKey cut =>
      exact h.onJournal_keeps (keeps_onOpen (keeps_release requestKey)) fun _ => h.backed
  | record event cut =>
      unfold Recovery.step
      dsimp only
      split
      · refine h.onJournal_keeps (keeps_putReady hstable) fun result => ?_
        cases result with
        | ok accepted => exact h.appended hstable
        | error error => exact h.backed
      · exact h.aside rfl h.backed
  | replay =>
      unfold Recovery.step
      dsimp only
      split
      · exact h.aside rfl (h.appended trivial)
      · exact h.aside rfl h.backed
  | execute i now reply cut =>
      unfold Recovery.step
      dsimp only
      cases htask : σ.tasks[i]? with
      | none => exact h.aside rfl h.backed
      | some task => exact h.execute i now reply cut htask hstable
  | dropTask i => exact h.aside rfl (h.erased (.refl _) i)
  | crash survived files =>
      exact ⟨⟨fun _ htask => absurd htask List.not_mem_nil, h.owed⟩, fun _ hevent => .inl hevent⟩
  | handoff event now => exact hbeside _ hgrows
  | insertUsage log => exact hbeside _ hgrows
  | skipId => exact hbeside _ hgrows
  | settle action =>
      have hsame : σ.settle cal action = { σ with ledger := (σ.settle cal action).ledger } := by
        cases action <;> rfl
      show Acknowledges codec payload σ (σ.settle cal action)
      rw [hsame]
      exact hbeside _ hgrows
  | retain cutoff batch => exact hbeside _ hgrows

/-- An event that is not owed any more was handed over. -/
theorem Sound.run (projects : List (Int × WalletStatus)) (as : List (Action Usage)) :
    ∀ σ : Recovery Usage, Sound codec payload σ →
      (recovering codec config input cal projects).Along (Stable codec config payload) σ as →
      Acknowledges codec payload σ ((recovering codec config input cal projects).run σ as) := by
  induction as with
  | nil => exact fun σ h _ => h.aside rfl h.backed
  | cons a as ih =>
      intro σ h hstable
      have hstep : Acknowledges codec payload σ (σ.step codec config input cal a) :=
        h.step a hstable.1
      have hrest := ih _ hstep.sound hstable.2
      refine ⟨hrest.sound, fun event hevent => ?_⟩
      rcases hstep.owed event hevent with howed | hhanded
      · exact hrest.owed event howed
      · exact .inr (hhanded.mono (grows_run projects as _))

theorem sound_init (projects : List (Int × WalletStatus)) :
    Sound codec payload (recovering codec config input cal projects).init :=
  ⟨fun _ htask => absurd htask List.not_mem_nil, fun _ hevent => absurd hevent List.not_mem_nil⟩

end Recovery

end Conduit.UsageRecovery
