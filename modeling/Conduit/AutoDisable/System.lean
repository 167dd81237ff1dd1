import Conduit.AutoDisable.Channels
import Conduit.Base.TSys

/-!
# Attempts, workers and administrators

Attempts come one after the other. The row of an attempt is written before a
worker evaluates its observation; what the worker decides is applied at any
later time, in any order. Administrators may change any channel in between.

Beside the worker the tracker observes the same attempts; its answers are
recorded with each attempt, and nothing else depends on them.
-/

namespace Conduit.AutoDisable

open Base

/-- One real call of a provider. -/
structure Attempt where
  channelId : Int
  credential : Option String
  outcome : AttemptObservationOutcome
  deriving DecidableEq

namespace Attempt

/-- The identity of a credential is its fingerprint. -/
def observation (fingerprint : Fingerprint) (attempt : Attempt) : AttemptObservation where
  channelId := attempt.channelId
  credential := attempt.credential
  credentialIdentity := attempt.credential.map fingerprint.digest
  outcome := attempt.outcome

def row (fingerprint : Fingerprint) (attempt : Attempt) : RequestExecutionRow where
  channelId := attempt.channelId
  credentialIdentity := attempt.credential.map fingerprint.digest
  status :=
    match attempt.outcome with
    | .succeeded => "completed"
    | .failed _ => "failed"
  responseStatusCode :=
    match attempt.outcome with
    | .succeeded => some 200
    | .failed status => status

end Attempt

/-- An attempt with the answer of the worker and that of the tracker. -/
structure Entry where
  attempt : Attempt
  decided : Option DisableAction
  reference : Option DisableAction

/-- A step on a channel, with the row before it and after it. -/
structure Applied where
  before : ChannelRow
  after : ChannelRow
  result : StepResult

structure State where
  /-- The newest attempt first. -/
  history : List Entry
  tracker : ConsecutiveErrorTracker
  channels : Int → Option ChannelRow
  pending : List DisableAction
  applied : List Applied

inductive Action
  | attempt (attempt : Attempt)
  /-- A worker applies what it decided. -/
  | apply (index : Nat) (now : Int)
  | administer (channelId : Int) (row : Option ChannelRow)

variable (fingerprint : Fingerprint) (config : AutoDisableConfig)

def State.rows (s : State) : List RequestExecutionRow :=
  s.history.map fun entry => entry.attempt.row fingerprint

/-- The entry of an attempt. -/
def entryOf (s : State) (attempt : Attempt) : Entry where
  attempt := attempt
  decided := evaluate fingerprint (attempt.row fingerprint :: s.rows fingerprint)
    (attempt.observation fingerprint) config
  reference := (s.tracker.observe fingerprint (attempt.observation fingerprint) config).2

def setChannel (channels : Int → Option ChannelRow) (channelId : Int) (row : Option ChannelRow) :
    Int → Option ChannelRow :=
  fun other => if other = channelId then row else channels other

def step (s : State) : Action → State
  | .attempt attempt =>
      { s with
        history := entryOf fingerprint config s attempt :: s.history
        tracker := (s.tracker.observe fingerprint (attempt.observation fingerprint) config).1
        pending := s.pending ++ (entryOf fingerprint config s attempt).decided.toList }
  | .apply index now =>
      match s.pending[index]? with
      | none => s
      | some action =>
          match s.channels action.channelId with
          | none => { s with pending := s.pending.eraseIdx index }
          | some row =>
              { s with
                channels := setChannel s.channels action.channelId
                  (some (applyDisableAction row action now).1)
                pending := s.pending.eraseIdx index
                applied := ⟨row, (applyDisableAction row action now).1,
                  (applyDisableAction row action now).2⟩ :: s.applied }
  | .administer channelId row => { s with channels := setChannel s.channels channelId row }

def system (channels : Int → Option ChannelRow) : TSys State Action where
  init :=
    { history := [], tracker := ConsecutiveErrorTracker.empty, channels := channels, pending := [],
      applied := [] }
  step := step fingerprint config

/-! ## What is asked of a run -/

namespace Attempt

def FailedWith (status : Nat) (attempt : Attempt) : Prop := attempt.outcome = .failed (some status)

instance (status : Nat) (attempt : Attempt) : Decidable (attempt.FailedWith status) :=
  inferInstanceAs (Decidable (_ = _))

/-- The identity of the credential it carries, if it carries one. -/
def identity (attempt : Attempt) : Option String := (attempt.observation fingerprint).identity fingerprint

/-- Attempts of one scope: a credential of a channel, or all attempts of a
channel that carry none. -/
def SameScope (attempt other : Attempt) : Prop :=
  other.channelId = attempt.channelId ∧ other.identity fingerprint = attempt.identity fingerprint

instance (attempt other : Attempt) : Decidable (attempt.SameScope fingerprint other) :=
  inferInstanceAs (Decidable (_ ∧ _))

end Attempt

/-- The last attempts of a scope all failed with a status, without an action
since. -/
def FailedInARow (attempt : Attempt) (status times : Nat) (history : List Entry) : Prop :=
  let last := (history.filter fun entry => attempt.SameScope fingerprint entry.attempt).take times
  last.length = times ∧ ∀ entry ∈ last, entry.attempt.FailedWith status ∧ entry.decided = none

/-- Every action follows as many failures in a row as the policy says. -/
def Justified : List Entry → Prop
  | [] => True
  | entry :: history =>
      (entry.decided.isSome = true → ∃ status threshold, entry.attempt.FailedWith status ∧
        config.threshold status = some threshold ∧
        FailedInARow fingerprint entry.attempt status (threshold.toNat - 1) history) ∧
      Justified history

/-- A step disables the channel exactly with its last key, and says so. -/
structure Applied.Sound (step : Applied) : Prop where
  announced : (∃ event, step.result = .event event) ↔ step.before.IsEnabled ∧ ¬step.after.IsEnabled
  onlyExhausted : step.before.IsEnabled → ¬step.after.IsEnabled → step.after.enabledKeys = []
  exhausted : step.before.IsEnabled → step.before.enabledKeys ≠ [] → step.after.enabledKeys = [] →
    ¬step.after.IsEnabled

/-- The worker acts when the tracker does, with reason, and steps are sound. -/
structure State.Sound (s : State) : Prop where
  agrees : ∀ entry ∈ s.history, entry.decided = entry.reference
  justified : Justified fingerprint config s.history
  applied : ∀ step ∈ s.applied, step.Sound

/-! ## When a run does what is asked -/

/-- What the query reads beside the attempt itself. -/
def queried (attempt : Attempt) (history : List Entry) (limit : Nat) : List Entry :=
  (history.filter fun entry => entry.attempt.channelId = attempt.channelId ∧
    (attempt.identity fingerprint = none ∨
      (entry.attempt.row fingerprint).credentialIdentity = attempt.identity fingerprint)).take limit

/-- A failure does not complete a row of failures that drew an action before, and
one without a credential does not count failures of credentials, unless its own
row of failures is broken anyway. -/
structure CountsAfresh (s : State) (attempt : Attempt) (status times : Nat) : Prop where
  undrawn :
    let last := queried fingerprint attempt s.history times
    last.length = times → (∀ entry ∈ last, entry.attempt.FailedWith status) →
      ∀ entry ∈ last, entry.decided = none
  unmixed :
    let last := queried fingerprint attempt s.history times
    attempt.identity fingerprint = none →
      (∀ entry ∈ last, entry.attempt.identity fingerprint = none ∨ entry.attempt.outcome = .succeeded →
        entry.attempt.FailedWith status) →
      ∀ entry ∈ last, entry.attempt.identity fingerprint = none

/-- The condition on a step. An action without a credential meets no enabled
channel with an enabled key. -/
def Careful (s : State) : Action → Prop
  | .attempt attempt => ∀ (status : Nat) (threshold : Int), attempt.FailedWith status →
      config.threshold status = some threshold →
        CountsAfresh fingerprint s attempt status (threshold.toNat - 1)
  | .apply index _ => ∀ (channelId : Int) (status : Nat) (threshold actualCount : Int) (row : ChannelRow),
      s.pending[index]? = some (.channel channelId status threshold actualCount) →
        s.channels channelId = some row → row.IsEnabled → row.enabledKeys = []
  | .administer _ _ => True

end Conduit.AutoDisable
