import Mathlib.Data.List.Basic

/-!
# Counting consecutive failures

A policy names provider statuses and how often each may occur in a row. The
worker counts in the table of executions, where every process sees the same
rows; a tracker in memory, kept for the tests, states what is counted.
-/

namespace Conduit.AutoDisable

/-! ## The policy -/

structure AutoDisableStatus where
  status : Nat
  times : Int

structure AutoDisableConfig where
  enabled : Bool
  statuses : List AutoDisableStatus

/-- The loop of `validate_auto_disable_config`. -/
def validateStatuses (index : Nat) (seen : List Nat) : List AutoDisableStatus → Except String Unit
  | [] => .ok ()
  | rule :: rules =>
      if ¬(400 ≤ rule.status ∧ rule.status ≤ 599) then
        .error (s!"invalid auto-disable policy: statuses[{index}].status must be between 400 and 599")
      else if ¬(1 ≤ rule.times ∧ rule.times ≤ 100) then
        .error (s!"invalid auto-disable policy: statuses[{index}].times must be between 1 and 100")
      else if rule.status ∈ seen then
        .error (s!"invalid auto-disable policy: duplicate status {rule.status}")
      else validateStatuses (index + 1) (rule.status :: seen) rules

def validateAutoDisableConfig (config : AutoDisableConfig) : Except String Unit :=
  validateStatuses 0 [] config.statuses

/-- How often a status may occur in a row. -/
def AutoDisableConfig.threshold (config : AutoDisableConfig) (status : Nat) : Option Int :=
  (config.statuses.find? fun rule => rule.status = status).map AutoDisableStatus.times

theorem validateStatuses_times {index : Nat} {seen : List Nat} {rules : List AutoDisableStatus}
    (h : validateStatuses index seen rules = .ok ()) : ∀ rule ∈ rules, 1 ≤ rule.times := by
  induction rules generalizing index seen with
  | nil => exact fun rule hmem => absurd hmem (by simp)
  | cons first rules ih =>
      unfold validateStatuses at h
      by_cases hstatus : 400 ≤ first.status ∧ first.status ≤ 599
      · by_cases htimes : 1 ≤ first.times ∧ first.times ≤ 100
        · by_cases hseen : first.status ∈ seen
          · simp [hstatus, htimes, hseen] at h
          · intro rule hmem
            rcases List.mem_cons.mp hmem with rfl | hmem
            · exact htimes.1
            · rw [if_neg (not_not.mpr hstatus), if_neg (not_not.mpr htimes), if_neg hseen] at h
              exact ih h rule hmem
        · simp [hstatus, htimes] at h
      · simp [hstatus] at h

/-- A threshold of a valid policy is positive. -/
theorem threshold_pos {config : AutoDisableConfig} (h : validateAutoDisableConfig config = .ok ())
    {status : Nat} {threshold : Int} (hthreshold : config.threshold status = some threshold) :
    1 ≤ threshold := by
  unfold AutoDisableConfig.threshold at hthreshold
  obtain ⟨rule, hfind, rfl⟩ := Option.map_eq_some_iff.mp hthreshold
  exact validateStatuses_times h rule (List.mem_of_find?_eq_some hfind)

/-! ## Attempts -/

inductive AttemptObservationOutcome
  | succeeded
  | failed (providerStatus : Option Nat)
  deriving DecidableEq

structure AttemptObservation where
  channelId : Int
  credential : Option String
  credentialIdentity : Option String
  outcome : AttemptObservationOutcome

/-- What the queries read of an execution. -/
structure RequestExecutionRow where
  channelId : Int
  credentialIdentity : Option String
  status : String
  responseStatusCode : Option Nat

/-- `credential_fingerprint`: no key has the fingerprint of the empty text. -/
structure Fingerprint where
  digest : String → String
  digest_ne_empty : ∀ secret : String, secret ≠ "" → digest secret ≠ digest ""

inductive DisableAction
  | channel (channelId : Int) (status : Nat) (threshold actualCount : Int)
  | credential (channelId : Int) (credential : String) (status : Nat) (threshold actualCount : Int)
  deriving DecidableEq

/-- The credential of an observation, if it is not empty. -/
def AttemptObservation.usedCredential (observation : AttemptObservation) : Option String :=
  observation.credential.filter fun credential => credential ≠ ""

/-- The identity of that credential. -/
def AttemptObservation.identity (fingerprint : Fingerprint) (observation : AttemptObservation) :
    Option String :=
  observation.usedCredential.map fun credential =>
    observation.credentialIdentity.getD (fingerprint.digest credential)

/-- The newest rows of a channel, or of one of its credentials. -/
def queriedRows (rows : List RequestExecutionRow) (channelId : Int) (identity : Option String)
    (limit : Nat) : List RequestExecutionRow :=
  (rows.filter fun row =>
    row.channelId = channelId ∧ (identity = none ∨ row.credentialIdentity = identity)).take limit

/-- `persistent_disable_action`, the rows newest first. -/
def persistentDisableAction (fingerprint : Fingerprint) (rows : List RequestExecutionRow)
    (channelId : Int) (status : Nat) (observation : AttemptObservation) (config : AutoDisableConfig) :
    Option DisableAction :=
  if config.enabled = false then none
  else
    match config.threshold status with
    | none => none
    | some threshold =>
        let counted := (queriedRows rows channelId (observation.identity fingerprint)
          threshold.toNat).takeWhile fun row =>
            row.status = "failed" ∧ row.responseStatusCode = some status
        if (counted.length : Int) < threshold then none
        else
          match observation.usedCredential with
          | some credential =>
              some (.credential channelId credential status threshold counted.length)
          | none => some (.channel channelId status threshold counted.length)

/-- What the worker decides about an observation. -/
def evaluate (fingerprint : Fingerprint) (rows : List RequestExecutionRow)
    (observation : AttemptObservation) (config : AutoDisableConfig) : Option DisableAction :=
  match observation.outcome with
  | .succeeded => none
  | .failed (some status) =>
      persistentDisableAction fingerprint rows observation.channelId status observation config
  | .failed none => none

/-! ## The tracker -/

inductive ErrorCounterKey
  | channel (channelId : Int) (status : Nat)
  | credential (channelId : Int) (identity : String) (status : Nat)
  deriving DecidableEq

/-- A counter that is not in the map is zero. -/
structure ConsecutiveErrorTracker where
  counts : ErrorCounterKey → Nat

namespace ConsecutiveErrorTracker

def empty : ConsecutiveErrorTracker := ⟨fun _ => 0⟩

def retain (tracker : ConsecutiveErrorTracker) (keep : ErrorCounterKey → Bool) :
    ConsecutiveErrorTracker :=
  ⟨fun key => if keep key then tracker.counts key else 0⟩

def increment (tracker : ConsecutiveErrorTracker) (key : ErrorCounterKey) : ConsecutiveErrorTracker :=
  ⟨fun other => if other = key then tracker.counts key + 1 else tracker.counts other⟩

/-- Whether a success leaves a counter alone. -/
def survivesSuccess (channelId : Int) (successfulIdentity : Option String) : ErrorCounterKey → Bool
  | .channel tracked _ => tracked ≠ channelId
  | .credential tracked identity _ => tracked ≠ channelId ∨ successfulIdentity ≠ some identity

def recordSuccess (tracker : ConsecutiveErrorTracker) (fingerprint : Fingerprint) (channelId : Int)
    (credentialIdentity credential : Option String) : ConsecutiveErrorTracker :=
  tracker.retain
    (survivesSuccess channelId (credentialIdentity.or (credential.map fingerprint.digest)))

/-- Whether a failure with a status leaves a counter alone. -/
def survivesFailure (channelId : Int) (credentialIdentity : Option String)
    (matchingStatus : Option Nat) : ErrorCounterKey → Bool
  | .channel tracked status =>
      credentialIdentity.isSome ∨ tracked ≠ channelId ∨ matchingStatus = some status
  | .credential tracked identity status =>
      credentialIdentity ≠ some identity ∨ tracked ≠ channelId ∨ matchingStatus = some status

def resetScopeExceptStatus (tracker : ConsecutiveErrorTracker) (fingerprint : Fingerprint)
    (channelId : Int) (observation : AttemptObservation) (matchingStatus : Option Nat) :
    ConsecutiveErrorTracker :=
  tracker.retain (survivesFailure channelId (observation.identity fingerprint) matchingStatus)

def recordInterruption (tracker : ConsecutiveErrorTracker) (fingerprint : Fingerprint)
    (channelId : Int) (observation : AttemptObservation) : ConsecutiveErrorTracker :=
  tracker.resetScopeExceptStatus fingerprint channelId observation none

/-- The counter of a failure. -/
def counterKey (fingerprint : Fingerprint) (channelId : Int) (status : Nat)
    (observation : AttemptObservation) : ErrorCounterKey :=
  match observation.identity fingerprint with
  | some identity => .credential channelId identity status
  | none => .channel channelId status

/-- Whether an action leaves a counter alone: it clears those of its scope. -/
def survivesAction : ErrorCounterKey → ErrorCounterKey → Bool
  | .channel acted _, .channel tracked _ => tracked ≠ acted
  | .credential acted actedIdentity _, .credential tracked identity _ =>
      ¬(tracked = acted ∧ identity = actedIdentity)
  | .channel _ _, .credential _ _ _ => true
  | .credential _ _ _, .channel _ _ => true

/-- The action of a counter. -/
def scopedAction (key : ErrorCounterKey) (channelId : Int) (credential : String) (status : Nat)
    (threshold actualCount : Int) : DisableAction :=
  match key with
  | .channel _ _ => .channel channelId status threshold actualCount
  | .credential _ _ _ => .credential channelId credential status threshold actualCount

def recordFailure (tracker : ConsecutiveErrorTracker) (fingerprint : Fingerprint) (channelId : Int)
    (status : Nat) (observation : AttemptObservation) (config : AutoDisableConfig) :
    ConsecutiveErrorTracker × Option DisableAction :=
  if config.enabled = false then (empty, none)
  else
    let reset := tracker.resetScopeExceptStatus fingerprint channelId observation (some status)
    match config.threshold status with
    | none => (reset, none)
    | some threshold =>
        let key := counterKey fingerprint channelId status observation
        let counted := reset.increment key
        let actualCount : Int := counted.counts key
        if actualCount < threshold then (counted, none)
        else
          (counted.retain (survivesAction key),
            some (scopedAction key channelId (observation.usedCredential.getD "") status threshold
              actualCount))

/-- What the tracker does with an observation. -/
def observe (tracker : ConsecutiveErrorTracker) (fingerprint : Fingerprint)
    (observation : AttemptObservation) (config : AutoDisableConfig) :
    ConsecutiveErrorTracker × Option DisableAction :=
  match observation.outcome with
  | .succeeded =>
      (tracker.recordSuccess fingerprint observation.channelId observation.credentialIdentity
        observation.credential, none)
  | .failed (some status) =>
      tracker.recordFailure fingerprint observation.channelId status observation config
  | .failed none => (tracker.recordInterruption fingerprint observation.channelId observation, none)

end ConsecutiveErrorTracker

end Conduit.AutoDisable
