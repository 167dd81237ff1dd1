import Conduit.AutoDisable.Logic.Tracker

/-!
# The query counts what the tracker counts

The worker asks for the newest rows of a scope and looks whether they all
failed. Where they drew no action and belong to the scope, that is the streak
of the tracker.
-/

namespace Conduit.AutoDisable

open Base

variable {fingerprint : Fingerprint} {config : AutoDisableConfig}

/-! ## The query -/

/-- The attempts that a query for an attempt may return. -/
def isQueried (fingerprint : Fingerprint) (attempt : Attempt) (entry : Entry) : Bool :=
  entry.attempt.channelId = attempt.channelId ∧ (attempt.identity fingerprint = none ∨
    (entry.attempt.row fingerprint).credentialIdentity = attempt.identity fingerprint)

theorem queried_eq (attempt : Attempt) (history : List Entry) (limit : Nat) :
    queried fingerprint attempt history limit =
      (history.filter (isQueried fingerprint attempt)).take limit := rfl

/-- The query returns the row of the attempt itself and the rows before it. -/
theorem queriedRows_eq (attempt : Attempt) (history : List Entry) (limit : Nat) :
    queriedRows (attempt.row fingerprint :: history.map fun entry => entry.attempt.row fingerprint)
        attempt.channelId (attempt.identity fingerprint) (limit + 1) =
      attempt.row fingerprint ::
        (queried fingerprint attempt history limit).map fun entry => entry.attempt.row fingerprint := by
  have hself : attempt.identity fingerprint = none ∨
      (attempt.row fingerprint).credentialIdentity = attempt.identity fingerprint := by
    cases hidentity : attempt.identity fingerprint with
    | none => exact .inl rfl
    | some identity =>
        have hne : identity ≠ fingerprint.digest "" := by
          rintro rfl
          exact identity_ne_empty fingerprint attempt hidentity
        exact .inr ((row_identity_iff fingerprint attempt hne).mpr hidentity)
  unfold queriedRows queried
  rw [List.filter_cons_of_pos (by exact decide_eq_true ⟨rfl, hself⟩), List.take_succ_cons,
    List.filter_map, ← List.map_take]
  rfl

/-- The failures that the query counts beside the attempt itself. -/
def failures (fingerprint : Fingerprint) (attempt : Attempt) (status : Nat) (history : List Entry)
    (limit : Nat) : Nat :=
  streak (fun entry => decide (entry.attempt.FailedWith status))
    (queried fingerprint attempt history limit)

theorem length_counted (attempt : Attempt) {status : Nat} (hfailed : attempt.FailedWith status)
    (history : List Entry) (limit : Nat) :
    ((queriedRows (attempt.row fingerprint :: history.map fun entry => entry.attempt.row fingerprint)
      attempt.channelId (attempt.identity fingerprint) (limit + 1)).takeWhile fun row =>
        decide (row.status = "failed" ∧ row.responseStatusCode = some status)).length =
      failures fingerprint attempt status history limit + 1 := by
  have hself := decide_eq_true ((row_failed_iff fingerprint attempt status).mpr hfailed)
  have hrows : ∀ entry : Entry, decide ((entry.attempt.row fingerprint).status = "failed" ∧
      (entry.attempt.row fingerprint).responseStatusCode = some status) =
        decide (entry.attempt.FailedWith status) :=
    fun entry => decide_eq_decide.mpr (row_failed_iff fingerprint entry.attempt status)
  change streak _ _ = _
  rw [queriedRows_eq, streak_cons, if_pos hself, streak_map]
  unfold failures
  simp only [hrows]

/-- The action on the scope of an attempt. -/
def scopeAction (fingerprint : Fingerprint) (attempt : Attempt) (status : Nat) (threshold : Int) :
    DisableAction :=
  ConsecutiveErrorTracker.scopedAction (ConsecutiveErrorTracker.counterKey fingerprint
    attempt.channelId status (attempt.observation fingerprint)) attempt.channelId
    ((attempt.observation fingerprint).usedCredential.getD "") status threshold threshold

/-- The worker acts if all rows that it asks for failed. -/
theorem evaluate_named (henabled : config.enabled = true) {attempt : Attempt} {status : Nat}
    (hfailed : attempt.FailedWith status) {threshold : Int}
    (hrule : config.threshold status = some threshold) (hpos : 1 ≤ threshold) (history : List Entry) :
    evaluate fingerprint (attempt.row fingerprint :: history.map fun entry => entry.attempt.row fingerprint)
        (attempt.observation fingerprint) config =
      if threshold.toNat - 1 ≤ failures fingerprint attempt status history (threshold.toNat - 1) then
        some (scopeAction fingerprint attempt status threshold)
      else none := by
  have hlimit : threshold.toNat = threshold.toNat - 1 + 1 := by omega
  have hlength := @length_counted fingerprint attempt status hfailed history
    (threshold.toNat - 1)
  have hle : failures fingerprint attempt status history (threshold.toNat - 1) ≤ threshold.toNat - 1 :=
    Nat.le_trans (streak_le_length _ _) (List.length_take_le _ _)
  unfold evaluate
  rw [show (attempt.observation fingerprint).outcome = .failed (some status) from hfailed]
  unfold persistentDisableAction
  dsimp only
  rw [if_neg (by rw [henabled]; simp), hrule]
  dsimp only
  rw [show queriedRows _ (attempt.observation fingerprint).channelId
      ((attempt.observation fingerprint).identity fingerprint) threshold.toNat = queriedRows
        (attempt.row fingerprint :: history.map fun entry => entry.attempt.row fingerprint)
        attempt.channelId (attempt.identity fingerprint) (threshold.toNat - 1 + 1) by rw [← hlimit]; rfl,
    hlength]
  by_cases hfull : threshold.toNat - 1 ≤ failures fingerprint attempt status history (threshold.toNat - 1)
  · have hcount : ((failures fingerprint attempt status history (threshold.toNat - 1) + 1 : Nat) : Int) =
        threshold := by omega
    rw [if_pos hfull, hcount, if_neg (by omega)]
    unfold scopeAction ConsecutiveErrorTracker.scopedAction ConsecutiveErrorTracker.counterKey
      AttemptObservation.identity
    cases (attempt.observation fingerprint).usedCredential <;> rfl
  · rw [if_neg hfull, if_pos (by omega)]

/-- An attempt that no rule names draws no action. -/
theorem evaluate_unnamed {attempt : Attempt}
    (h : ∀ status, attempt.FailedWith status → config.threshold status = none)
    (rows : List RequestExecutionRow) :
    evaluate fingerprint rows (attempt.observation fingerprint) config = none := by
  unfold evaluate
  cases houtcome : (attempt.observation fingerprint).outcome with
  | succeeded => rfl
  | failed outcome =>
      cases outcome with
      | none => rfl
      | some status =>
          dsimp only
          unfold persistentDisableAction
          rw [h status houtcome]
          split <;> rfl

/-! ## The tracker -/

theorem reference_named (henabled : config.enabled = true) {tracker : ConsecutiveErrorTracker}
    {history : List Entry} (htracking : Tracking fingerprint config tracker history)
    {attempt : Attempt} {status : Nat} (hfailed : attempt.FailedWith status) {threshold : Int}
    (hrule : config.threshold status = some threshold) :
    (tracker.observe fingerprint (attempt.observation fingerprint) config).2 =
      if threshold.toNat - 1 ≤ counted fingerprint (ConsecutiveErrorTracker.counterKey fingerprint
          attempt.channelId status (attempt.observation fingerprint)) history then
        some (scopeAction fingerprint attempt status threshold)
      else none := by
  have hstatus : config.threshold (ConsecutiveErrorTracker.counterKey fingerprint attempt.channelId
      status (attempt.observation fingerprint)).status = some threshold := by
    rw [status_counterKey]
    exact hrule
  have hcounts := htracking.counts _ _ hstatus
  have hbelow := htracking.below _ _ hstatus
  have hobserve := @observe_named fingerprint config tracker henabled _ _ hfailed _ hrule
  dsimp only at hobserve
  rw [hobserve, ← hcounts]
  by_cases hfull : threshold.toNat - 1 ≤ tracker.counts (ConsecutiveErrorTracker.counterKey fingerprint
      attempt.channelId status (attempt.observation fingerprint))
  · rw [if_pos hfull, if_neg (by omega)]
    unfold scopeAction
    rw [show ((tracker.counts (ConsecutiveErrorTracker.counterKey fingerprint attempt.channelId status
      (attempt.observation fingerprint)) + 1 : Nat) : Int) = threshold by omega]
  · rw [if_neg hfull, if_pos (by omega)]

theorem reference_unnamed (henabled : config.enabled = true) {tracker : ConsecutiveErrorTracker}
    {attempt : Attempt} (h : ∀ status, attempt.FailedWith status → config.threshold status = none) :
    (tracker.observe fingerprint (attempt.observation fingerprint) config).2 = none := by
  cases houtcome : attempt.outcome with
  | succeeded =>
      unfold ConsecutiveErrorTracker.observe
      rw [show (attempt.observation fingerprint).outcome = .succeeded from houtcome]
  | failed outcome =>
      rw [observe_unnamed henabled houtcome]
      cases outcome with
      | none => rfl
      | some status => exact h status houtcome

end Conduit.AutoDisable
