import Conduit.AutoDisable.System
import Conduit.Base.Streak

/-!
# The tracker counts streaks

While the worker and the tracker agree, a counter of the tracker is the length
of the streak of failures that drew no action, among the attempts that touch
it.
-/

namespace Conduit.AutoDisable

open Base

/-! ## Identities -/

section Identities

variable (fingerprint : Fingerprint)

theorem identity_eq (attempt : Attempt) : attempt.identity fingerprint =
    (attempt.credential.filter fun credential => credential ≠ "").map fingerprint.digest := by
  unfold Attempt.identity AttemptObservation.identity AttemptObservation.usedCredential
    Attempt.observation
  cases attempt.credential with
  | none => rfl
  | some credential =>
      rw [Option.filter_some]
      split <;> simp

/-- No credential has the identity of the empty text. -/
theorem identity_ne_empty (attempt : Attempt) :
    attempt.identity fingerprint ≠ some (fingerprint.digest "") := by
  rw [identity_eq]
  intro h
  obtain ⟨credential, hcredential, hdigest⟩ := Option.map_eq_some_iff.mp h
  have hne := (Option.filter_eq_some_iff.mp hcredential).2
  exact fingerprint.digest_ne_empty credential (by simpa using hne) hdigest

/-- The row of an attempt has the identity of a credential exactly if the
attempt has. -/
theorem row_identity_iff (attempt : Attempt) {identity : String}
    (h : identity ≠ fingerprint.digest "") :
    (attempt.row fingerprint).credentialIdentity = some identity ↔
      attempt.identity fingerprint = some identity := by
  rw [identity_eq]
  unfold Attempt.row
  cases attempt.credential with
  | none => simp
  | some credential =>
      by_cases hempty : credential = ""
      · subst hempty
        simp [Ne.symm h]
      · simp [hempty]

theorem row_failed_iff (attempt : Attempt) (status : Nat) :
    ((attempt.row fingerprint).status = "failed" ∧
      (attempt.row fingerprint).responseStatusCode = some status) ↔ attempt.FailedWith status := by
  unfold Attempt.row Attempt.FailedWith
  cases attempt.outcome <;> simp

end Identities

/-! ## Counters -/

namespace ErrorCounterKey

def status : ErrorCounterKey → Nat
  | .channel _ status => status
  | .credential _ _ status => status

/-- The attempts that a counter takes notice of. -/
def touchedBy (fingerprint : Fingerprint) : ErrorCounterKey → Attempt → Bool
  | .channel channelId _, attempt => attempt.channelId = channelId ∧
      (attempt.identity fingerprint = none ∨ attempt.outcome = .succeeded)
  | .credential channelId identity _, attempt => attempt.channelId = channelId ∧
      attempt.identity fingerprint = some identity

end ErrorCounterKey

/-- A failure that is counted: it drew no action. -/
def isCounted (status : Nat) (entry : Entry) : Bool :=
  entry.attempt.FailedWith status ∧ entry.decided = none

/-- What a counter should be. -/
def counted (fingerprint : Fingerprint) (key : ErrorCounterKey) (history : List Entry) : Nat :=
  streak (isCounted key.status) (history.filter fun entry => key.touchedBy fingerprint entry.attempt)

/-- The counters of the statuses with a rule are streaks, below the threshold. -/
structure Tracking (fingerprint : Fingerprint) (config : AutoDisableConfig)
    (tracker : ConsecutiveErrorTracker) (history : List Entry) : Prop where
  counts : ∀ key threshold, config.threshold key.status = some threshold →
    tracker.counts key = counted fingerprint key history
  below : ∀ key threshold, config.threshold key.status = some threshold →
    (tracker.counts key : Int) < threshold

section Counters

variable {fingerprint : Fingerprint} {config : AutoDisableConfig} {history : List Entry}
  {key : ErrorCounterKey} {entry : Entry}

theorem counted_untouched (h : key.touchedBy fingerprint entry.attempt = false) :
    counted fingerprint key (entry :: history) = counted fingerprint key history := by
  unfold counted
  rw [List.filter_cons_of_neg (by rw [h]; simp)]

theorem counted_touched (h : key.touchedBy fingerprint entry.attempt = true) :
    counted fingerprint key (entry :: history) =
      if isCounted key.status entry = true then counted fingerprint key history + 1 else 0 := by
  unfold counted
  rw [List.filter_cons_of_pos (by rw [h]), streak_cons]

/-- No attempt touches the counter of the empty text. -/
theorem counted_empty (channelId : Int) (status : Nat) (history : List Entry) :
    counted fingerprint (.credential channelId (fingerprint.digest "") status) history = 0 := by
  have hnone : (history.filter fun entry => ErrorCounterKey.touchedBy fingerprint
      (.credential channelId (fingerprint.digest "") status) entry.attempt) = [] := by
    rw [List.filter_eq_nil_iff]
    intro entry _ htouched
    unfold ErrorCounterKey.touchedBy at htouched
    exact identity_ne_empty fingerprint entry.attempt (of_decide_eq_true htouched).2
  unfold counted
  rw [hnone]
  rfl

/-- A failure leaves the counters alone that it does not touch. -/
theorem survivesFailure_untouched {attempt : Attempt} (hfailed : attempt.outcome ≠ .succeeded)
    (h : key.touchedBy fingerprint attempt = false) (matchingStatus : Option Nat) :
    ConsecutiveErrorTracker.survivesFailure attempt.channelId (attempt.identity fingerprint)
      matchingStatus key = true := by
  unfold ErrorCounterKey.touchedBy at h
  unfold ConsecutiveErrorTracker.survivesFailure
  cases key with
  | channel channelId status =>
      simp only [decide_eq_false_iff_not, not_and_or, hfailed, or_false] at h
      simp only [decide_eq_true_eq]
      rcases h with hchannel | hidentity
      · exact .inr (.inl fun hsame => hchannel hsame.symm)
      · exact .inl (Option.isSome_iff_ne_none.mpr hidentity)
  | credential channelId identity status =>
      simp only [decide_eq_false_iff_not, not_and_or] at h
      simp only [decide_eq_true_eq]
      rcases h with hchannel | hidentity
      · exact .inr (.inl fun hsame => hchannel hsame.symm)
      · exact .inl hidentity

/-- It clears those that it touches, but for those of its status. -/
theorem survivesFailure_touched {attempt : Attempt} (hfailed : attempt.outcome ≠ .succeeded)
    (h : key.touchedBy fingerprint attempt = true) (matchingStatus : Option Nat) :
    ConsecutiveErrorTracker.survivesFailure attempt.channelId (attempt.identity fingerprint)
      matchingStatus key = decide (matchingStatus = some key.status) := by
  unfold ErrorCounterKey.touchedBy at h
  unfold ConsecutiveErrorTracker.survivesFailure ErrorCounterKey.status
  cases key with
  | channel channelId status =>
      simp only [decide_eq_true_eq, hfailed, or_false] at h
      obtain ⟨rfl, hidentity⟩ := h
      simp [hidentity]
  | credential channelId identity status =>
      simp only [decide_eq_true_eq] at h
      obtain ⟨rfl, hidentity⟩ := h
      simp [hidentity]

/-- A failure touches its own counter. -/
theorem touchedBy_counterKey (attempt : Attempt) (status : Nat) :
    (ConsecutiveErrorTracker.counterKey fingerprint attempt.channelId status
      (attempt.observation fingerprint)).touchedBy fingerprint attempt = true := by
  unfold ConsecutiveErrorTracker.counterKey
  cases hidentity : (attempt.observation fingerprint).identity fingerprint with
  | none => exact decide_eq_true ⟨rfl, .inl hidentity⟩
  | some identity => exact decide_eq_true ⟨rfl, hidentity⟩

theorem status_counterKey (channelId : Int) (status : Nat) (observation : AttemptObservation) :
    (ConsecutiveErrorTracker.counterKey fingerprint channelId status observation).status = status := by
  unfold ConsecutiveErrorTracker.counterKey
  split <;> rfl

/-- No other counter of the status is touched by a failure. -/
theorem eq_counterKey {attempt : Attempt} (hfailed : attempt.outcome ≠ .succeeded)
    (h : key.touchedBy fingerprint attempt = true) :
    key = ConsecutiveErrorTracker.counterKey fingerprint attempt.channelId key.status
      (attempt.observation fingerprint) := by
  unfold ErrorCounterKey.touchedBy at h
  unfold ConsecutiveErrorTracker.counterKey ErrorCounterKey.status
  cases key with
  | channel channelId status =>
      simp only [decide_eq_true_eq, hfailed, or_false] at h
      obtain ⟨rfl, hidentity⟩ := h
      rw [show (attempt.observation fingerprint).identity fingerprint = none from hidentity]
  | credential channelId identity status =>
      simp only [decide_eq_true_eq] at h
      obtain ⟨rfl, hidentity⟩ := h
      rw [show (attempt.observation fingerprint).identity fingerprint = some identity from hidentity]

/-- An action leaves the counters alone that its attempt does not touch. -/
theorem survivesAction_untouched {attempt : Attempt}
    (h : key.touchedBy fingerprint attempt = false) (status : Nat) :
    ConsecutiveErrorTracker.survivesAction (ConsecutiveErrorTracker.counterKey fingerprint
      attempt.channelId status (attempt.observation fingerprint)) key = true := by
  unfold ErrorCounterKey.touchedBy at h
  unfold ConsecutiveErrorTracker.counterKey
  cases hidentity : (attempt.observation fingerprint).identity fingerprint with
  | none =>
      have hattempt : attempt.identity fingerprint = none := hidentity
      cases key with
      | channel channelId _ =>
          simp only [hattempt, true_or, and_true, decide_eq_false_iff_not] at h
          exact decide_eq_true fun hsame => h hsame.symm
      | credential _ _ _ => rfl
  | some identity =>
      have hattempt : attempt.identity fingerprint = some identity := hidentity
      cases key with
      | channel _ _ => rfl
      | credential channelId other _ =>
          simp only [hattempt, decide_eq_false_iff_not] at h
          refine decide_eq_true fun hsame => h ⟨hsame.1.symm, by rw [hsame.2]⟩

theorem survivesAction_touched {attempt : Attempt} (hfailed : attempt.outcome ≠ .succeeded)
    (h : key.touchedBy fingerprint attempt = true) (status : Nat) :
    ConsecutiveErrorTracker.survivesAction (ConsecutiveErrorTracker.counterKey fingerprint
      attempt.channelId status (attempt.observation fingerprint)) key = false := by
  rw [eq_counterKey hfailed h]
  unfold ConsecutiveErrorTracker.counterKey
  cases (attempt.observation fingerprint).identity fingerprint with
  | none => exact decide_eq_false (by simp)
  | some identity => exact decide_eq_false (by simp)

/-! ## One attempt -/

/-- A success clears the counters that it touches, and those alone. -/
theorem counts_success {tracker : ConsecutiveErrorTracker} (h : Tracking fingerprint config tracker history)
    {attempt : Attempt} (hsucceeded : attempt.outcome = .succeeded) {threshold : Int}
    (hrule : config.threshold key.status = some threshold) :
    (tracker.observe fingerprint (attempt.observation fingerprint) config).1.counts key =
      if key.touchedBy fingerprint attempt = true then 0 else counted fingerprint key history := by
  have hobserve : (tracker.observe fingerprint (attempt.observation fingerprint) config).1 =
      tracker.recordSuccess fingerprint attempt.channelId (attempt.credential.map fingerprint.digest)
        attempt.credential := by
    unfold ConsecutiveErrorTracker.observe
    rw [show (attempt.observation fingerprint).outcome = .succeeded from hsucceeded]
    rfl
  rw [hobserve]
  unfold ConsecutiveErrorTracker.recordSuccess ConsecutiveErrorTracker.retain
  dsimp only
  rw [Option.or_self, h.counts key threshold hrule]
  cases key with
  | channel channelId status =>
      have hsurvives : ConsecutiveErrorTracker.survivesSuccess attempt.channelId
          (attempt.credential.map fingerprint.digest) (.channel channelId status) =
          !ErrorCounterKey.touchedBy fingerprint (.channel channelId status) attempt := by
        unfold ConsecutiveErrorTracker.survivesSuccess ErrorCounterKey.touchedBy
        simp [hsucceeded, eq_comm]
      rw [hsurvives]
      cases ErrorCounterKey.touchedBy fingerprint (.channel channelId status) attempt <;> rfl
  | credential channelId identity status =>
      by_cases hempty : identity = fingerprint.digest ""
      · subst hempty
        rw [counted_empty]
        split <;> split <;> rfl
      · have hidentity := row_identity_iff fingerprint attempt hempty
        have hsurvives : ConsecutiveErrorTracker.survivesSuccess attempt.channelId
            (attempt.credential.map fingerprint.digest) (.credential channelId identity status) =
            !ErrorCounterKey.touchedBy fingerprint (.credential channelId identity status) attempt := by
          unfold ConsecutiveErrorTracker.survivesSuccess ErrorCounterKey.touchedBy
          dsimp only
          rw [Bool.eq_iff_iff, Bool.not_eq_true', decide_eq_true_eq, decide_eq_false_iff_not,
            not_and_or, ← hidentity]
          exact or_congr (not_congr eq_comm) Iff.rfl
        rw [hsurvives]
        cases ErrorCounterKey.touchedBy fingerprint (.credential channelId identity status) attempt <;>
          rfl

/-- What a failure leaves of a counter before it is counted. -/
theorem counts_reset (tracker : ConsecutiveErrorTracker) {attempt : Attempt}
    (hfailed : attempt.outcome ≠ .succeeded) (matchingStatus : Option Nat) :
    (tracker.resetScopeExceptStatus fingerprint attempt.channelId (attempt.observation fingerprint)
      matchingStatus).counts key =
      if key.touchedBy fingerprint attempt = true ∧ matchingStatus ≠ some key.status then 0
      else tracker.counts key := by
  unfold ConsecutiveErrorTracker.resetScopeExceptStatus ConsecutiveErrorTracker.retain
  dsimp only
  change (if ConsecutiveErrorTracker.survivesFailure attempt.channelId (attempt.identity fingerprint)
    matchingStatus key = true then _ else _) = _
  cases htouched : key.touchedBy fingerprint attempt with
  | false =>
      rw [survivesFailure_untouched hfailed htouched]
      simp
  | true =>
      rw [survivesFailure_touched hfailed htouched]
      by_cases hmatching : matchingStatus = some key.status <;> simp [hmatching]

/-- A failure that no rule names. -/
theorem observe_unnamed {tracker : ConsecutiveErrorTracker} (henabled : config.enabled = true)
    {attempt : Attempt} {outcome : Option Nat} (hfailed : attempt.outcome = .failed outcome)
    (hrule : outcome.bind config.threshold = none) :
    tracker.observe fingerprint (attempt.observation fingerprint) config =
      (tracker.resetScopeExceptStatus fingerprint attempt.channelId (attempt.observation fingerprint)
        outcome, none) := by
  unfold ConsecutiveErrorTracker.observe
  rw [show (attempt.observation fingerprint).outcome = .failed outcome from hfailed]
  cases outcome with
  | none => rfl
  | some status =>
      unfold ConsecutiveErrorTracker.recordFailure
      dsimp only
      rw [if_neg (by rw [henabled]; simp), show config.threshold status = none from hrule]
      rfl

/-- A failure that a rule names is counted, and its scope is cleared with the
action. -/
theorem observe_named {tracker : ConsecutiveErrorTracker} (henabled : config.enabled = true)
    {attempt : Attempt} {status : Nat} (hfailed : attempt.FailedWith status) {threshold : Int}
    (hrule : config.threshold status = some threshold) :
    let observation := attempt.observation fingerprint
    let counter := ConsecutiveErrorTracker.counterKey fingerprint attempt.channelId status observation
    let counted := (tracker.resetScopeExceptStatus fingerprint attempt.channelId observation
      (some status)).increment counter
    tracker.observe fingerprint observation config =
      if ((tracker.counts counter + 1 : Nat) : Int) < threshold then (counted, none)
      else (counted.retain (ConsecutiveErrorTracker.survivesAction counter),
        some (ConsecutiveErrorTracker.scopedAction counter attempt.channelId
          (observation.usedCredential.getD "") status threshold (tracker.counts counter + 1 : Nat))) := by
  intro observation counter counted
  have hcount : counted.counts counter = tracker.counts counter + 1 := by
    show (if counter = counter then _ else _) = _
    rw [if_pos rfl, counts_reset tracker (by rw [hfailed]; simp)]
    rw [if_neg fun h => h.2 (by rw [status_counterKey])]
  unfold ConsecutiveErrorTracker.observe
  rw [show observation.outcome = .failed (some status) from hfailed]
  unfold ConsecutiveErrorTracker.recordFailure
  dsimp only
  rw [if_neg (by rw [henabled]; simp), hrule, ← hcount]
  rfl

/-- What a counted failure makes of a counter. -/
theorem counts_counted (tracker : ConsecutiveErrorTracker) {attempt : Attempt} {status : Nat}
    (hfailed : attempt.FailedWith status) :
    ((tracker.resetScopeExceptStatus fingerprint attempt.channelId (attempt.observation fingerprint)
      (some status)).increment (ConsecutiveErrorTracker.counterKey fingerprint attempt.channelId status
        (attempt.observation fingerprint))).counts key =
      if key.touchedBy fingerprint attempt = true then
        if key.status = status then tracker.counts key + 1 else 0
      else tracker.counts key := by
  have hnot : attempt.outcome ≠ .succeeded := by
    rw [hfailed]
    simp
  unfold ConsecutiveErrorTracker.increment
  dsimp only
  rw [counts_reset tracker hnot, counts_reset tracker hnot]
  cases htouched : key.touchedBy fingerprint attempt with
  | false =>
      have hne : key ≠ ConsecutiveErrorTracker.counterKey fingerprint attempt.channelId status
          (attempt.observation fingerprint) := by
        rintro rfl
        rw [touchedBy_counterKey] at htouched
        exact absurd htouched (by simp)
      rw [if_neg hne]
      simp
  | true =>
      by_cases hstatus : key.status = status
      · subst hstatus
        have hkey := eq_counterKey hnot htouched
        rw [← hkey]
        simp
      · have hne : key ≠ ConsecutiveErrorTracker.counterKey fingerprint attempt.channelId status
            (attempt.observation fingerprint) := by
          rintro rfl
          exact hstatus (status_counterKey _ _ _)
        rw [if_neg hne]
        simp [hstatus, Ne.symm hstatus]

variable {tracker : ConsecutiveErrorTracker}

theorem Tracking.empty (hvalid : validateAutoDisableConfig config = .ok ()) :
    Tracking fingerprint config ConsecutiveErrorTracker.empty [] where
  counts _ _ _ := rfl
  below key threshold hrule := by
    have hpos := threshold_pos hvalid hrule
    show (0 : Int) < threshold
    omega

/-- An attempt keeps the counters in step with the history if the worker decides
what the tracker does. -/
theorem Tracking.step (henabled : config.enabled = true)
    (hvalid : validateAutoDisableConfig config = .ok ())
    (h : Tracking fingerprint config tracker history) (hdecided : entry.decided =
      (tracker.observe fingerprint (entry.attempt.observation fingerprint) config).2) :
    Tracking fingerprint config
      (tracker.observe fingerprint (entry.attempt.observation fingerprint) config).1
      (entry :: history) := by
  have key : ∀ key threshold, config.threshold key.status = some threshold →
      (tracker.observe fingerprint (entry.attempt.observation fingerprint) config).1.counts key =
        counted fingerprint key (entry :: history) ∧
      ((tracker.observe fingerprint (entry.attempt.observation fingerprint) config).1.counts key : Int) <
        threshold := by
    intro key threshold hrule
    have hpos := threshold_pos hvalid hrule
    have hbefore := h.counts key threshold hrule
    have hbelow := h.below key threshold hrule
    cases houtcome : entry.attempt.outcome with
    | succeeded =>
        rw [counts_success h houtcome hrule]
        cases htouched : key.touchedBy fingerprint entry.attempt with
        | false =>
            rw [counted_untouched htouched, if_neg (by simp), ← hbefore]
            exact ⟨rfl, hbelow⟩
        | true =>
            rw [counted_touched htouched, if_pos rfl, if_neg]
            · exact ⟨rfl, by omega⟩
            · unfold isCounted Attempt.FailedWith
              simp [houtcome]
    | failed outcome =>
        have hnot : entry.attempt.outcome ≠ .succeeded := by
          rw [houtcome]
          simp
        cases hnamed : outcome.bind config.threshold with
        | none =>
            rw [observe_unnamed henabled houtcome hnamed]
            dsimp only
            rw [counts_reset tracker hnot]
            have hother : outcome ≠ some key.status := by
              rintro rfl
              rw [Option.bind_some, hrule] at hnamed
              exact absurd hnamed (by simp)
            cases htouched : key.touchedBy fingerprint entry.attempt with
            | false =>
                rw [counted_untouched htouched, if_neg (by simp), ← hbefore]
                exact ⟨rfl, hbelow⟩
            | true =>
                rw [counted_touched htouched, if_pos ⟨rfl, hother⟩, if_neg]
                · exact ⟨rfl, by omega⟩
                · unfold isCounted Attempt.FailedWith
                  simp [houtcome, hother]
        | some named =>
            obtain ⟨status, rfl, hstatus⟩ := Option.bind_eq_some_iff.mp hnamed
            have hfailed : entry.attempt.FailedWith status := houtcome
            have hnext := @counts_counted fingerprint key tracker entry.attempt status hfailed
            have hobserve := @observe_named fingerprint config tracker henabled _ _ hfailed _ hstatus
            dsimp only at hobserve
            rw [hobserve] at hdecided ⊢
            by_cases hmore : ((tracker.counts (ConsecutiveErrorTracker.counterKey fingerprint
                entry.attempt.channelId status (entry.attempt.observation fingerprint)) + 1 : Nat) :
                  Int) < named
            · rw [if_pos hmore] at hdecided ⊢
              dsimp only at hdecided ⊢
              rw [hnext]
              cases htouched : key.touchedBy fingerprint entry.attempt with
              | false =>
                  rw [counted_untouched htouched, if_neg (by simp), ← hbefore]
                  exact ⟨rfl, hbelow⟩
              | true =>
                  rw [counted_touched htouched, if_pos rfl]
                  by_cases hsame : key.status = status
                  · have hkey := eq_counterKey hnot htouched
                    rw [hsame] at hkey
                    rw [if_pos hsame, if_pos, ← hbefore]
                    · refine ⟨rfl, ?_⟩
                      rw [hsame, hstatus] at hrule
                      obtain rfl := Option.some.inj hrule
                      rw [hkey]
                      exact hmore
                    · unfold isCounted Attempt.FailedWith
                      simp [houtcome, hsame, hdecided]
                  · rw [if_neg hsame, if_neg]
                    · exact ⟨rfl, by omega⟩
                    · unfold isCounted Attempt.FailedWith
                      simp [houtcome, Ne.symm hsame]
            · rw [if_neg hmore] at hdecided ⊢
              dsimp only at hdecided ⊢
              unfold ConsecutiveErrorTracker.retain
              dsimp only
              rw [hnext]
              cases htouched : key.touchedBy fingerprint entry.attempt with
              | false =>
                  rw [survivesAction_untouched htouched, counted_untouched htouched, if_pos rfl,
                    if_neg (by simp), ← hbefore]
                  exact ⟨rfl, hbelow⟩
              | true =>
                  rw [survivesAction_touched hnot htouched, counted_touched htouched, if_neg (by simp),
                    if_neg]
                  · exact ⟨rfl, by omega⟩
                  · unfold isCounted
                    simp [hdecided]
  exact ⟨fun k threshold hrule => (key k threshold hrule).1,
    fun k threshold hrule => (key k threshold hrule).2⟩

end Counters

end Conduit.AutoDisable
