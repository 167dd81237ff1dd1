import Conduit.AutoDisable.Logic.Agreement

/-!
# The worker acts when the tracker does

While no row of failures is completed that drew an action before, and failures
with and without a credential do not mix, the worker decides what the tracker
decides; channels then go with their last key, and say so once.
-/

namespace Conduit.AutoDisable

open Base

variable {fingerprint : Fingerprint} {config : AutoDisableConfig}

/-! ## One attempt -/

/-- What touches the counter of an attempt is queried for it. -/
theorem isQueried_of_touched {attempt : Attempt} {status : Nat} {entry : Entry}
    (h : (ConsecutiveErrorTracker.counterKey fingerprint attempt.channelId status
      (attempt.observation fingerprint)).touchedBy fingerprint entry.attempt = true) :
    isQueried fingerprint attempt entry = true := by
  unfold ConsecutiveErrorTracker.counterKey at h
  unfold isQueried
  cases hidentity : (attempt.observation fingerprint).identity fingerprint with
  | none =>
      rw [hidentity] at h
      exact decide_eq_true ⟨(of_decide_eq_true h).1, .inl hidentity⟩
  | some identity =>
      rw [hidentity] at h
      obtain ⟨hchannel, hsame⟩ := of_decide_eq_true h
      have hne : identity ≠ fingerprint.digest "" := by
        rintro rfl
        exact identity_ne_empty fingerprint attempt hidentity
      refine decide_eq_true ⟨hchannel, .inr ?_⟩
      rw [show attempt.identity fingerprint = some identity from hidentity]
      exact (row_identity_iff fingerprint entry.attempt hne).mpr hsame

/-- What has the scope of an attempt touches its counter. -/
theorem touched_of_sameScope {attempt : Attempt} (status : Nat) {entry : Entry}
    (h : attempt.SameScope fingerprint entry.attempt) :
    (ConsecutiveErrorTracker.counterKey fingerprint attempt.channelId status
      (attempt.observation fingerprint)).touchedBy fingerprint entry.attempt = true := by
  obtain ⟨hchannel, hidentity⟩ := h
  unfold ConsecutiveErrorTracker.counterKey
  cases hown : (attempt.observation fingerprint).identity fingerprint with
  | none => exact decide_eq_true ⟨hchannel, .inl (hidentity.trans hown)⟩
  | some identity => exact decide_eq_true ⟨hchannel, hidentity.trans hown⟩

/-- What is queried for a credential has that credential. -/
theorem identity_of_isQueried {attempt : Attempt} {entry : Entry}
    (h : isQueried fingerprint attempt entry = true) (hcredential : attempt.identity fingerprint ≠ none) :
    entry.attempt.channelId = attempt.channelId ∧
      entry.attempt.identity fingerprint = attempt.identity fingerprint := by
  obtain ⟨hchannel, hrow⟩ := of_decide_eq_true h
  obtain ⟨identity, hidentity⟩ := Option.ne_none_iff_exists'.mp hcredential
  refine ⟨hchannel, ?_⟩
  have hne : identity ≠ fingerprint.digest "" := by
    rintro rfl
    exact identity_ne_empty fingerprint attempt hidentity
  rw [hidentity] at hrow ⊢
  rcases hrow with hnone | hrow
  · exact absurd hnone (by simp)
  · exact (row_identity_iff fingerprint entry.attempt hne).mp hrow

section Attempts

variable {s : State} {attempt : Attempt} {status times : Nat}

/-- The newest attempts a test lets pass are the queried ones, where it lets
only such pass and these all. -/
theorem take_filter_queried {test : Entry → Bool}
    (honly : ∀ entry, test entry = true → isQueried fingerprint attempt entry = true)
    (hall : ∀ entry ∈ queried fingerprint attempt s.history times,
      isQueried fingerprint attempt entry = true → test entry = true) :
    (s.history.filter test).take times = queried fingerprint attempt s.history times := by
  have hboth : s.history.filter test =
      (s.history.filter (isQueried fingerprint attempt)).filter test := by
    rw [List.filter_filter]
    refine List.filter_congr fun entry _ => ?_
    rw [Bool.eq_iff_iff, Bool.and_eq_true_iff]
    exact ⟨fun htest => ⟨htest, honly entry htest⟩, fun hand => hand.1⟩
  rw [hboth, queried_eq]
  refine take_filter fun entry hmem => hall entry (by rw [queried_eq]; exact hmem) ?_
  exact (List.mem_filter.mp (List.mem_of_mem_take hmem)).2

/-- The newest attempts that touch the counter are the queried ones. -/
theorem take_touched (hunmixed : attempt.identity fingerprint = none →
      ∀ entry ∈ queried fingerprint attempt s.history times,
        entry.attempt.identity fingerprint = none) :
    (s.history.filter fun entry => (ConsecutiveErrorTracker.counterKey fingerprint attempt.channelId
      status (attempt.observation fingerprint)).touchedBy fingerprint entry.attempt).take times =
      queried fingerprint attempt s.history times := by
  refine take_filter_queried (fun _ => isQueried_of_touched) fun entry hmem hqueried => ?_
  unfold ConsecutiveErrorTracker.counterKey
  cases hidentity : (attempt.observation fingerprint).identity fingerprint with
  | none =>
      exact decide_eq_true
        ⟨(of_decide_eq_true hqueried).1, .inl (hunmixed hidentity entry hmem)⟩
  | some identity =>
      have hcredential : attempt.identity fingerprint = some identity := hidentity
      obtain ⟨hchannel, hsame⟩ := identity_of_isQueried hqueried (by rw [hcredential]; simp)
      exact decide_eq_true ⟨hchannel, hsame.trans hcredential⟩

theorem take_queried : (queried fingerprint attempt s.history times).take times =
    queried fingerprint attempt s.history times := by
  rw [queried_eq, List.take_take, Nat.min_self]

/-- A queried attempt that touches the counter is among the newest that do. -/
theorem mem_take_touched {entry : Entry} (hqueried : entry ∈ queried fingerprint attempt s.history times)
    (htouched : (ConsecutiveErrorTracker.counterKey fingerprint attempt.channelId status
      (attempt.observation fingerprint)).touchedBy fingerprint entry.attempt = true) :
    entry ∈ (s.history.filter fun entry => (ConsecutiveErrorTracker.counterKey fingerprint
      attempt.channelId status (attempt.observation fingerprint)).touchedBy fingerprint
        entry.attempt).take times := by
  have hleading := (List.take_prefix times (s.history.filter (isQueried fingerprint attempt))).filter
    fun entry => (ConsecutiveErrorTracker.counterKey fingerprint attempt.channelId status
      (attempt.observation fingerprint)).touchedBy fingerprint entry.attempt
  rw [List.filter_filter, List.filter_congr fun entry _ => Bool.and_eq_left_iff_imp.mpr
    isQueried_of_touched, ← queried_eq] at hleading
  refine (List.prefix_take_iff.mpr ⟨hleading, ?_⟩).subset (List.mem_filter.mpr ⟨hqueried, htouched⟩)
  rw [queried_eq]
  exact Nat.le_trans (List.length_filter_le _ _) (List.length_take_le _ _)

/-- All queried attempts failed exactly if the streak is as long. -/
theorem failures_iff_counted (h : CountsAfresh fingerprint s attempt status times) :
    times ≤ failures fingerprint attempt status s.history times ↔
      times ≤ counted fingerprint (ConsecutiveErrorTracker.counterKey fingerprint attempt.channelId
        status (attempt.observation fingerprint)) s.history := by
  unfold failures counted
  by_cases hbroken : attempt.identity fingerprint = none ∧
      ∃ entry ∈ queried fingerprint attempt s.history times,
        (entry.attempt.identity fingerprint = none ∨ entry.attempt.outcome = .succeeded) ∧
          ¬ entry.attempt.FailedWith status
  · -- one attempt ends both streaks
    obtain ⟨hidentity, entry, hmem, htouches, hnot⟩ := hbroken
    have hkey : (attempt.observation fingerprint).identity fingerprint = none := hidentity
    have htouched : (ConsecutiveErrorTracker.counterKey fingerprint attempt.channelId status
        (attempt.observation fingerprint)).touchedBy fingerprint entry.attempt = true := by
      unfold ConsecutiveErrorTracker.counterKey
      rw [hkey]
      rw [queried_eq] at hmem
      have hqueried := (List.mem_filter.mp (List.mem_of_mem_take hmem)).2
      exact decide_eq_true ⟨(of_decide_eq_true hqueried).1, htouches⟩
    rw [le_streak, le_streak, take_queried, status_counterKey]
    refine iff_of_false (fun h => hnot (of_decide_eq_true (h.2 entry hmem))) ?_
    intro h
    exact hnot (of_decide_eq_true (h.2 entry (mem_take_touched hmem htouched))).1
  have hunmixed : attempt.identity fingerprint = none →
      ∀ entry ∈ queried fingerprint attempt s.history times,
        entry.attempt.identity fingerprint = none := by
    intro hidentity
    refine h.unmixed hidentity fun entry hmem htouches => ?_
    by_contra hnot
    exact hbroken ⟨hidentity, entry, hmem, htouches, hnot⟩
  rw [le_streak, le_streak, take_queried, take_touched hunmixed, status_counterKey]
  refine and_congr_right fun hlength => ⟨fun hfailed entry hmem => ?_, fun hcounted entry hmem => ?_⟩
  · have hall : ∀ entry ∈ queried fingerprint attempt s.history times,
        entry.attempt.FailedWith status := fun entry hmem => of_decide_eq_true (hfailed entry hmem)
    exact decide_eq_true ⟨hall entry hmem, h.undrawn hlength hall entry hmem⟩
  · exact decide_eq_true (of_decide_eq_true (hcounted entry hmem)).1

/-- The worker decides what the tracker does. -/
theorem decided_eq_reference (henabled : config.enabled = true)
    (hvalid : validateAutoDisableConfig config = .ok ())
    (htracking : Tracking fingerprint config s.tracker s.history)
    (h : ∀ (status : Nat) (threshold : Int), attempt.FailedWith status →
      config.threshold status = some threshold →
        CountsAfresh fingerprint s attempt status (threshold.toNat - 1)) :
    (entryOf fingerprint config s attempt).decided = (entryOf fingerprint config s attempt).reference := by
  unfold entryOf State.rows
  dsimp only
  by_cases hnamed : ∃ status, attempt.FailedWith status ∧ config.threshold status ≠ none
  · obtain ⟨status, hfailed, hrule⟩ := hnamed
    obtain ⟨threshold, hrule⟩ := Option.ne_none_iff_exists'.mp hrule
    rw [evaluate_named henabled hfailed hrule (threshold_pos hvalid hrule),
      reference_named henabled htracking hfailed hrule]
    exact if_congr (failures_iff_counted (h status threshold hfailed hrule)) rfl rfl
  · have hnone : ∀ status, attempt.FailedWith status → config.threshold status = none :=
      fun status hfailed => by
        by_contra hrule
        exact hnamed ⟨status, hfailed, hrule⟩
    rw [evaluate_unnamed hnone, reference_unnamed henabled hnone]

/-- An action follows failures of the scope in a row. -/
theorem justified_attempt (henabled : config.enabled = true)
    (hvalid : validateAutoDisableConfig config = .ok ())
    (h : ∀ (status : Nat) (threshold : Int), attempt.FailedWith status →
      config.threshold status = some threshold →
        CountsAfresh fingerprint s attempt status (threshold.toNat - 1))
    (hdecided : (entryOf fingerprint config s attempt).decided.isSome = true) :
    ∃ status threshold, attempt.FailedWith status ∧ config.threshold status = some threshold ∧
      FailedInARow fingerprint attempt status (threshold.toNat - 1) s.history := by
  unfold entryOf State.rows at hdecided
  dsimp only at hdecided
  by_cases hnamed : ∃ status, attempt.FailedWith status ∧ config.threshold status ≠ none
  · obtain ⟨status, hfailed, hrule⟩ := hnamed
    obtain ⟨threshold, hrule⟩ := Option.ne_none_iff_exists'.mp hrule
    have hafresh := h status threshold hfailed hrule
    refine ⟨status, threshold, hfailed, hrule, ?_⟩
    rw [evaluate_named henabled hfailed hrule (threshold_pos hvalid hrule)] at hdecided
    have hfull : threshold.toNat - 1 ≤
        failures fingerprint attempt status s.history (threshold.toNat - 1) := by
      by_contra hnot
      rw [if_neg hnot] at hdecided
      exact absurd hdecided (by simp)
    unfold failures at hfull
    rw [le_streak, take_queried] at hfull
    have hall : ∀ entry ∈ queried fingerprint attempt s.history (threshold.toNat - 1),
        entry.attempt.FailedWith status := fun entry hmem => of_decide_eq_true (hfull.2 entry hmem)
    -- the queried attempts failed, so they are all of the scope
    have hscope : (s.history.filter fun entry => attempt.SameScope fingerprint entry.attempt).take
        (threshold.toNat - 1) = queried fingerprint attempt s.history (threshold.toNat - 1) := by
      refine take_filter_queried (fun entry hsame => isQueried_of_touched
        (touched_of_sameScope status (of_decide_eq_true hsame))) fun entry hmem hqueried => ?_
      by_cases hcredential : attempt.identity fingerprint = none
      · refine decide_eq_true ⟨(of_decide_eq_true hqueried).1, ?_⟩
        rw [hcredential]
        exact hafresh.unmixed hcredential (fun entry hmem _ => hall entry hmem) entry hmem
      · exact decide_eq_true (identity_of_isQueried hqueried hcredential)
    unfold FailedInARow
    rw [hscope]
    exact ⟨hfull.1, fun entry hmem => ⟨hall entry hmem, hafresh.undrawn hfull.1 hall entry hmem⟩⟩
  · have hnone : ∀ status, attempt.FailedWith status → config.threshold status = none :=
      fun status hfailed => by
        by_contra hrule
        exact hnamed ⟨status, hfailed, hrule⟩
    rw [evaluate_unnamed hnone] at hdecided
    exact absurd hdecided (by simp)

end Attempts

/-! ## One step on a channel -/

theorem disableChannel_sound {row : ChannelRow} (hkeys : row.IsEnabled → row.enabledKeys = [])
    (channelId : Int) (status : Nat) (threshold actualCount now : Int) :
    Applied.Sound ⟨row, (disableChannel row channelId status threshold actualCount now).1,
      (disableChannel row channelId status threshold actualCount now).2⟩ := by
  unfold disableChannel
  dsimp only
  by_cases henabled : row.status = "enabled" ∧ row.deletedAt = 0
  · rw [if_pos henabled]
    have hdisabled : ¬ChannelRow.IsEnabled
        { row with status := "disabled", errorMessage := some (deriveErrorMessage status) } :=
      fun h => absurd h.1 (by simp)
    exact ⟨iff_of_true ⟨_, rfl⟩ ⟨henabled, hdisabled⟩, fun _ _ => hkeys henabled,
      fun _ hsome _ => absurd (hkeys henabled) hsome⟩
  · rw [if_neg henabled]
    exact ⟨iff_of_false (by simp) fun h => henabled h.1, fun h => absurd h henabled,
      fun h => absurd h henabled⟩

/-- A step that changes nothing. -/
theorem unchanged_sound (row : ChannelRow) {result : StepResult}
    (h : ∀ event, result ≠ .event event) : Applied.Sound ⟨row, row, result⟩ where
  announced := iff_of_false (fun ⟨event, hevent⟩ => h event hevent) fun hboth => hboth.2 hboth.1
  onlyExhausted := fun henabled hnot => absurd henabled hnot
  exhausted := fun _ hsome hnone => absurd hnone hsome

theorem disableCredential_sound (row : ChannelRow) (channelId : Int) (credential : String)
    (status : Nat) (threshold actualCount now : Int) :
    Applied.Sound ⟨row,
      (disableCredential row channelId credential status threshold actualCount now).1,
      (disableCredential row channelId credential status threshold actualCount now).2⟩ := by
  unfold disableCredential
  by_cases hdeleted : row.deletedAt ≠ 0
  · rw [if_pos hdeleted]
    exact unchanged_sound row (by simp)
  rw [if_neg hdeleted]
  by_cases hstatus : row.status ≠ "enabled"
  · rw [if_pos hstatus]
    exact unchanged_sound row (by simp)
  rw [if_neg hstatus]
  have henabled : row.IsEnabled := ⟨not_not.mp hstatus, not_not.mp hdeleted⟩
  cases hcredentials : row.credentials with
  | none => exact unchanged_sound row (by simp)
  | some credentials =>
      dsimp only
      by_cases hknown : credential ∉ credentials.allApiKeys
      · rw [if_pos hknown]
        exact unchanged_sound row (by simp)
      rw [if_neg hknown]
      cases hkeys : row.disabledApiKeys with
      | none => exact unchanged_sound row (by simp)
      | some disabled =>
          dsimp only
          by_cases hbefore : credential ∈ disabled.map DisabledApiKey.key
          · rw [if_pos hbefore]
            exact unchanged_sound row (by simp)
          rw [if_neg hbefore]
          split
          · -- the last key: the channel goes with it
            next hempty =>
              refine ⟨iff_of_true ⟨_, rfl⟩ ⟨henabled, fun h => absurd h.1 (by simp)⟩, fun _ _ => ?_,
                fun _ _ _ h => absurd h.1 (by simp)⟩
              exact List.isEmpty_iff.mp hempty
          · next hmore =>
              refine ⟨iff_of_false (by simp) fun h => h.2 henabled, fun _ h => absurd henabled h,
                fun _ _ hnone => ?_⟩
              exact absurd (List.isEmpty_iff.mpr hnone) hmore

/-! ## Whole runs -/

/-- What holds in every state of a careful run. -/
structure Holds (fingerprint : Fingerprint) (config : AutoDisableConfig) (s : State) : Prop where
  sound : s.Sound fingerprint config
  tracking : Tracking fingerprint config s.tracker s.history

theorem Holds.step (henabled : config.enabled = true)
    (hvalid : validateAutoDisableConfig config = .ok ()) {s : State}
    (h : Holds fingerprint config s) {action : Action}
    (hcareful : Careful fingerprint config s action) :
    Holds fingerprint config (AutoDisable.step fingerprint config s action) := by
  cases action with
  | attempt attempt =>
      have hagrees := decided_eq_reference henabled hvalid h.tracking hcareful
      refine ⟨⟨?_, ?_, h.sound.applied⟩, h.tracking.step henabled hvalid hagrees⟩
      · intro entry hmem
        rcases List.mem_cons.mp hmem with rfl | hmem
        · exact hagrees
        · exact h.sound.agrees entry hmem
      · exact ⟨justified_attempt henabled hvalid hcareful, h.sound.justified⟩
  | apply index now =>
      unfold AutoDisable.step
      dsimp only
      cases hpending : s.pending[index]? with
      | none => exact h
      | some action =>
          dsimp only
          cases hrow : s.channels action.channelId with
          | none => exact ⟨⟨h.sound.agrees, h.sound.justified, h.sound.applied⟩, h.tracking⟩
          | some row =>
              refine ⟨⟨h.sound.agrees, h.sound.justified, ?_⟩, h.tracking⟩
              intro step hmem
              rcases List.mem_cons.mp hmem with rfl | hmem
              · cases action with
                | channel channelId status threshold actualCount =>
                    exact disableChannel_sound (hcareful channelId status threshold actualCount row
                      hpending hrow) channelId status threshold actualCount now
                | credential channelId credential status threshold actualCount =>
                    exact disableCredential_sound row channelId credential status threshold
                      actualCount now
              · exact h.sound.applied step hmem
  | administer channelId row => exact ⟨⟨h.sound.agrees, h.sound.justified, h.sound.applied⟩, h.tracking⟩

/-- In every state of a run whose steps are careful, the worker has decided what
the tracker did, every action followed enough failures in a row, and channels
went with their last key. -/
theorem careful_run_sound (fingerprint : Fingerprint) (config : AutoDisableConfig)
    (channels : Int → Option ChannelRow) (henabled : config.enabled = true)
    (hvalid : validateAutoDisableConfig config = .ok ()) (actions : List Action)
    (h : (system fingerprint config channels).Along (Careful fingerprint config)
      (system fingerprint config channels).init actions) :
    ((system fingerprint config channels).run (system fingerprint config channels).init
      actions).Sound fingerprint config := by
  have hinit : Holds fingerprint config (system fingerprint config channels).init :=
    { sound := ⟨fun _ hmem => absurd hmem (by simp [system]), trivial,
        fun _ hmem => absurd hmem (by simp [system])⟩
      tracking := Tracking.empty hvalid }
  exact (TSys.Along.run (fun _ _ hs hcareful => hs.step henabled hvalid hcareful) actions _ hinit
    h).sound

/-! ### A key that is enabled again -/

section Examples

/-- Two failures with 401 in a row. -/
def twoUnauthorized : AutoDisableConfig := ⟨true, [⟨401, 2⟩]⟩

def plainFingerprint : Fingerprint := ⟨id, fun _ h => h⟩

def unauthorized : Attempt := ⟨7, some "key", .failed (some 401)⟩

def keyedChannel : ChannelRow where
  name := "c"
  provider := "openai"
  baseUrl := none
  status := "enabled"
  credentials := some ⟨"", none, ["key", "other"]⟩
  disabledApiKeys := some []
  errorMessage := none
  deletedAt := 0

/-- The key is disabled after its second failure. -/
theorem careful_run_sound_two_failures :
    ((system plainFingerprint twoUnauthorized fun _ => some keyedChannel).run
      (system plainFingerprint twoUnauthorized fun _ => some keyedChannel).init
      [.attempt unauthorized, .attempt unauthorized, .apply 0 0]).Sound plainFingerprint
        twoUnauthorized := by
  refine careful_run_sound plainFingerprint twoUnauthorized (fun _ => some keyedChannel) rfl
    (by decide) _ ⟨?_, ?_, ?_, trivial⟩
  · intro status threshold _ _
    exact ⟨fun _ _ entry hmem => absurd hmem (by simp [queried, system]),
      fun _ _ entry hmem => absurd hmem (by simp [queried, system])⟩
  · intro status threshold hfailed hrule
    obtain rfl : status = 401 := by
      unfold Attempt.FailedWith unauthorized at hfailed
      simpa using hfailed.symm
    obtain rfl : threshold = 2 := by
      unfold AutoDisableConfig.threshold twoUnauthorized at hrule
      simpa using hrule.symm
    refine ⟨fun _ _ => by decide, fun hnone => absurd hnone (by decide)⟩
  · intro channelId status threshold actualCount row hpending
    have hcredential : (((system plainFingerprint twoUnauthorized fun _ => some keyedChannel).run
        (system plainFingerprint twoUnauthorized fun _ => some keyedChannel).init
        [.attempt unauthorized, .attempt unauthorized]).pending)[0]? =
          some (.credential 7 "key" 401 2 2) := by decide
    exact absurd (hcredential.symm.trans hpending) (by simp)

/-- Enabled again, the key is disabled by its first failure; the tracker would
wait for the second. -/
theorem reenabled_key_disabled_at_once :
    ¬∀ (fingerprint : Fingerprint) (config : AutoDisableConfig) (channels : Int → Option ChannelRow)
      (actions : List Action), config.enabled = true →
        validateAutoDisableConfig config = .ok () →
          ((system fingerprint config channels).run (system fingerprint config channels).init
            actions).Sound fingerprint config := by
  intro h
  have hsound := h plainFingerprint twoUnauthorized (fun _ => some keyedChannel)
    [.attempt unauthorized, .attempt unauthorized, .apply 0 0, .administer 7 (some keyedChannel),
      .attempt unauthorized] rfl (by decide)
  have hagrees := hsound.agrees
  revert hagrees
  decide

end Examples

end Conduit.AutoDisable
