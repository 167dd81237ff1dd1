import Conduit.Orchestrator.Selection

/-!
# Every candidate survives or is rejected once

`droppedAt` says of a candidate which stage drops it: the profiles look at the
candidate alone, the gate for native tools at what passed the profiles, and the
stream policy at what passed both. The stages of the pipeline account for their
candidates with these verdicts (`accounts_filterPipeline`), so no fallback of a
later stage brings a candidate back.
-/

namespace Conduit.Orchestrator

open Base Base.Text

variable {Settings : Type}

/-! ## The verdicts -/

/-- On the channel list and the tags of the project. -/
def FilterContext.passesProject (ctx : FilterContext) (c : ChannelModelsCandidate Settings) : Bool :=
  (ctx.projectChannelIds.isEmpty || ctx.projectChannelIds.contains c.channelId) &&
    (ctx.projectChannelTags.isEmpty ||
      matchChannelTags ctx.projectChannelTags ctx.projectChannelTagsMatchMode c.tags)

/-- On the channel list and the tags of the key. -/
def FilterContext.passesKey (ctx : FilterContext) (c : ChannelModelsCandidate Settings) : Bool :=
  (ctx.keyChannelIds.isEmpty || ctx.keyChannelIds.contains c.channelId) &&
    (ctx.keyChannelTags.isEmpty ||
      matchChannelTags ctx.keyChannelTags ctx.keyChannelTagsMatchMode c.tags)

/-- Supports the native tools of the request, if any candidate that is left does. -/
def FilterContext.passesNativeTools (ctx : FilterContext)
    (allowed : List (ChannelModelsCandidate Settings)) (c : ChannelModelsCandidate Settings) : Bool :=
  (activeFamily ctx).all fun family => !allowed.any (·.supports family) || c.supports family

/-- Not forbidden for a stream; without a stream not one that requires it, unless the
others do as well and the answer can be put together. -/
def FilterContext.passesStreamPolicy (ctx : FilterContext)
    (capable : List (ChannelModelsCandidate Settings)) (c : ChannelModelsCandidate Settings) : Bool :=
  if ctx.stream then c.streamPolicy ≠ "forbid"
  else if capable.any fun c => c.streamPolicy ≠ "require" then c.streamPolicy ≠ "require"
  else supportsAutoAggregate ctx.apiFormat ctx.requestType

/-- The candidates that pass both profiles. -/
def allowedCandidates (ctx : FilterContext) (candidates : List (ChannelModelsCandidate Settings)) :
    List (ChannelModelsCandidate Settings) :=
  candidates.filter fun c => ctx.passesProject c && ctx.passesKey c

/-- The candidates that pass every stage before the stream policy. -/
def capableCandidates (ctx : FilterContext) (candidates : List (ChannelModelsCandidate Settings)) :
    List (ChannelModelsCandidate Settings) :=
  (allowedCandidates ctx candidates).filter
    (ctx.passesNativeTools (allowedCandidates ctx candidates))

/-- The stage that drops a candidate. -/
def droppedAt (ctx : FilterContext) (candidates : List (ChannelModelsCandidate Settings))
    (c : ChannelModelsCandidate Settings) : Option FilterStage :=
  if !ctx.passesProject c then some .projectProfile
  else if !ctx.passesKey c then some .keyProfile
  else if !ctx.passesNativeTools (allowedCandidates ctx candidates) c then
    some .nativeToolsCapability
  else if !ctx.passesStreamPolicy (capableCandidates ctx candidates) c then some .streamPolicy
  else none

/-- A candidate in the diagnostics. -/
def ChannelModelsCandidate.tagged (c : ChannelModelsCandidate Settings) (stage : FilterStage) :
    FilterStage × String × String := (stage, c.channelId, c.channelName)

def SelectionRejection.tag (r : SelectionRejection) : FilterStage × String × String :=
  (r.stage, r.channelId, r.channelName)

/-- `FilterPipeline::run`. -/
def runFilterPipeline (quoted : String → String) (candidates : List (ChannelModelsCandidate Settings))
    (ctx : FilterContext) : List (ChannelModelsCandidate Settings) × SelectionDiagnostics :=
  let sieved := filterPipeline quoted ctx candidates
  (sieved.kept, ⟨sieved.kept.map (·.ref), sieved.rejected⟩)

/-! ## The stages account for their candidates -/

section Accounts

variable {candidates : List (ChannelModelsCandidate Settings)}

/-- The verdict of one stage: what fails its test is rejected. -/
def verdict (test : ChannelModelsCandidate Settings → Bool) (stage : FilterStage)
    (c : ChannelModelsCandidate Settings) : Option (FilterStage × String × String) :=
  if test c then none else some (c.tagged stage)

/-- A stage that keeps its candidates, all of which pass. -/
theorem accounts_pass {test : ChannelModelsCandidate Settings → Bool} {stage : FilterStage}
    (h : ∀ c : ChannelModelsCandidate Settings, test c = true) :
    Sieved.Accounts SelectionRejection.tag (verdict test stage) candidates
      (Sieved.all candidates) := by
  have hverdict : (verdict test stage : ChannelModelsCandidate Settings → _) = fun _ => none :=
    funext fun c => if_pos (h c)
  rw [hverdict]
  exact Sieved.accounts_all

theorem accounts_test {test passes : ChannelModelsCandidate Settings → Bool} {stage : FilterStage}
    (h : ∀ c : ChannelModelsCandidate Settings, passes c = test c)
    (detail : ChannelModelsCandidate Settings → String) :
    Sieved.Accounts SelectionRejection.tag (verdict passes stage) candidates
      (Sieved.byTest test (fun c => c.reject stage (detail c)) candidates) := by
  rw [funext h]
  exact Sieved.accounts_byTest test fun c => c.reject stage (detail c)

theorem accounts_allowlistPass (allowedIds : List String) (stage : FilterStage) (level : String) :
    Sieved.Accounts SelectionRejection.tag
      (verdict (fun c => allowedIds.isEmpty || allowedIds.contains c.channelId) stage) candidates
      (allowlistPass allowedIds stage level candidates) := by
  unfold allowlistPass
  by_cases hempty : allowedIds.isEmpty = true
  · rw [if_pos hempty]
    exact accounts_pass fun c => by rw [hempty, Bool.true_or]
  · rw [if_neg hempty]
    exact accounts_test (fun c => by rw [Bool.eq_false_iff.mpr hempty, Bool.false_or]) _

theorem accounts_tagsPass (quoted : String → String) (allowedTags : List String) (matchMode : String)
    (stage : FilterStage) (level : String) :
    Sieved.Accounts SelectionRejection.tag
      (verdict (fun c => allowedTags.isEmpty || matchChannelTags allowedTags matchMode c.tags) stage)
      candidates (tagsPass quoted allowedTags matchMode stage level candidates) := by
  unfold tagsPass
  by_cases hempty : allowedTags.isEmpty = true
  · rw [if_pos hempty]
    exact accounts_pass fun c => by rw [hempty, Bool.true_or]
  · rw [if_neg hempty]
    exact accounts_test (fun c => by rw [Bool.eq_false_iff.mpr hempty, Bool.false_or]) _

/-- The gate falls back to all its candidates only where none supports the tools. -/
theorem accounts_nativeToolsCapability (quoted : String → String) (ctx : FilterContext) :
    Sieved.Accounts SelectionRejection.tag
      (verdict (ctx.passesNativeTools candidates) .nativeToolsCapability) candidates
      (nativeToolsCapability quoted ctx candidates) := by
  unfold nativeToolsCapability FilterContext.passesNativeTools
  cases activeFamily ctx with
  | none => exact accounts_pass fun _ => rfl
  | some family =>
      dsimp only
      by_cases hany : (candidates.any fun c => c.supports family) = true
      · rw [if_pos hany]
        exact accounts_test (fun c => by rw [Option.all_some, hany, Bool.not_true, Bool.false_or]) _
      · rw [if_neg hany]
        refine accounts_pass fun c => ?_
        rw [Option.all_some, Bool.eq_false_iff.mpr hany, Bool.not_false, Bool.true_or]

/-- The policy falls back to those that require a stream only where no other is left. -/
theorem accounts_streamPolicy (ctx : FilterContext) :
    Sieved.Accounts SelectionRejection.tag
      (verdict (ctx.passesStreamPolicy candidates) .streamPolicy) candidates
      (streamPolicy ctx candidates) := by
  unfold streamPolicy FilterContext.passesStreamPolicy
  by_cases hstream : ctx.stream = true
  · rw [if_pos hstream]
    exact accounts_test (fun c => if_pos hstream) _
  · rw [if_neg hstream]
    by_cases hnative : (candidates.any fun c => c.streamPolicy ≠ "require") = true
    · rw [if_pos hnative]
      exact accounts_test (fun c => by rw [if_neg hstream, if_pos hnative]) _
    · rw [if_neg hnative]
      by_cases hauto : supportsAutoAggregate ctx.apiFormat ctx.requestType = true
      · rw [if_pos hauto]
        exact accounts_pass fun c => by rw [if_neg hstream, if_neg hnative, hauto]
      · rw [if_neg hauto]
        refine accounts_test (fun c => ?_) _
        rw [if_neg hstream, if_neg hnative, Bool.eq_false_iff.mpr hauto]

theorem verdict_and (first second : ChannelModelsCandidate Settings → Bool) (stage : FilterStage)
    (c : ChannelModelsCandidate Settings) :
    (verdict first stage c).or (verdict second stage c) =
      verdict (fun c => first c && second c) stage c := by
  unfold verdict
  by_cases hfirst : first c = true
  · simp [hfirst]
  · simp [hfirst]

theorem accounts_profileStages (quoted : String → String) (ctx : FilterContext) :
    Sieved.Accounts SelectionRejection.tag
      (fun c => (verdict ctx.passesProject .projectProfile c).or (verdict ctx.passesKey .keyProfile c))
      candidates (profileStages quoted ctx candidates) := by
  have hproject := (@accounts_allowlistPass _ candidates ctx.projectChannelIds .projectProfile
    "project").andThen (accounts_tagsPass quoted ctx.projectChannelTags
      ctx.projectChannelTagsMatchMode .projectProfile "project")
  have hkey := (hproject.andThen (accounts_allowlistPass ctx.keyChannelIds .keyProfile "key")).andThen
    (accounts_tagsPass quoted ctx.keyChannelTags ctx.keyChannelTagsMatchMode .keyProfile "key")
  simp only [verdict_and, Option.or_assoc] at hkey
  exact hkey

/-- The verdict of the whole pipeline. -/
theorem accounts_filterPipeline (quoted : String → String) (ctx : FilterContext) :
    Sieved.Accounts SelectionRejection.tag
      (fun c => (droppedAt ctx candidates c).map c.tagged) candidates
      (filterPipeline quoted ctx candidates) := by
  have hprofiles := @accounts_profileStages _ candidates quoted ctx
  have hallowed : (profileStages quoted ctx candidates).kept = allowedCandidates ctx candidates := by
    rw [hprofiles.kept]
    refine List.filter_congr fun c _ => ?_
    unfold verdict
    cases ctx.passesProject c <;> cases ctx.passesKey c <;> rfl
  have hnative := hprofiles.andThen (accounts_nativeToolsCapability quoted ctx)
  have hcapable : ((profileStages quoted ctx candidates).andThen
      (nativeToolsCapability quoted ctx)).kept = capableCandidates ctx candidates := by
    rw [Sieved.kept_andThen, hallowed, (accounts_nativeToolsCapability quoted ctx).kept]
    refine List.filter_congr fun c _ => ?_
    unfold verdict
    cases ctx.passesNativeTools (allowedCandidates ctx candidates) c <;> rfl
  have hall := hnative.andThen (accounts_streamPolicy ctx)
  rw [hallowed, hcapable] at hall
  have hverdict : (fun c : ChannelModelsCandidate Settings => (droppedAt ctx candidates c).map c.tagged) =
      fun c => (((verdict ctx.passesProject .projectProfile c).or
        (verdict ctx.passesKey .keyProfile c)).or
          (verdict (ctx.passesNativeTools (allowedCandidates ctx candidates)) .nativeToolsCapability c)).or
            (verdict (ctx.passesStreamPolicy (capableCandidates ctx candidates)) .streamPolicy c) := by
    funext c
    unfold droppedAt verdict
    cases ctx.passesProject c <;> cases ctx.passesKey c <;>
      cases ctx.passesNativeTools (allowedCandidates ctx candidates) c <;>
        cases ctx.passesStreamPolicy (capableCandidates ctx candidates) c <;> rfl
  rw [hverdict]
  exact hall

end Accounts

/-! ## The partition -/

/-- The survivors are those that no stage drops, in their order; every other candidate is
rejected once, by the stage that drops it. What survives is on the lists and has the tags of
both profiles, is not forbidden for a stream, and requires one without a stream only if
every candidate that passed the stages before does. -/
structure Partitioned (ctx : FilterContext) (candidates : List (ChannelModelsCandidate Settings))
    (survivors : List (ChannelModelsCandidate Settings)) (diagnostics : SelectionDiagnostics) :
    Prop where
  sublist : survivors.Sublist candidates
  kept : survivors = candidates.filter fun c => (droppedAt ctx candidates c).isNone
  rejected : (diagnostics.rejected.map SelectionRejection.tag).Perm
    (candidates.filterMap fun c => (droppedAt ctx candidates c).map c.tagged)
  selected : diagnostics.selected = survivors.map (·.ref)
  profiles : ∀ c ∈ survivors, onList ctx.projectChannelIds c.channelId ∧
    (ctx.projectChannelTags = [] ∨
      matchChannelTags ctx.projectChannelTags ctx.projectChannelTagsMatchMode c.tags = true) ∧
    onList ctx.keyChannelIds c.channelId ∧
    (ctx.keyChannelTags = [] ∨
      matchChannelTags ctx.keyChannelTags ctx.keyChannelTagsMatchMode c.tags = true)
  forbid : ctx.stream = true → ∀ c ∈ survivors, c.streamPolicy ≠ "forbid"
  require : ctx.stream = false → ∀ c ∈ survivors, c.streamPolicy = "require" →
    ∀ other ∈ capableCandidates ctx candidates, other.streamPolicy = "require"

/-- A survivor passes every stage. -/
theorem droppedAt_isNone {ctx : FilterContext} {candidates : List (ChannelModelsCandidate Settings)}
    {c : ChannelModelsCandidate Settings} (h : (droppedAt ctx candidates c).isNone = true) :
    ctx.passesStreamPolicy (capableCandidates ctx candidates) c = true := by
  cases hstream : ctx.passesStreamPolicy (capableCandidates ctx candidates) c with
  | true => rfl
  | false =>
      unfold droppedAt at h
      rw [hstream] at h
      split_ifs at h <;> simp_all

theorem candidates_partitioned (quoted : String → String) (ctx : FilterContext)
    (candidates : List (ChannelModelsCandidate Settings)) :
    Partitioned ctx candidates (runFilterPipeline quoted candidates ctx).1
      (runFilterPipeline quoted candidates ctx).2 := by
  have haccounts := @accounts_filterPipeline _ candidates quoted ctx
  have hsurvivors : (runFilterPipeline quoted candidates ctx).1 =
      candidates.filter fun c => (droppedAt ctx candidates c).isNone := by
    refine haccounts.kept.trans (List.filter_congr fun c _ => ?_)
    cases droppedAt ctx candidates c <;> rfl
  have hpolicy : ∀ c ∈ (runFilterPipeline quoted candidates ctx).1,
      ctx.passesStreamPolicy (capableCandidates ctx candidates) c = true := by
    intro c hc
    rw [hsurvivors] at hc
    exact droppedAt_isNone (List.mem_filter.mp hc).2
  refine ⟨narrowing_filterPipeline quoted ctx candidates, hsurvivors, haccounts.rejected, rfl, ?_, ?_, ?_⟩
  · intro c hc
    exact (mem_profileStages.mp (mem_profileStages_of_filterPipeline hc)).2
  · intro hstream c hc
    have hpasses := hpolicy c hc
    unfold FilterContext.passesStreamPolicy at hpasses
    rw [if_pos hstream] at hpasses
    exact of_decide_eq_true hpasses
  · intro hstream c hc hrequire other hother
    have hpasses := hpolicy c hc
    unfold FilterContext.passesStreamPolicy at hpasses
    rw [if_neg (by simp [hstream])] at hpasses
    by_cases hnative : ((capableCandidates ctx candidates).any fun c => c.streamPolicy ≠ "require") = true
    · rw [if_pos hnative] at hpasses
      exact absurd hrequire (of_decide_eq_true hpasses)
    · -- no candidate of the earlier stages is without the requirement
      by_contra hne
      exact hnative (List.any_eq_true.mpr ⟨other, hother, decide_eq_true hne⟩)

end Conduit.Orchestrator
