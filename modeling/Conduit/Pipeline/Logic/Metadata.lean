import Conduit.Pipeline.Logic.Visits

/-!
# What an attempt finds in the metadata

Under a channel's configuration lies an underlay: what the keys held before
the configuration was laid over them. The next attempt gets the underlay back
for the keys of the last configuration and its own stamp for the others, so
what it observes is read off the underlay, the last configuration and the
candidate.
-/

namespace Conduit.Pipeline

open Base

/-! ## Overlays -/

section Overlay

variable (underlay : Metadata) (key : String)

theorem overlayMetadata_apply (entries : List (String × String)) :
    ∀ (metadata : Metadata) (previousValues : PreviousValues), (entries.map Prod.fst).Nodup →
      (overlayMetadata metadata entries previousValues).1 key =
        (entries.lookup key).or (metadata key) := by
  induction entries with
  | nil => exact fun _ _ _ => rfl
  | cons entry entries ih =>
      intro metadata previousValues hnodup
      obtain ⟨name, value⟩ := entry
      rw [List.map_cons, List.nodup_cons] at hnodup
      unfold overlayMetadata
      rw [ih _ _ hnodup.2]
      by_cases hkey : key = name
      · subst hkey
        have hnone : entries.lookup key = none := by
          rw [List.lookup_eq_none_iff]
          intro entry hentry
          rw [bne_iff_ne]
          intro heq
          exact hnodup.1 (List.mem_map.mpr ⟨entry, hentry, heq.symm⟩)
        rw [hnone, List.lookup_cons_self]
        exact Function.update_self _ _ _
      · have hother : (metadata.insert name value) key = metadata key :=
          Function.update_of_ne hkey _ _
        rw [hother, List.lookup_cons, beq_false_of_ne hkey]

theorem overlayMetadata_saved (entries : List (String × String)) :
    ∀ (metadata : Metadata) (previousValues : PreviousValues), (entries.map Prod.fst).Nodup →
      (overlayMetadata metadata entries previousValues).2 =
        previousValues ++ entries.map fun entry => (entry.1, metadata entry.1) := by
  induction entries with
  | nil => exact fun _ _ _ => (List.append_nil _).symm
  | cons entry entries ih =>
      intro metadata previousValues hnodup
      obtain ⟨name, value⟩ := entry
      rw [List.map_cons, List.nodup_cons] at hnodup
      unfold overlayMetadata
      rw [ih _ _ hnodup.2, List.append_assoc, List.map_cons, List.singleton_append]
      congr 2
      refine List.map_congr_left ?_
      intro entry hentry
      have hne : entry.1 ≠ name := fun heq => hnodup.1 (List.mem_map.mpr ⟨entry, hentry, heq⟩)
      exact congrArg (Prod.mk entry.1) (Function.update_of_ne hne _ _)

theorem restoreMetadata_saved (entries : List (String × String)) : ∀ metadata : Metadata,
    restoreMetadata metadata (entries.map fun entry => (entry.1, underlay entry.1)) key =
      if key ∈ entries.map Prod.fst then underlay key else metadata key := by
  induction entries with
  | nil => exact fun _ => rfl
  | cons entry entries ih =>
      intro metadata
      have hwrite : ∀ metadata' : Metadata,
          metadata' = Function.update metadata entry.1 (underlay entry.1) →
          restoreMetadata metadata' (entries.map fun entry => (entry.1, underlay entry.1)) key =
            if key ∈ (entry :: entries).map Prod.fst then underlay key else metadata key := by
        rintro _ rfl
        rw [ih, List.map_cons]
        by_cases hlater : key ∈ entries.map Prod.fst
        · rw [if_pos hlater, if_pos (List.mem_cons_of_mem _ hlater)]
        · rw [if_neg hlater]
          by_cases hkey : key = entry.1
          · rw [hkey, Function.update_self, if_pos List.mem_cons_self]
          · rw [Function.update_of_ne hkey, if_neg (List.not_mem_cons_of_ne_of_not_mem hkey hlater)]
      unfold restoreMetadata
      rw [List.map_cons, List.foldl_cons]
      apply hwrite
      dsimp only
      cases underlay entry.1 with
      | none => rfl
      | some value => rfl

end Overlay

namespace ChannelConfig

def keys (config : ChannelConfig) : List String := config.entries.map Prod.fst

def saved (config : ChannelConfig) (underlay : Metadata) : PreviousValues :=
  config.entries.map fun entry => (entry.1, underlay entry.1)

theorem get_of_not_mem {config : ChannelConfig} {key : String} (h : key ∉ config.keys) :
    config.get key = none := by
  unfold get
  rw [List.lookup_eq_none_iff]
  intro entry hentry
  rw [bne_iff_ne]
  intro heq
  exact h (List.mem_map.mpr ⟨entry, hentry, heq.symm⟩)

theorem get_of_mem {config : ChannelConfig} {key : String} (h : key ∈ config.keys) :
    ∃ value, config.get key = some value := by
  rw [← Option.isSome_iff_exists]
  unfold get
  rw [List.lookup_isSome_iff]
  obtain ⟨entry, hentry, rfl⟩ := List.mem_map.mp h
  exact ⟨entry, hentry, beq_self_eq_true _⟩

end ChannelConfig

/-! ## Stamps -/

/-- The value a candidate stamps on a key, if it stamps it: `some none` is a
key it removes. -/
def PipelineCandidate.stamp (candidate : PipelineCandidate) (requestModel : Option String)
    (key : String) : Option (Option String) :=
  if key = "request_model" then requestModel.map some
  else if key = "actual_model" then candidate.actualModel.map some
  else if key = "credential_identity" then some candidate.credentialIdentity
  else if key = "api_format" then some (some candidate.apiFormat)
  else if key = "channel_type" then some (some candidate.channelType)
  else if key = "channel_id" then some (some candidate.id)
  else none

/-- The keys whose stamp depends on the candidate, the endpoint format apart. -/
def stampedKeys : List String := ["channel_id", "channel_type", "credential_identity", "actual_model"]

theorem stampCandidate_apply (metadata : Metadata) (target : PipelineCandidate)
    (requestModel : Option String) (key : String) :
    stampCandidate metadata target requestModel key =
      (target.stamp requestModel key).getD (metadata key) := by
  unfold stampCandidate PipelineCandidate.stamp
  -- the keys are distinct, so each `if` decides one write
  cases requestModel <;> cases target.actualModel <;> cases target.credentialIdentity <;>
    simp only [Metadata.insert, Metadata.remove, Function.update_apply] <;> split_ifs <;>
    first | rfl | simp_all

theorem stamp_eq_of_ne {candidate candidate' : PipelineCandidate} {requestModel : Option String}
    {key : String} (hstamped : key ∉ stampedKeys) (hformat : key ≠ "api_format") :
    candidate.stamp requestModel key = candidate'.stamp requestModel key := by
  simp only [stampedKeys, List.mem_cons, List.not_mem_nil, or_false, not_or] at hstamped
  obtain ⟨hid, htype, hidentity, hmodel⟩ := hstamped
  unfold PipelineCandidate.stamp
  rw [if_neg hid, if_neg htype, if_neg hidentity, if_neg hmodel, if_neg hformat]
  rw [if_neg hid, if_neg htype, if_neg hidentity, if_neg hmodel, if_neg hformat]

/-! ## One attempt after another -/

section Underlay

variable (requestModel : Option String)

/-- What lies under the configuration of `target`, after a configuration
`config` was laid over `underlay`. -/
def nextUnderlay (metadata underlay : Metadata) (config : ChannelConfig)
    (target : PipelineCandidate) : Metadata := fun key =>
  if key ∈ config.keys then underlay key else (target.stamp requestModel key).getD (metadata key)

variable {requestModel}

theorem replace_underlay (metadata underlay : Metadata) (config : ChannelConfig)
    (target : PipelineCandidate) (key : String) :
    restoreMetadata (stampCandidate metadata target requestModel) (config.saved underlay) key =
      nextUnderlay requestModel metadata underlay config target key := by
  unfold ChannelConfig.saved nextUnderlay
  rw [restoreMetadata_saved, stampCandidate_apply]
  rfl

theorem replace_metadata (metadata underlay : Metadata) (config : ChannelConfig)
    (target : PipelineCandidate) (key : String) :
    (replaceChannelConfigMetadata (stampCandidate metadata target requestModel)
      target.channelConfig (config.saved underlay)).1 key =
      (target.channelConfig.get key).or
        (nextUnderlay requestModel metadata underlay config target key) := by
  unfold replaceChannelConfigMetadata
  rw [overlayMetadata_apply _ _ _ _ target.channelConfig.nodup, replace_underlay]
  rfl

theorem replace_saved (metadata underlay : Metadata) (config : ChannelConfig)
    (target : PipelineCandidate) :
    (replaceChannelConfigMetadata (stampCandidate metadata target requestModel)
      target.channelConfig (config.saved underlay)).2 =
      target.channelConfig.saved (nextUnderlay requestModel metadata underlay config target) := by
  unfold replaceChannelConfigMetadata
  rw [overlayMetadata_saved _ _ _ target.channelConfig.nodup, List.nil_append]
  refine List.map_congr_left ?_
  intro entry _
  rw [replace_underlay]

/-- The keys that the pipeline writes during an attempt. -/
def formatKeys : List String := ["api_format", "format"]

theorem observed_formats (formats : PipelineCandidate → String × String)
    (metadata metadata' : Metadata) (previous previous' : PreviousValues)
    (target : PipelineCandidate) {key : String} (hformat : key ∈ formatKeys) :
    observedMetadata formats requestModel metadata previous target key =
      observedMetadata formats requestModel metadata' previous' target key := by
  unfold observedMetadata writeFormats Metadata.insert
  by_cases hlast : key = "format"
  · rw [hlast, Function.update_self, Function.update_self]
  · have hfirst : key = "api_format" := by
      simpa [formatKeys, hlast] using hformat
    rw [hfirst]
    rfl

theorem observed_apply (formats : PipelineCandidate → String × String)
    (metadata underlay : Metadata) (config : ChannelConfig) (target : PipelineCandidate)
    {key : String} (hformat : key ∉ formatKeys) :
    observedMetadata formats requestModel metadata (config.saved underlay) target key =
      (target.channelConfig.get key).or
        (nextUnderlay requestModel metadata underlay config target key) := by
  simp only [formatKeys, List.mem_cons, List.not_mem_nil, or_false, not_or] at hformat
  unfold observedMetadata writeFormats Metadata.insert
  rw [Function.update_of_ne hformat.2, Function.update_of_ne hformat.1, replace_metadata]

/-- What the first attempt finds. -/
theorem observed_first (formats : PipelineCandidate → String × String) (base : Metadata)
    (target : PipelineCandidate) {key : String} (hformat : key ∉ formatKeys) :
    observedMetadata formats requestModel base [] target key =
      (target.channelConfig.get key).or ((target.stamp requestModel key).getD (base key)) := by
  have hempty : key ∉ ChannelConfig.empty.keys := List.not_mem_nil
  have hnone : observedMetadata formats requestModel base (ChannelConfig.empty.saved base) target key =
      _ := observed_apply formats base base .empty target hformat
  unfold nextUnderlay at hnone
  rw [if_neg hempty] at hnone
  exact hnone

end Underlay

/-- Whether `target` finds the same on a key that its configuration leaves
open when `earlier` was tried before it. -/
structure PipelineCandidate.Indifferent (requestModel : Option String) (key : String)
    (earlier target : PipelineCandidate) : Prop where
  /-- What `target` does not stamp, `earlier` did not stamp. -/
  unstamped : target.stamp requestModel key = none → earlier.stamp requestModel key = none
  /-- What `earlier` configured and `target` stamps, `earlier` stamped the same. -/
  restored : key ∈ earlier.channelConfig.keys → ∀ value : Option String,
    target.stamp requestModel key = some value → earlier.stamp requestModel key = some value

/-- No candidate of the pool leaves anything behind for another one. -/
def Separated (requestModel : Option String) (pool : List PipelineCandidate) : Prop :=
  ∀ key ∈ stampedKeys, ∀ earlier ∈ pool, ∀ target ∈ pool, key ∉ target.channelConfig.keys →
    earlier.Indifferent requestModel key target

theorem Separated.indifferent {requestModel : Option String} {pool : List PipelineCandidate}
    (h : Separated requestModel pool) {key : String} (hformat : key ∉ formatKeys)
    {earlier target : PipelineCandidate} (hearlier : earlier ∈ pool) (htarget : target ∈ pool)
    (hopen : key ∉ target.channelConfig.keys) : earlier.Indifferent requestModel key target := by
  by_cases hstamped : key ∈ stampedKeys
  · exact h key hstamped earlier hearlier target htarget hopen
  · -- every candidate stamps the other keys alike
    have hapi : key ≠ "api_format" := by
      rintro rfl
      exact hformat List.mem_cons_self
    have hsame : earlier.stamp requestModel key = target.stamp requestModel key :=
      stamp_eq_of_ne hstamped hapi
    exact ⟨fun hnone => hsame.trans hnone, fun _ _ hsome => hsame.trans hsome⟩

variable {candidates : List PipelineCandidate} {Response : Type}

/-- The middlewares leave the metadata alone. -/
def Attempt.KeepsMetadata (attempt : Attempt Response) : Prop :=
  ∀ (metadata : Metadata) (key : String), key ∉ formatKeys →
    attempt.touch metadata key = metadata key

/-- A configuration lies over the underlay. -/
structure Loop.Laid (loop : Loop candidates Response) (underlay : Metadata)
    (config : ChannelConfig) : Prop where
  previous : loop.previousChannelConfigValues = config.saved underlay
  metadata : ∀ key : String, key ∉ formatKeys →
    loop.ctx.metadata key = (config.get key).or (underlay key)

/-- What a pool leaves in an underlay is what the next candidate would have
found in the first place. -/
structure Clean (requestModel : Option String) (base : Metadata) (pool : List PipelineCandidate)
    (underlay : Metadata) (config : ChannelConfig) : Prop where
  unstamped : ∀ key : String, key ∉ formatKeys → ∀ target ∈ pool,
    key ∉ target.channelConfig.keys → target.stamp requestModel key = none →
      underlay key = base key
  restored : ∀ key : String, key ∉ formatKeys → ∀ target ∈ pool,
    key ∉ target.channelConfig.keys → key ∈ config.keys → ∀ value : Option String,
      target.stamp requestModel key = some value → underlay key = value

section Observed

variable {requestModel : Option String} {base underlay : Metadata} {pool : List PipelineCandidate}
  {loop next : Loop candidates Response} {config : ChannelConfig}

/-- A key that the last configuration does not set shows the underlay. -/
theorem Loop.Laid.uncovered (h : loop.Laid underlay config) {key : String}
    (hformat : key ∉ formatKeys) (hkey : key ∉ config.keys) :
    loop.ctx.metadata key = underlay key := by
  rw [h.metadata key hformat, ChannelConfig.get_of_not_mem hkey]
  rfl

/-- The next underlay, from the last one alone. -/
theorem Loop.Laid.nextUnderlay (h : loop.Laid underlay config) (target : PipelineCandidate)
    {key : String} (hformat : key ∉ formatKeys) :
    nextUnderlay requestModel loop.ctx.metadata underlay config target key =
      if key ∈ config.keys then underlay key
      else (target.stamp requestModel key).getD (underlay key) := by
  unfold Pipeline.nextUnderlay
  split_ifs with hcovered
  · rfl
  · rw [h.uncovered hformat hcovered]

/-- A pass lays the next configuration, if the attempt kept the metadata. -/
theorem Loop.Laid.continues (h : loop.Laid underlay config) {attempt : Attempt Response}
    (hkeeps : attempt.KeepsMetadata) {decision : RetryDecision} {err : ConduitError}
    (hnext : loop.Continues requestModel attempt decision err next) :
    next.Laid (Pipeline.nextUnderlay requestModel loop.ctx.metadata underlay config
      loop.cursor.current) loop.cursor.current.channelConfig := by
  have hmetadata := hnext.metadata
  have hprevious := hnext.previous
  unfold Loop.start PipelineContext.recordOrder at hmetadata hprevious
  dsimp only at hmetadata hprevious
  rw [h.previous] at hmetadata hprevious
  rw [replace_saved] at hprevious
  refine ⟨hprevious, ?_⟩
  intro key hformat
  rw [hmetadata, hkeeps _ key hformat, replace_metadata]

/-- The next candidate of the pool finds what it would have found first. -/
theorem Loop.Laid.observed (h : loop.Laid underlay config)
    (hclean : Clean requestModel base pool underlay config)
    (formats : PipelineCandidate → String × String) {target : PipelineCandidate}
    (hpool : target ∈ pool) (key : String) :
    observedMetadata formats requestModel loop.ctx.metadata loop.previousChannelConfigValues
        target key =
      observedMetadata formats requestModel base [] target key := by
  by_cases hformat : key ∈ formatKeys
  · exact observed_formats formats _ _ _ _ target hformat
  rw [h.previous, observed_apply formats _ _ _ _ hformat, observed_first formats _ _ hformat,
    h.nextUnderlay target hformat]
  by_cases hset : key ∈ target.channelConfig.keys
  · obtain ⟨value, hvalue⟩ := ChannelConfig.get_of_mem hset
    rw [hvalue]
    rfl
  · cases hstamp : target.stamp requestModel key with
    | none =>
        rw [hclean.unstamped key hformat target hpool hset hstamp]
        split_ifs <;> rfl
    | some value =>
        split_ifs with hcovered
        · rw [hclean.restored key hformat target hpool hset hcovered value hstamp]
          rfl
        · rfl

/-- A candidate of a separated pool leaves the underlay clean. -/
theorem Loop.Laid.clean (h : loop.Laid underlay config)
    (hclean : Clean requestModel base pool underlay config)
    (hseparated : Separated requestModel pool) {earlier : PipelineCandidate}
    (hpool : earlier ∈ pool) :
    Clean requestModel base pool
      (Pipeline.nextUnderlay requestModel loop.ctx.metadata underlay config earlier)
      earlier.channelConfig := by
  refine ⟨?_, ?_⟩
  · intro key hformat target htarget hopen hstamp
    have hindifferent := hseparated.indifferent hformat hpool htarget hopen
    have hbase := hclean.unstamped key hformat target htarget hopen hstamp
    rw [h.nextUnderlay earlier hformat, hindifferent.unstamped hstamp]
    split_ifs
    · exact hbase
    · exact hbase
  · intro key hformat target htarget hopen hset value hstamp
    have hindifferent := hseparated.indifferent hformat hpool htarget hopen
    rw [h.nextUnderlay earlier hformat, hindifferent.restored hset value hstamp]
    split_ifs with hcovered
    · exact hclean.restored key hformat target htarget hopen hcovered value hstamp
    · rfl

/-! ## Runs -/

/-- The start of a run is a configuration of its own over the base. -/
theorem start_laid {ctx : PipelineContext} {nowMs : Int}
    (hstart : (.start candidates ctx nowMs : Process candidates Response) = .running loop) :
    loop.Laid ctx.metadata .empty ∧ loop.ctx.canceled = ctx.canceled ∧
      loop.cursor.currentIndex = 0 ∧ loop.cursor.sameChannelRetries = 0 := by
  unfold Process.start at hstart
  unfold buildFailoverState at hstart
  split_ifs at hstart with hcandidates
  obtain rfl := Process.running.inj hstart
  exact ⟨⟨rfl, fun _ _ => rfl⟩, rfl, rfl, rfl⟩

theorem clean_empty (base : Metadata) (pool : List PipelineCandidate) :
    Clean requestModel base pool base .empty :=
  ⟨fun _ _ _ _ _ _ => rfl, fun _ _ _ _ _ hmem => absurd hmem List.not_mem_nil⟩

variable (policy : RetryPolicy) (engine : RegexEngine) (ctx : PipelineContext) (nowMs : Int)

theorem FailoverState.current_mem (state : FailoverState candidates) : state.current ∈ candidates :=
  List.get_mem _ _

theorem run_clean (hpool : candidates ⊆ pool) (hseparated : Separated requestModel pool)
    {loop' : Loop candidates Response} (attempts : List (Attempt Response)) :
    ∀ (loop : Loop candidates Response) (underlay : Metadata) (config : ChannelConfig),
      loop.Laid underlay config → Clean requestModel base pool underlay config →
      (∀ attempt ∈ attempts, attempt.KeepsMetadata) →
      (processWithInboundPolicy policy engine requestModel candidates ctx nowMs).run
        (.running loop) attempts = .running loop' →
      ∃ underlay config, loop'.Laid underlay config ∧
        Clean requestModel base pool underlay config := by
  induction attempts with
  | nil =>
      intro loop underlay config hlaid hclean _ hrun
      obtain rfl := Process.running.inj hrun
      exact ⟨underlay, config, hlaid, hclean⟩
  | cons attempt attempts ih =>
      intro loop underlay config hlaid hclean hkeeps hrun
      have hstep : (processWithInboundPolicy policy engine requestModel candidates ctx nowMs).step
          (.running loop) attempt = loop.pass policy engine requestModel attempt := rfl
      rw [TSys.run_cons, hstep] at hrun
      cases houtcome : attempt.outcome with
      | ok response =>
          obtain ⟨ctx', hpass, _⟩ := loop.pass_ok policy engine requestModel attempt houtcome
          rw [hpass, run_returned] at hrun
          exact absurd hrun (by simp)
      | error err =>
          rcases loop.pass_error policy engine requestModel attempt houtcome with
            ⟨_, ctx', hpass, _⟩ | ⟨_, next, hpass, hnext⟩
          · rw [hpass, run_returned] at hrun
            exact absurd hrun (by simp)
          · rw [hpass] at hrun
            exact ih next _ _ (hlaid.continues (hkeeps attempt List.mem_cons_self) hnext)
              (hlaid.clean hclean hseparated (hpool loop.cursor.current_mem))
              (fun attempt' hattempt => hkeeps attempt' (List.mem_cons_of_mem _ hattempt)) hrun

/-! ## A switch -/

/-- An attempt that fails on a channel with others after it. -/
def Attempt.switching : Attempt Response := { Attempt.failing with hasMoreChannels := true }

theorem Attempt.switching_keeps : (Attempt.switching : Attempt Response).KeepsMetadata :=
  fun _ _ _ => rfl

variable (Response requestModel) in
/-- One switch between two candidates. -/
theorem run_switching (earlier target : PipelineCandidate) (base : Metadata) :
    ∃ (loop next : Loop [earlier, target] Response),
      (processWithInboundPolicy ⟨true, 1, 0⟩ engine requestModel [earlier, target]
        ⟨base, [], false, none⟩ 0).run (.start [earlier, target] ⟨base, [], false, none⟩ 0)
        [.switching] = .running next ∧ next.cursor.current = target ∧
      loop.Laid base .empty ∧
      next.Laid (Pipeline.nextUnderlay requestModel loop.ctx.metadata base .empty earlier)
        earlier.channelConfig := by
  obtain ⟨loop, hstart⟩ : ∃ loop : Loop [earlier, target] Response,
      Process.start [earlier, target] ⟨base, [], false, none⟩ 0 = .running loop := ⟨_, rfl⟩
  obtain ⟨hlaid, hlive, hindex, hretries⟩ := start_laid hstart
  have hfirst : loop.cursor.current = earlier := by
    unfold FailoverState.current
    simp [hindex]
  have hdecision : loop.decision ⟨true, 1, 0⟩ engine .switching (.new .internal "") =
      .retryNextChannel := by
    unfold Loop.decision Loop.canceledAfter decideRetry FailoverState.retryState
    rw [hlive, hindex, hretries]
    simp [Attempt.retryOutcome, Attempt.switching, Attempt.failing, hindex]
  have hpass := loop.pass_error ⟨true, 1, 0⟩ engine requestModel .switching rfl
  rw [hdecision] at hpass
  rcases hpass with ⟨hstop, _⟩ | ⟨_, next, hpass, hnext⟩
  · exact absurd hstop (by simp)
  · have hmoved : next.cursor.current = target := by
      have hnow : next.cursor.currentIndex = 1 := by
        rw [hnext.cursor.1, hindex]
      unfold FailoverState.current
      simp [hnow]
    have hnextLaid := hlaid.continues Attempt.switching_keeps hnext
    rw [hfirst] at hnextLaid
    refine ⟨loop, next, ?_, hmoved, hlaid, hnextLaid⟩
    rw [hstart]
    exact hpass

/-- What `target` finds on an open key right after `earlier`. -/
theorem observed_switched {earlier target : PipelineCandidate}
    {loop next : Loop [earlier, target] Response}
    (hlaid : loop.Laid base .empty)
    (hnext : next.Laid (Pipeline.nextUnderlay requestModel loop.ctx.metadata base .empty earlier)
      earlier.channelConfig)
    (formats : PipelineCandidate → String × String) {key : String} (hformat : key ∉ formatKeys)
    (hopen : key ∉ target.channelConfig.keys) :
    observedMetadata formats requestModel next.ctx.metadata next.previousChannelConfigValues
        target key =
      if key ∈ earlier.channelConfig.keys then (earlier.stamp requestModel key).getD (base key)
      else (target.stamp requestModel key).getD
        ((earlier.stamp requestModel key).getD (base key)) := by
  have hempty : key ∉ ChannelConfig.empty.keys := List.not_mem_nil
  rw [hnext.previous, observed_apply formats _ _ _ _ hformat, ChannelConfig.get_of_not_mem hopen,
    hnext.nextUnderlay target hformat, hlaid.nextUnderlay earlier hformat, if_neg hempty]
  rfl

/-- A value other than a given one. -/
theorem exists_ne_value (value : Option String) : ∃ other : Option String, other ≠ value := by
  cases value with
  | none => exact ⟨some "", by simp⟩
  | some _ => exact ⟨none, by simp⟩

/-- If `target` finds after `earlier` what it would have found first, whatever
the base, it is indifferent. -/
theorem indifferent_of_observed {earlier target : PipelineCandidate} {key : String}
    (h : ∀ base : Option String,
      (if key ∈ earlier.channelConfig.keys then (earlier.stamp requestModel key).getD base
        else (target.stamp requestModel key).getD ((earlier.stamp requestModel key).getD base)) =
      (target.stamp requestModel key).getD base) :
    earlier.Indifferent requestModel key target := by
  refine ⟨?_, ?_⟩
  · intro hnone
    cases hstamp : earlier.stamp requestModel key with
    | none => rfl
    | some value =>
        obtain ⟨base, hbase⟩ := exists_ne_value value
        have hsame := h base
        rw [hnone, hstamp] at hsame
        exact absurd (by simpa using hsame) hbase.symm
  · intro hset value hvalue
    cases hstamp : earlier.stamp requestModel key with
    | none =>
        obtain ⟨base, hbase⟩ := exists_ne_value value
        have hsame := h base
        rw [if_pos hset, hvalue, hstamp] at hsame
        exact absurd hsame hbase
    | some value' =>
        have hsame := h none
        rw [if_pos hset, hvalue, hstamp] at hsame
        exact congrArg some hsame

end Observed

end Conduit.Pipeline
