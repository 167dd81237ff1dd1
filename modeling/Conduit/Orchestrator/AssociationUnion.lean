import Conduit.Base.FirstWins
import Conduit.Orchestrator.Candidates
import Mathlib

/-!
# What a list of associations selects

An association offers entries of channels under the names they are listed by.
The matching keeps of all the offers the first under each channel and name,
without looking at `When`; the request then drops those whose `When` does not
hold. So an entry is selected exactly when an applicable association offers it
under a channel and name that no earlier association has taken.
-/

namespace Conduit.Orchestrator

open Base
open Pipeline (RegexEngine)

variable {Settings : Type}

/-! ## Offers -/

/-- An entry of a channel under the name it is listed by. -/
structure Offer (Settings : Type) where
  modelId : String
  channel : ChannelSnapshot Settings
  entry : ChannelModelEntry
  when : Option ModelAssociationWhen

/-- What the tracker remembers of an offer. -/
def Offer.key (offer : Offer Settings) : String × String := (offer.channel.id, offer.modelId)

/-- The entries an association matches in a channel, and the channels it looks at. -/
structure Selection (Settings : Type) where
  select : ChannelSnapshot Settings → List (String × ChannelModelEntry)
  channels : List (Nat × ChannelSnapshot Settings)

def Selection.offers (when : Option ModelAssociationWhen) (selection : Selection Settings) :
    List (Offer Settings) :=
  selection.channels.flatMap fun channel =>
    (selection.select channel.2).map fun listed => ⟨listed.1, channel.2, listed.2, when⟩

section Selections

variable (engine : RegexEngine) (channels : List (ChannelSnapshot Settings))

/-- What the association's kind and its branch say. -/
def ModelAssociation.selection (assoc : ModelAssociation) : Option (Selection Settings) :=
  if assoc.kind = "channel_model" then
    assoc.channelModel.map fun branch =>
      ⟨namedEntry branch.modelId, (findChannel channels branch.channelId).toList⟩
  else if assoc.kind = "channel_regex" then
    assoc.channelRegex.bind fun branch => (engine branch.pattern).map fun isMatch =>
      ⟨matchedEntries isMatch, (findChannel channels branch.channelId).toList⟩
  else if assoc.kind = "regex" then
    assoc.regex.bind fun branch => (engine branch.pattern).map fun isMatch =>
      ⟨matchedEntries isMatch, (enumerate channels).filter fun entry =>
        !shouldExcludeChannel engine entry.2 branch.exclude⟩
  else if assoc.kind = "model" then
    assoc.modelId.map fun branch =>
      ⟨namedEntry branch.modelId, (enumerate channels).filter fun entry =>
        !shouldExcludeChannel engine entry.2 branch.exclude⟩
  else if assoc.kind = "channel_tags_model" then
    assoc.channelTagsModel.map fun branch =>
      ⟨namedEntry branch.modelId, (enumerate channels).filter fun entry =>
        channelHasAnyTag entry.2 branch.channelTags⟩
  else if assoc.kind = "channel_tags_regex" then
    assoc.channelTagsRegex.bind fun branch => (engine branch.pattern).map fun isMatch =>
      ⟨matchedEntries isMatch, (enumerate channels).filter fun entry =>
        channelHasAnyTag entry.2 branch.channelTags⟩
  else none

/-- The offers of one association, whatever its `When`. -/
def ModelAssociation.offers (assoc : ModelAssociation) : List (Offer Settings) :=
  (assoc.selection engine channels).elim [] (Selection.offers assoc.when)

variable {engine channels}

theorem matchSingleAssociation_eq (assoc : ModelAssociation) (tracker : DuplicateTracker) :
    matchSingleAssociation engine assoc channels tracker =
      (assoc.selection engine channels).elim (noConnection tracker) fun selection =>
        connect assoc.priority selection.select selection.channels tracker := by
  unfold matchSingleAssociation ModelAssociation.selection
  by_cases h₁ : assoc.kind = "channel_model"
  · rw [if_pos h₁, if_pos h₁]
    unfold matchChannelModel
    cases assoc.channelModel <;> rfl
  rw [if_neg h₁, if_neg h₁]
  by_cases h₂ : assoc.kind = "channel_regex"
  · rw [if_pos h₂, if_pos h₂]
    unfold matchChannelRegex
    cases assoc.channelRegex with
    | none => rfl
    | some branch => cases hregex : engine branch.pattern <;> simp [hregex]
  rw [if_neg h₂, if_neg h₂]
  by_cases h₃ : assoc.kind = "regex"
  · rw [if_pos h₃, if_pos h₃]
    unfold matchRegex
    cases assoc.regex with
    | none => rfl
    | some branch => cases hregex : engine branch.pattern <;> simp [hregex]
  rw [if_neg h₃, if_neg h₃]
  by_cases h₄ : assoc.kind = "model"
  · rw [if_pos h₄, if_pos h₄]
    unfold matchModel
    cases assoc.modelId <;> rfl
  rw [if_neg h₄, if_neg h₄]
  by_cases h₅ : assoc.kind = "channel_tags_model"
  · rw [if_pos h₅, if_pos h₅]
    unfold matchChannelTagsModel
    cases assoc.channelTagsModel <;> rfl
  rw [if_neg h₅, if_neg h₅]
  by_cases h₆ : assoc.kind = "channel_tags_regex"
  · rw [if_pos h₆, if_pos h₆]
    unfold matchChannelTagsRegex
    cases assoc.channelTagsRegex with
    | none => rfl
    | some branch => cases hregex : engine branch.pattern <;> simp [hregex]
  rw [if_neg h₆, if_neg h₆]
  rfl

/-- An association looks at channels of the list only. -/
theorem mem_selection_channels {assoc : ModelAssociation} {selection : Selection Settings}
    (h : assoc.selection engine channels = some selection) :
    ∀ channel ∈ selection.channels, channel ∈ enumerate channels := by
  have hfind : ∀ (id : Int) (channel : Nat × ChannelSnapshot Settings),
      channel ∈ (findChannel channels id).toList → channel ∈ enumerate channels := by
    intro id channel hmem
    exact List.mem_of_find?_eq_some (Option.mem_toList.mp hmem)
  unfold ModelAssociation.selection at h
  split_ifs at h
  · obtain ⟨branch, -, rfl⟩ := Option.map_eq_some_iff.mp h
    exact hfind branch.channelId
  · obtain ⟨branch, -, h⟩ := Option.bind_eq_some_iff.mp h
    obtain ⟨_, -, rfl⟩ := Option.map_eq_some_iff.mp h
    exact hfind branch.channelId
  · obtain ⟨branch, -, h⟩ := Option.bind_eq_some_iff.mp h
    obtain ⟨_, -, rfl⟩ := Option.map_eq_some_iff.mp h
    exact fun _ => List.mem_of_mem_filter
  · obtain ⟨branch, -, rfl⟩ := Option.map_eq_some_iff.mp h
    exact fun _ => List.mem_of_mem_filter
  · obtain ⟨branch, -, rfl⟩ := Option.map_eq_some_iff.mp h
    exact fun _ => List.mem_of_mem_filter
  · obtain ⟨branch, -, h⟩ := Option.bind_eq_some_iff.mp h
    obtain ⟨_, -, rfl⟩ := Option.map_eq_some_iff.mp h
    exact fun _ => List.mem_of_mem_filter

end Selections

theorem getElem?_of_mem_enumerate {channels : List (ChannelSnapshot Settings)}
    {channel : Nat × ChannelSnapshot Settings} (h : channel ∈ enumerate channels) :
    channels[channel.1]? = some channel.2 := by
  obtain ⟨⟨ch, idx⟩, hmem, rfl⟩ := List.mem_map.mp h
  exact List.mem_zipIdx_iff_getElem?.mp hmem

/-! ## Matching keeps the first offer under each key -/

theorem addEntries_models (channelId : String) (entries : List (String × ChannelModelEntry))
    (tracker : DuplicateTracker) :
    (addEntries channelId entries tracker).1 =
      (firstBy (fun listed => (channelId, listed.1)) tracker entries).map Prod.snd := by
  induction entries generalizing tracker with
  | nil => rfl
  | cons listed entries ih =>
      obtain ⟨modelId, entry⟩ := listed
      rw [firstBy_cons]
      unfold addEntries DuplicateTracker.add
      by_cases hseen : (channelId, modelId) ∈ tracker
      · rw [if_pos hseen, if_pos (List.contains_iff_mem.mpr hseen)]
        exact ih tracker
      · rw [if_neg hseen, if_neg fun h => hseen (List.contains_iff_mem.mp h)]
        exact congrArg (entry :: ·) (ih _)

theorem mem_addEntries_tracker {channelId : String} {entries : List (String × ChannelModelEntry)}
    {tracker : DuplicateTracker} {key : String × String} :
    key ∈ (addEntries channelId entries tracker).2 ↔
      key ∈ entries.map (fun listed => (channelId, listed.1)) ++ tracker := by
  induction entries generalizing tracker with
  | nil => rfl
  | cons listed entries ih =>
      obtain ⟨modelId, entry⟩ := listed
      unfold addEntries DuplicateTracker.add
      by_cases hseen : (channelId, modelId) ∈ tracker
      · rw [if_pos (List.contains_iff_mem.mpr hseen)]
        refine ih.trans ?_
        simp only [List.map_cons, List.cons_append, List.mem_cons, List.mem_append]
        constructor
        · exact .inr
        · rintro (rfl | h)
          · exact .inr hseen
          · exact h
      · rw [if_neg fun h => hseen (List.contains_iff_mem.mp h)]
        refine ih.trans ?_
        simp only [List.map_cons, List.cons_append, List.mem_cons, List.mem_append]
        tauto

theorem mem_connect_tracker {priority : Int} {selection : Selection Settings}
    {tracker : DuplicateTracker} {key : String × String} (when : Option ModelAssociationWhen) :
    key ∈ (connect priority selection.select selection.channels tracker).2 ↔
      key ∈ (selection.offers when).map Offer.key ++ tracker := by
  obtain ⟨select, channels⟩ := selection
  induction channels generalizing tracker with
  | nil => rfl
  | cons channel channels ih =>
      refine ih.trans ?_
      unfold Selection.offers
      rw [List.flatMap_cons, List.map_append, List.map_map]
      simp only [List.mem_append, mem_addEntries_tracker]
      exact or_left_comm.trans or_assoc.symm

theorem connect_cons (priority : Int)
    (select : ChannelSnapshot Settings → List (String × ChannelModelEntry)) (idx : Nat)
    (ch : ChannelSnapshot Settings) (inspected : List (Nat × ChannelSnapshot Settings))
    (tracker : DuplicateTracker) :
    (connect priority select ((idx, ch) :: inspected) tracker).1 =
      let (models, tracker) := addEntries ch.id (select ch) tracker
      let later := (connect priority select inspected tracker).1
      if models.isEmpty then later else ⟨idx, models, priority⟩ :: later := rfl

/-- What resolved associations provide, whether or not it applies. -/
def provided (resolved : List (ResolvedAssociationCandidate Settings)) :
    List (ChannelSnapshot Settings × ChannelModelEntry × Option ModelAssociationWhen) :=
  resolved.flatMap fun r => r.models.map fun entry => (r.channel, entry, r.when)

def Offer.provision (offer : Offer Settings) :
    ChannelSnapshot Settings × ChannelModelEntry × Option ModelAssociationWhen :=
  (offer.channel, offer.entry, offer.when)

theorem provided_append (resolved resolved' : List (ResolvedAssociationCandidate Settings)) :
    provided (resolved ++ resolved') = provided resolved ++ provided resolved' :=
  List.flatMap_append

variable {engine : RegexEngine} {channels : List (ChannelSnapshot Settings)}

theorem resolveMatches_one_cons (when : Option ModelAssociationWhen) (conn : MatchedConnection)
    (connections : List MatchedConnection) :
    resolveMatches channels [⟨when, conn :: connections⟩] =
      ((channels[conn.channelIdx]?.map fun ch =>
        (⟨ch, conn.priority, conn.models, when⟩ : ResolvedAssociationCandidate Settings)).toList ++
        resolveMatches channels [⟨when, connections⟩]) := by
  unfold resolveMatches
  rw [List.flatMap_singleton, List.flatMap_singleton, List.filterMap_cons]
  cases channels[conn.channelIdx]? <;> rfl

theorem resolveMatches_cons (m : AssociationMatch) (matched : List AssociationMatch) :
    resolveMatches channels (m :: matched) =
      resolveMatches channels [m] ++ resolveMatches channels matched := by
  unfold resolveMatches
  rw [List.flatMap_cons, List.flatMap_cons, List.flatMap_nil, List.append_nil]

/-- The connections of one association are its first offers under new keys. -/
theorem provided_connect (when : Option ModelAssociationWhen) (priority : Int)
    {selection : Selection Settings} (tracker : DuplicateTracker)
    (hchannels : ∀ channel ∈ selection.channels, channel ∈ enumerate channels) :
    provided (resolveMatches channels
        [⟨when, (connect priority selection.select selection.channels tracker).1⟩]) =
      (firstBy Offer.key tracker (selection.offers when)).map Offer.provision := by
  obtain ⟨select, inspected⟩ := selection
  induction inspected generalizing tracker with
  | nil => rfl
  | cons channel inspected ih =>
      obtain ⟨idx, ch⟩ := channel
      have hget : channels[idx]? = some ch :=
        getElem?_of_mem_enumerate (hchannels (idx, ch) List.mem_cons_self)
      have hrest := ih (addEntries ch.id (select ch) tracker).2 fun c hc =>
        hchannels c (List.mem_cons_of_mem _ hc)
      have hfirst : (addEntries ch.id (select ch) tracker).1.map (fun entry => (ch, entry, when)) =
          (firstBy Offer.key tracker ((select ch).map fun listed =>
            ⟨listed.1, ch, listed.2, when⟩)).map Offer.provision := by
        rw [addEntries_models, firstBy_map, List.map_map, List.map_map]
        rfl
      have htracker : firstBy Offer.key (addEntries ch.id (select ch) tracker).2
            (Selection.offers when ⟨select, inspected⟩) =
          firstBy Offer.key (((select ch).map fun listed =>
            (⟨listed.1, ch, listed.2, when⟩ : Offer Settings)).map Offer.key ++ tracker)
            (Selection.offers when ⟨select, inspected⟩) := by
        apply firstBy_congr
        intro key
        rw [mem_addEntries_tracker, List.map_map]
        rfl
      have hoffers : Selection.offers when ⟨select, (idx, ch) :: inspected⟩ =
          ((select ch).map fun listed => ⟨listed.1, ch, listed.2, when⟩) ++
            Selection.offers when ⟨select, inspected⟩ := List.flatMap_cons
      rw [hoffers, firstBy_append, List.map_append, ← hfirst, ← htracker, ← hrest,
        connect_cons]
      -- A channel without new entries has no connection, and provides nothing.
      by_cases hempty : (addEntries ch.id (select ch) tracker).1 = []
      · simp [hempty]
      · simp [hempty, resolveMatches_one_cons, provided, hget]

/-- A disabled association offers nothing. -/
def ModelAssociation.enabledOffers (engine : RegexEngine)
    (channels : List (ChannelSnapshot Settings)) (assoc : ModelAssociation) :
    List (Offer Settings) :=
  if assoc.disabled then [] else assoc.offers engine channels

theorem provided_matchFrom (associations : List ModelAssociation) (tracker : DuplicateTracker) :
    provided (resolveMatches channels (matchFrom engine channels associations tracker)) =
      (firstBy Offer.key tracker (associations.flatMap
        (ModelAssociation.enabledOffers engine channels))).map Offer.provision := by
  induction associations generalizing tracker with
  | nil => rfl
  | cons assoc associations ih =>
      rw [List.flatMap_cons]
      unfold ModelAssociation.enabledOffers
      by_cases hdisabled : assoc.disabled = true
      · rw [matchFrom, if_pos hdisabled, if_pos hdisabled, List.nil_append]
        exact ih tracker
      have hmatch : matchFrom engine channels (assoc :: associations) tracker =
          let matched := matchSingleAssociation engine assoc channels tracker
          let later := matchFrom engine channels associations matched.2
          if matched.1.isEmpty then later else ⟨assoc.when, matched.1⟩ :: later :=
        if_neg hdisabled
      have hsplit : ∀ (connections : List MatchedConnection) (later : List AssociationMatch),
          provided (resolveMatches channels
              (if connections.isEmpty then later else ⟨assoc.when, connections⟩ :: later)) =
            provided (resolveMatches channels [⟨assoc.when, connections⟩]) ++
              provided (resolveMatches channels later) := by
        intro connections later
        cases connections with
        | nil => rfl
        | cons conn connections =>
            rw [if_neg (by simp), resolveMatches_cons, provided_append]
      rw [hmatch, hsplit, ih, matchSingleAssociation_eq, if_neg hdisabled, firstBy_append,
        List.map_append]
      unfold ModelAssociation.offers
      cases hselection : assoc.selection engine channels with
      | none => rfl
      | some selection =>
          refine congrArg₂ _ ?_ (congrArg _ ?_)
          · exact provided_connect assoc.when assoc.priority tracker
              (mem_selection_channels hselection)
          · exact firstBy_congr fun key => mem_connect_tracker assoc.when

/-! ## Aggregation puts the entries together -/

/-- What a request can be sent to: a channel, its upstream model and its format. -/
structure Target where
  channelId : String
  actualModel : String
  apiFormat : String
deriving DecidableEq, Repr

def targets (candidates : List (ChannelModelsCandidate Settings)) : List Target :=
  candidates.flatMap fun c => c.models.map fun m => ⟨c.channelId, m.actualModel, c.apiFormat⟩

/-- The target of an entry, at the endpoint the request's format selects. -/
def entryTarget (req : CandidateRequest) (channel : ChannelSnapshot Settings)
    (entry : ChannelModelEntry) : Target where
  channelId := channel.id
  actualModel := entry.actualModel
  apiFormat := ((selectEndpoint channel.resolvedEndpoints req).getD .empty).apiFormat

theorem mem_targets_append {t : Target} {cs cs' : List (ChannelModelsCandidate Settings)} :
    t ∈ targets (cs ++ cs') ↔ t ∈ targets cs ∨ t ∈ targets cs' := by
  unfold targets
  rw [List.flatMap_append, List.mem_append]

theorem mem_targets_cons {t : Target} {c : ChannelModelsCandidate Settings}
    {cs : List (ChannelModelsCandidate Settings)} :
    t ∈ targets (c :: cs) ↔ t ∈ targets [c] ∨ t ∈ targets cs := by
  rw [← List.singleton_append]
  exact mem_targets_append

/-- A candidate that gains one target gives its list that one. -/
theorem mem_targets_modify {t added : Target} {i : Nat} {c : ChannelModelsCandidate Settings}
    {cs : List (ChannelModelsCandidate Settings)}
    {f : ChannelModelsCandidate Settings → ChannelModelsCandidate Settings}
    (hget : cs[i]? = some c) (hf : t ∈ targets [f c] ↔ t ∈ targets [c] ∨ t = added) :
    t ∈ targets (cs.modify i f) ↔ t ∈ targets cs ∨ t = added := by
  induction cs generalizing i with
  | nil => exact absurd hget (by simp)
  | cons c' cs ih =>
      cases i with
      | zero =>
          obtain rfl : c' = c := Option.some.inj hget
          rw [List.modify_zero_cons, mem_targets_cons, hf, or_right_comm, ← mem_targets_cons]
      | succ i =>
          rw [List.modify_succ_cons, mem_targets_cons, ih hget, ← or_assoc, ← mem_targets_cons]

/-- Every target that was seen is there. -/
def Aggregation.Sound (agg : Aggregation Settings) : Prop :=
  ∀ (channelId apiFormat credential actualModel : String),
    (channelId, apiFormat, credential, actualModel) ∈ agg.seen →
      ⟨channelId, actualModel, apiFormat⟩ ∈ targets agg.candidates

/-- `agg'` has the targets of `agg` and those of `added`, and is sound. -/
def Aggregation.Gains (added : Target → Prop) (agg agg' : Aggregation Settings) : Prop :=
  agg'.Sound ∧ ∀ t : Target, t ∈ targets agg'.candidates ↔ t ∈ targets agg.candidates ∨ added t

/-- The key that is seen goes with the target that is added. -/
theorem Aggregation.gains_one {agg : Aggregation Settings} (h : agg.Sound)
    (channelId apiFormat credential actualModel : String)
    {candidates : List (ChannelModelsCandidate Settings)}
    (hone : ∀ t : Target, t ∈ targets candidates ↔
      t ∈ targets agg.candidates ∨ t = ⟨channelId, actualModel, apiFormat⟩) :
    agg.Gains (· = ⟨channelId, actualModel, apiFormat⟩)
      ⟨candidates, (channelId, apiFormat, credential, actualModel) :: agg.seen⟩ := by
  refine ⟨?_, hone⟩
  intro channelId' apiFormat' credential' actualModel' hkey
  refine (hone _).mpr ?_
  rcases List.mem_cons.mp hkey with heq | hkey
  · simp only [Prod.mk.injEq] at heq
    obtain ⟨rfl, rfl, -, rfl⟩ := heq
    exact .inr rfl
  · exact .inl (h _ _ _ _ hkey)

theorem Aggregation.addModel_gains {agg : Aggregation Settings} (h : agg.Sound)
    (channel : ChannelSnapshot Settings) (priority : Int) (endpoint : ChannelEndpoint)
    (entry : ChannelModelEntry) :
    agg.Gains (· = ⟨channel.id, entry.actualModel, endpoint.apiFormat⟩)
      (agg.addModel channel priority endpoint entry) := by
  unfold addModel
  by_cases hseen : agg.seen.contains
      (channel.id, endpoint.apiFormat, channel.credentialKeyIdentity, entry.actualModel) = true
  · refine ⟨(if_pos hseen).symm ▸ h, fun t => ?_⟩
    have hmem := h _ _ _ _ (List.contains_iff_mem.mp hseen)
    rw [if_pos hseen]
    constructor
    · exact .inl
    · rintro (ht | rfl)
      · exact ht
      · exact hmem
  rw [if_neg hseen]
  generalize hpos : agg.candidates.findIdx? _ = pos
  cases pos with
  | none =>
      refine Aggregation.gains_one h _ _ _ _ fun t => mem_targets_append.trans (or_congr_right ?_)
      simp [targets, ChannelSnapshot.candidate]
  | some i =>
      refine Aggregation.gains_one h _ _ _ _ fun t => ?_
      obtain ⟨hlt, hrow, -⟩ := List.findIdx?_eq_some_iff_getElem.mp hpos
      simp only [Bool.and_eq_true, decide_eq_true_eq] at hrow
      obtain ⟨⟨hchannel, -⟩, hformat⟩ := hrow
      apply mem_targets_modify (List.getElem?_eq_getElem hlt)
      -- The row already has the model, or gets it.
      by_cases hmodel : agg.candidates[i].models.any fun m => m.actualModel = entry.actualModel
      · rw [if_pos hmodel]
        obtain ⟨m, hm, hsame⟩ := List.any_eq_true.mp hmodel
        refine ⟨.inl, ?_⟩
        rintro (ht | rfl)
        · exact ht
        · simp only [targets, List.flatMap_singleton]
          refine List.mem_map.mpr ⟨m, hm, ?_⟩
          rw [of_decide_eq_true hsame, hchannel, hformat]
      · rw [if_neg hmodel]
        simp only [targets, List.flatMap_singleton, List.map_append, List.mem_append,
          List.map_cons, List.map_nil, List.mem_singleton, hchannel, hformat]

/-- What a step gains from each element, a fold gains from all. -/
theorem Aggregation.foldl_gains {α : Type} {f : Aggregation Settings → α → Aggregation Settings}
    {added : α → Target → Prop}
    (hstep : ∀ (agg : Aggregation Settings) (a : α), agg.Sound → agg.Gains (added a) (f agg a))
    (as : List α) {agg : Aggregation Settings} (h : agg.Sound) :
    agg.Gains (fun t => ∃ a ∈ as, added a t) (as.foldl f agg) := by
  induction as generalizing agg with
  | nil => exact ⟨h, fun t => by simp⟩
  | cons a as ih =>
      obtain ⟨hsound, hone⟩ := hstep agg a h
      obtain ⟨hsound', hrest⟩ := ih hsound
      refine ⟨hsound', fun t => ?_⟩
      rw [List.foldl_cons, hrest, hone, or_assoc]
      simp

/-- The targets are those of the entries that were resolved. -/
theorem mem_targets_aggregateCandidates (req : CandidateRequest)
    (resolved : List (ResolvedAssociationCandidate Settings)) (t : Target) :
    t ∈ targets (aggregateCandidates resolved req) ↔
      ∃ p ∈ provided resolved, t = entryTarget req p.1 p.2.1 := by
  have hresolved : ∀ (agg : Aggregation Settings) (r : ResolvedAssociationCandidate Settings),
      agg.Sound → agg.Gains (fun t => ∃ m ∈ r.models, t = entryTarget req r.channel m)
        (agg.addResolved req r) := by
    intro agg r h
    exact Aggregation.foldl_gains (fun agg m h => agg.addModel_gains h _ _ _ m) r.models h
  have hempty : (⟨[], []⟩ : Aggregation Settings).Sound := fun _ _ _ _ h =>
    absurd h List.not_mem_nil
  refine ((Aggregation.foldl_gains hresolved resolved hempty).2 t).trans ?_
  simp only [targets, provided, List.flatMap_nil, List.not_mem_nil, false_or, List.mem_flatMap,
    List.mem_map]
  constructor
  · rintro ⟨r, hr, m, hm, rfl⟩
    exact ⟨_, ⟨r, hr, m, hm, rfl⟩, rfl⟩
  · rintro ⟨_, ⟨r, hr, m, hm, rfl⟩, rfl⟩
    exact ⟨r, hr, m, hm, rfl⟩

/-! ## What is selected -/

/-- Whether the `When` of an association holds for the request. -/
def applies (reader : ValueReader) (req : CandidateRequest) (nowRfc3339 : String)
    (when : Option ModelAssociationWhen) : Bool :=
  matchesWhen reader when (estimatePromptTokens req) req.stream req.apiFormat
    (ContentFeatures.detect req) nowRfc3339

theorem filterResolvedForRequest_eq (reader : ValueReader)
    (resolved : List (ResolvedAssociationCandidate Settings)) (req : CandidateRequest)
    (nowRfc3339 : String) :
    filterResolvedForRequest reader resolved req nowRfc3339 =
      aggregateCandidates (resolved.filter fun r => applies reader req nowRfc3339 r.when) req := by
  unfold filterResolvedForRequest
  cases resolved with
  | nil => rfl
  | cons r resolved =>
      rw [if_neg (by simp)]
      by_cases hwhen : ((r :: resolved).any fun c => c.when.isSome) = true
      · rw [if_neg (by simp [hwhen])]
        rfl
      · rw [if_pos (by simpa using hwhen), List.filter_eq_self.mpr]
        intro c hc
        have hnone : c.when = none := by
          cases hw : c.when with
          | none => rfl
          | some w => exact absurd (List.any_eq_true.mpr ⟨c, hc, by rw [hw]; rfl⟩) hwhen
        rw [hnone]
        rfl

theorem mem_provided_filter {p : ChannelSnapshot Settings × ChannelModelEntry ×
      Option ModelAssociationWhen}
    {resolved : List (ResolvedAssociationCandidate Settings)}
    (holds : Option ModelAssociationWhen → Bool) :
    p ∈ provided (resolved.filter fun r => holds r.when) ↔
      p ∈ provided resolved ∧ holds p.2.2 = true := by
  simp only [provided, List.mem_flatMap, List.mem_map, List.mem_filter]
  constructor
  · rintro ⟨r, ⟨hr, hholds⟩, m, hm, rfl⟩
    exact ⟨⟨r, hr, m, hm, rfl⟩, hholds⟩
  · rintro ⟨⟨r, hr, m, hm, rfl⟩, hholds⟩
    exact ⟨r, ⟨hr, hholds⟩, m, hm, rfl⟩

variable (engine : RegexEngine) (reader : ValueReader) (req : CandidateRequest)
  (channels : List (ChannelSnapshot Settings)) (nowRfc3339 : String)

/-- The request's view of the first offers under each key. -/
theorem mem_targets_selectModelCandidates (associations : List ModelAssociation) (t : Target) :
    t ∈ targets (selectModelCandidates engine reader req channels associations nowRfc3339) ↔
      ∃ o ∈ firstBy Offer.key [] (associations.flatMap
          (ModelAssociation.enabledOffers engine channels)),
        applies reader req nowRfc3339 o.when = true ∧ t = entryTarget req o.channel o.entry := by
  unfold selectModelCandidates
  cases associations with
  | nil => simp [targets]
  | cons assoc associations =>
      rw [if_neg (by simp), filterResolvedForRequest_eq, mem_targets_aggregateCandidates]
      unfold matchAssociations
      constructor
      · rintro ⟨p, hp, rfl⟩
        obtain ⟨hp, hholds⟩ := (mem_provided_filter (applies reader req nowRfc3339)).mp hp
        rw [provided_matchFrom] at hp
        obtain ⟨o, ho, rfl⟩ := List.mem_map.mp hp
        exact ⟨o, ho, hholds, rfl⟩
      · rintro ⟨o, ho, hholds, rfl⟩
        refine ⟨o.provision, (mem_provided_filter (applies reader req nowRfc3339)).mpr
          ⟨?_, hholds⟩, rfl⟩
        rw [provided_matchFrom]
        exact List.mem_map_of_mem ho

theorem when_of_mem_enabledOffers {engine : RegexEngine}
    {channels : List (ChannelSnapshot Settings)} {assoc : ModelAssociation} {o : Offer Settings}
    (h : o ∈ assoc.enabledOffers engine channels) : o.when = assoc.when := by
  unfold ModelAssociation.enabledOffers ModelAssociation.offers at h
  by_cases hdisabled : assoc.disabled = true
  · rw [if_pos hdisabled] at h
    exact absurd h List.not_mem_nil
  · rw [if_neg hdisabled] at h
    cases hselection : assoc.selection engine channels with
    | none =>
        rw [hselection] at h
        exact absurd h List.not_mem_nil
    | some selection =>
        rw [hselection] at h
        obtain ⟨channel, -, h⟩ := List.mem_flatMap.mp h
        obtain ⟨listed, -, rfl⟩ := List.mem_map.mp h
        rfl

theorem mem_targets_selectModelCandidates_singleton (assoc : ModelAssociation) (t : Target) :
    t ∈ targets (selectModelCandidates engine reader req channels [assoc] nowRfc3339) ↔
      applies reader req nowRfc3339 assoc.when = true ∧
        ∃ o ∈ firstBy Offer.key [] (assoc.enabledOffers engine channels),
          t = entryTarget req o.channel o.entry := by
  rw [mem_targets_selectModelCandidates, List.flatMap_singleton]
  constructor
  · rintro ⟨o, ho, hholds, rfl⟩
    rw [when_of_mem_enabledOffers (mem_of_mem_firstBy ho)] at hholds
    exact ⟨hholds, o, ho, rfl⟩
  · rintro ⟨hholds, o, ho, rfl⟩
    rw [← when_of_mem_enabledOffers (mem_of_mem_firstBy ho)] at hholds
    exact ⟨o, ho, hholds, rfl⟩

/-- Alone, an association selects its offers if its `When` holds. In a list it
selects those under a channel and name that no enabled association before it
offers, whether or not the `When` of that one holds. -/
theorem selects_first_offers (associations : List ModelAssociation) :
    (∀ (assoc : ModelAssociation) (t : Target),
      t ∈ targets (selectModelCandidates engine reader req channels [assoc] nowRfc3339) ↔
        applies reader req nowRfc3339 assoc.when = true ∧
          ∃ o ∈ firstBy Offer.key [] (assoc.enabledOffers engine channels),
            t = entryTarget req o.channel o.entry) ∧
    ∀ t : Target,
      t ∈ targets (selectModelCandidates engine reader req channels associations nowRfc3339) ↔
        ∃ (before : List ModelAssociation) (assoc : ModelAssociation)
          (after : List ModelAssociation),
          associations = before ++ assoc :: after ∧
          applies reader req nowRfc3339 assoc.when = true ∧
          ∃ o ∈ firstBy Offer.key [] (assoc.enabledOffers engine channels),
            t = entryTarget req o.channel o.entry ∧
            ∀ earlier ∈ before, ∀ other ∈ earlier.enabledOffers engine channels,
              other.key ≠ o.key := by
  refine ⟨mem_targets_selectModelCandidates_singleton engine reader req channels nowRfc3339, ?_⟩
  intro t
  rw [mem_targets_selectModelCandidates]
  constructor
  · rintro ⟨o, ho, hholds, rfl⟩
    obtain ⟨before, assoc, after, hsplit, hmem, -, hbefore⟩ :=
      (mem_firstBy_flatMap (ModelAssociation.enabledOffers engine channels) associations).mp ho
    rw [when_of_mem_enabledOffers (mem_of_mem_firstBy hmem)] at hholds
    exact ⟨before, assoc, after, hsplit, hholds, o, hmem, rfl, hbefore⟩
  · rintro ⟨before, assoc, after, hsplit, hholds, o, hmem, rfl, hbefore⟩
    rw [← when_of_mem_enabledOffers (mem_of_mem_firstBy hmem)] at hholds
    refine ⟨o, ?_, hholds, rfl⟩
    exact (mem_firstBy_flatMap (ModelAssociation.enabledOffers engine channels) associations).mpr
      ⟨before, assoc, after, hsplit, hmem, List.not_mem_nil, hbefore⟩

section Shadowed

/-- Streaming requests only. -/
def streamingOnly : ModelAssociationWhen where
  enabled := true
  condition := some ⟨.condition, "", [], "stream", "eq", some (.bool true)⟩

def modelAssociation (when : Option ModelAssociationWhen) : ModelAssociation where
  kind := "model"
  priority := 0
  disabled := false
  when
  channelModel := none
  channelRegex := none
  regex := none
  modelId := some ⟨"m", []⟩
  channelTagsModel := none
  channelTagsRegex := none

def oneModelChannel : ChannelSnapshot Unit where
  id := "1"
  name := "one"
  orderingWeight := 0
  tags := []
  modelEntries := ⟨[("m", ⟨"m", "m", .direct⟩)], List.pairwise_singleton _ _⟩
  resolvedEndpoints := [⟨"openai/chat_completions", "", "", ""⟩]
  credentialKeyIdentity := ""
  policies := ""
  channelType := "openai"
  baseUrl := none
  activeCredential := none
  enabledCredentials := []
  settings := none

def bufferedRequest : CandidateRequest where
  model := "m"
  stream := false
  apiFormat := "openai/chat_completions"
  requestType := .chat
  messages := []
  tools := []

/-- The streaming association does not apply to a buffered request, but what
it took the next one, which does apply, no longer offers. -/
theorem inapplicable_association_shadows :
    ¬∀ (associations : List ModelAssociation) (t : Target),
      t ∈ targets (selectModelCandidates (fun _ => none) ⟨fun _ => 0, fun _ => none⟩
          bufferedRequest [oneModelChannel] associations "") ↔
        ∃ assoc ∈ associations, assoc.disabled = false ∧
          applies ⟨fun _ => 0, fun _ => none⟩ bufferedRequest "" assoc.when = true ∧
          t ∈ targets (selectModelCandidates (fun _ => none) ⟨fun _ => 0, fun _ => none⟩
            bufferedRequest [oneModelChannel] [assoc] "") := by
  intro h
  have hunion := (h [modelAssociation (some streamingOnly), modelAssociation none]
    ⟨"1", "m", "openai/chat_completions"⟩).mpr
    ⟨modelAssociation none, by simp, rfl, rfl, by decide⟩
  exact absurd hunion (by decide)

end Shadowed

end Conduit.Orchestrator
