import Conduit.Channels.ModelEntries

/-!
# Hidden entries and the mappings they block

The mapping loop touches every name on its own (`mapUnder`), so what it leaves
under a name is a fold over one option. Where no alias in the way of a mapping
is hidden, the loop comes to `intendedEntry`: the alias if it is visible, else
the mapping. A hidden one in the way costs the mapping its name, or makes it
depend on the order.
-/

namespace Conduit.Channels

open Base Orchestrator

section Loop

variable (supported : List String) (settings : ChannelSettings)

/-! ## One name through the loop -/

/-- One mapping, under one name. -/
def mapUnder (name : String) (held : Option ChannelModelEntry) (mapping : ModelMapping) :
    Option ChannelModelEntry :=
  if mapping.toModel ∈ supported then
    let inserted := held.or (if mapping.fromModel = name then some (mappingEntry mapping) else none)
    if settings.hideMappedModels then
      inserted.filter fun entry => unmapped mapping.toModel (name, entry)
    else inserted
  else held

/-- A mapping of the list hides the target of the entry. -/
def HidesTarget (mappings : List ModelMapping) (entry : ChannelModelEntry) : Prop :=
  settings.hideMappedModels = true ∧
    ∃ mapping ∈ mappings, mapping.toModel ∈ supported ∧ mapping.toModel = entry.actualModel

instance (mappings : List ModelMapping) (entry : ChannelModelEntry) :
    Decidable (HidesTarget supported settings mappings entry) := by
  unfold HidesTarget
  infer_instance

theorem sorted_insertMapping {entries : Entries} (h : Keyed.Sorted entries) (mapping : ModelMapping) :
    Keyed.Sorted (insertMapping supported settings entries mapping) := by
  unfold insertMapping
  split_ifs
  · exact Keyed.sorted_filter (Keyed.sorted_insertNew h _) _
  · exact Keyed.sorted_insertNew h _
  · exact h

theorem get_insertMapping {entries : Entries} (h : Keyed.Sorted entries) (mapping : ModelMapping)
    (name : String) :
    Keyed.get (insertMapping supported settings entries mapping) name =
      mapUnder supported settings name (Keyed.get entries name) mapping := by
  unfold insertMapping mapUnder
  by_cases htarget : mapping.toModel ∈ supported
  · rw [if_pos htarget, if_pos htarget]
    have hinsert := Keyed.get_insertNew h (named (mappingEntry mapping)) name
    cases settings.hideMappedModels with
    | true =>
        simp only [if_true]
        rw [Keyed.get_filter (Keyed.sorted_insertNew h _), hinsert]
        rfl
    | false => exact hinsert
  · rw [if_neg htarget, if_neg htarget]

theorem sorted_mappings {entries : Entries} (h : Keyed.Sorted entries) (mappings : List ModelMapping) :
    Keyed.Sorted (mappings.foldl (insertMapping supported settings) entries) := by
  induction mappings generalizing entries with
  | nil => exact h
  | cons mapping mappings ih => exact ih (sorted_insertMapping supported settings h mapping)

theorem get_mappings {entries : Entries} (h : Keyed.Sorted entries) (mappings : List ModelMapping)
    (name : String) :
    Keyed.get (mappings.foldl (insertMapping supported settings) entries) name =
      mappings.foldl (mapUnder supported settings name) (Keyed.get entries name) := by
  induction mappings generalizing entries with
  | nil => rfl
  | cons mapping mappings ih =>
      rw [List.foldl_cons, List.foldl_cons, ih (sorted_insertMapping supported settings h mapping),
        get_insertMapping supported settings h]

section Name

variable {name : String} {entry : ChannelModelEntry} {mappings : List ModelMapping}

theorem mapUnder_alias (hsource : entry.source ≠ .mapping) (mapping : ModelMapping) :
    mapUnder supported settings name (some entry) mapping =
      if HidesTarget supported settings [mapping] entry then none else some entry := by
  have hhides : HidesTarget supported settings [mapping] entry ↔
      settings.hideMappedModels = true ∧ mapping.toModel ∈ supported ∧
        mapping.toModel = entry.actualModel := by
    unfold HidesTarget
    simp
  unfold mapUnder unmapped
  by_cases htarget : mapping.toModel ∈ supported
  · by_cases hhide : settings.hideMappedModels = true
    · by_cases heq : mapping.toModel = entry.actualModel
      · rw [if_pos (hhides.mpr ⟨hhide, htarget, heq⟩)]
        have hactual : entry.actualModel ∈ supported := heq ▸ htarget
        simp [hhide, hsource, heq, hactual]
      · rw [if_neg fun h => heq (hhides.mp h).2.2]
        simp [htarget, hhide, Ne.symm heq]
    · rw [if_neg fun h => hhide (hhides.mp h).1]
      simp [htarget, hhide]
  · rw [if_neg fun h => htarget (hhides.mp h).2.1, if_neg htarget]

/-- A mapping's entry stays. -/
theorem foldl_mapping (hsource : entry.source = .mapping) :
    mappings.foldl (mapUnder supported settings name) (some entry) = some entry := by
  induction mappings with
  | nil => rfl
  | cons mapping mappings ih =>
      have hstep : mapUnder supported settings name (some entry) mapping = some entry := by
        unfold mapUnder unmapped
        split_ifs <;> simp [hsource]
      rw [List.foldl_cons, hstep, ih]

theorem hidesTarget_cons {mapping : ModelMapping} :
    HidesTarget supported settings (mapping :: mappings) entry ↔
      HidesTarget supported settings [mapping] entry ∨ HidesTarget supported settings mappings entry := by
  unfold HidesTarget
  simp only [List.exists_mem_cons_iff, List.not_mem_nil, false_and, exists_false, or_false]
  exact and_or_left

/-- An alias nobody hides stays, whoever wants its name. -/
theorem foldl_kept (hsource : entry.source ≠ .mapping)
    (hkept : ¬ HidesTarget supported settings mappings entry) :
    mappings.foldl (mapUnder supported settings name) (some entry) = some entry := by
  induction mappings with
  | nil => rfl
  | cons mapping mappings ih =>
      rw [hidesTarget_cons] at hkept
      push Not at hkept
      rw [List.foldl_cons, mapUnder_alias supported settings hsource, if_neg hkept.1, ih hkept.2]

/-- A free name goes to its first mapping. -/
theorem foldl_free :
    mappings.foldl (mapUnder supported settings name) none =
      (mappings.find? fun mapping =>
        mapping.toModel ∈ supported ∧ mapping.fromModel = name).map mappingEntry := by
  induction mappings with
  | nil => rfl
  | cons mapping mappings ih =>
      rw [List.foldl_cons, List.find?_cons]
      by_cases hmapping : mapping.toModel ∈ supported ∧ mapping.fromModel = name
      · have hstep : mapUnder supported settings name none mapping = some (mappingEntry mapping) := by
          unfold mapUnder unmapped
          rw [if_pos hmapping.1, if_pos hmapping.2, Option.none_or]
          split_ifs
          · rfl
          · rfl
        rw [hstep, foldl_mapping supported settings rfl, decide_eq_true hmapping]
        rfl
      · have hstep : mapUnder supported settings name none mapping = none := by
          unfold mapUnder
          by_cases htarget : mapping.toModel ∈ supported
          · rw [if_pos htarget, if_neg fun heq => hmapping ⟨htarget, heq⟩, Option.none_or]
            split_ifs
            · rfl
            · rfl
          · rw [if_neg htarget]
        rw [hstep, ih, decide_eq_false hmapping]

omit settings entry in
theorem find?_unwanted
    (hother : ∀ mapping ∈ mappings, mapping.toModel ∈ supported → mapping.fromModel ≠ name) :
    (mappings.find? fun mapping => mapping.toModel ∈ supported ∧ mapping.fromModel = name) = none := by
  refine List.find?_eq_none.mpr fun mapping hmem hfound => ?_
  have hboth := of_decide_eq_true hfound
  exact hother mapping hmem hboth.1 hboth.2

/-- A hidden alias goes, and a name no mapping wants is free from then on. -/
theorem foldl_hidden (hsource : entry.source ≠ .mapping)
    (hother : ∀ mapping ∈ mappings, mapping.toModel ∈ supported → mapping.fromModel ≠ name)
    (hhidden : HidesTarget supported settings mappings entry) :
    mappings.foldl (mapUnder supported settings name) (some entry) = none := by
  induction mappings with
  | nil => exact absurd hhidden.2 (by simp)
  | cons mapping mappings ih =>
      rw [List.foldl_cons, mapUnder_alias supported settings hsource]
      have hlater : ∀ other ∈ mappings, other.toModel ∈ supported → other.fromModel ≠ name :=
        fun other hmem => hother other (List.mem_cons_of_mem _ hmem)
      by_cases hnow : HidesTarget supported settings [mapping] entry
      · rw [if_pos hnow, foldl_free, find?_unwanted supported hlater]
        rfl
      · rw [if_neg hnow]
        exact ih hlater (((hidesTarget_cons supported settings).mp hhidden).resolve_left hnow)

end Name

/-! ## What is intended -/

/-- Put in by an early round and taken out later. -/
def Hidden (entry : ChannelModelEntry) : Prop :=
  HidesTarget supported settings settings.modelMappings entry ∨
    (settings.hideOriginalModels = true ∧ entry.source = .direct)

instance (entry : ChannelModelEntry) : Decidable (Hidden supported settings entry) := by
  unfold Hidden
  infer_instance

/-- The mapping of a name. -/
def mappingOf (name : String) : Option ChannelModelEntry :=
  (settings.modelMappings.find? fun mapping =>
    mapping.toModel ∈ supported ∧ mapping.fromModel = name).map mappingEntry

/-- The alias of a name if it is visible, else its mapping. -/
def intendedEntry (name : String) : Option ChannelModelEntry :=
  ((aliasOf supported settings name).filter fun entry => ¬ Hidden supported settings entry).or
    (mappingOf supported settings name)

/-- No mapping finds its name held by an entry that is hidden. -/
def NoHiddenBlocker : Prop :=
  ∀ mapping ∈ settings.modelMappings, mapping.toModel ∈ supported →
    ∀ entry : ChannelModelEntry, aliasOf supported settings mapping.fromModel = some entry →
      ¬ Hidden supported settings entry

/-- The name a mapping is reached under. -/
def requestName (mapping : ModelMapping) : String :=
  if settings.lowercaseModelId then toAsciiLowercase mapping.fromModel else mapping.fromModel

/-- The map admits the intended aliases: it leads to supported models only, it
does not depend on the order of the lists, and under the name of every mapping
to a supported model something is found, the mapping or a visible entry. -/
structure AdmitsIntended : Prop where
  supportedOnly : ∀ entry ∈ channelEntries supported settings, entry.2.actualModel ∈ supported
  stable : ∀ (models : List String) (mappings : List ModelMapping), models.Perm supported →
    mappings.Perm settings.modelMappings →
    channelEntries models { settings with modelMappings := mappings } =
      channelEntries supported settings
  reachable : ∀ mapping ∈ settings.modelMappings, mapping.toModel ∈ supported →
    (Keyed.get (channelEntries supported settings) (requestName settings mapping)).isSome = true

variable {supported settings}

/-- The early rounds make no mappings, and lead to supported models only. -/
theorem aliasOf_some {name : String} {entry : ChannelModelEntry}
    (h : aliasOf supported settings name = some entry) :
    entry.source ≠ .mapping ∧ entry.actualModel ∈ supported := by
  unfold aliasOf at h
  by_cases hmem : name ∈ supported
  · rw [if_pos hmem] at h
    rw [← Option.some.inj h]
    exact ⟨fun heq => ModelSource.noConfusion heq, hmem⟩
  · rw [if_neg hmem] at h
    cases hprefixed : (if settings.extraModelPrefix = "" then none
      else stripPrefix name (settings.extraModelPrefix ++ "/")).filter (· ∈ supported) with
    | some model =>
        rw [hprefixed] at h
        rw [← Option.some.inj h]
        exact ⟨fun heq => ModelSource.noConfusion heq,
          of_decide_eq_true (Option.filter_eq_some_iff.mp hprefixed).2⟩
    | none =>
        rw [hprefixed] at h
        obtain ⟨trim, -, htrim⟩ := List.exists_of_findSome?_eq_some h
        by_cases hsupported : trim ≠ "" ∧ trim ++ "/" ++ name ∈ supported
        · rw [if_pos hsupported] at htrim
          rw [← Option.some.inj htrim]
          exact ⟨fun heq => ModelSource.noConfusion heq, hsupported.2⟩
        · rw [if_neg hsupported] at htrim
          exact absurd htrim (by simp)

theorem mappingOf_some {name : String} {entry : ChannelModelEntry}
    (h : mappingOf supported settings name = some entry) :
    entry.source = .mapping ∧ entry.actualModel ∈ supported := by
  obtain ⟨mapping, hfind, rfl⟩ := Option.map_eq_some_iff.mp h
  have hwanted := List.find?_some hfind
  exact ⟨rfl, (of_decide_eq_true hwanted).1⟩

/-! ## The visible entries -/

theorem sorted_visibleEntries : Keyed.Sorted (visibleEntries supported settings) := by
  have hloop := sorted_mappings supported settings (sorted_baseEntries supported settings)
    settings.modelMappings
  unfold visibleEntries
  by_cases hhide : settings.hideOriginalModels = true
  · rw [if_pos hhide]
    exact Keyed.sorted_filter hloop _
  · rw [if_neg hhide]
    exact hloop

/-- Under one name: its alias through the loop, and the last hiding. -/
theorem get_visibleEntries (name : String) :
    Keyed.get (visibleEntries supported settings) name =
      (settings.modelMappings.foldl (mapUnder supported settings name)
        (aliasOf supported settings name)).filter fun entry =>
          ¬ (settings.hideOriginalModels = true ∧ entry.source = .direct) := by
  have hsorted := sorted_baseEntries supported settings
  rw [← get_baseEntries, ← get_mappings supported settings hsorted]
  unfold visibleEntries
  by_cases hhide : settings.hideOriginalModels = true
  · rw [if_pos hhide]
    refine (Keyed.get_filter (sorted_mappings supported settings hsorted _) _ name).trans ?_
    simp [hhide, baseEntries]
  · rw [if_neg hhide]
    change Keyed.get ((settings.modelMappings).foldl _ (baseEntries supported settings)) name = _
    simp only [hhide]
    cases Keyed.get (settings.modelMappings.foldl (insertMapping supported settings)
      (baseEntries supported settings)) name with
    | none => rfl
    | some entry => rfl

/-- Without a hidden blocker, the intended entries. -/
theorem get_visibleEntries_of_noHiddenBlocker (h : NoHiddenBlocker supported settings)
    (name : String) :
    Keyed.get (visibleEntries supported settings) name = intendedEntry supported settings name := by
  rw [get_visibleEntries]
  unfold intendedEntry
  cases halias : aliasOf supported settings name with
  | none =>
      rw [foldl_free, Option.filter_none, Option.none_or]
      change (mappingOf supported settings name).filter _ = mappingOf supported settings name
      cases hmapping : mappingOf supported settings name with
      | none => rfl
      | some entry =>
          have hsource := (mappingOf_some hmapping).1
          rw [Option.filter_some, if_pos (by simp [hsource])]
  | some entry =>
      obtain ⟨hsource, -⟩ := aliasOf_some halias
      by_cases hhidden : Hidden supported settings entry
      · -- a hidden alias blocks no mapping: the name ends up free
        have hother : ∀ mapping ∈ settings.modelMappings, mapping.toModel ∈ supported →
            mapping.fromModel ≠ name := by
          intro mapping hmem htarget heq
          exact h mapping hmem htarget entry (heq ▸ halias) hhidden
        have hnone : mappingOf supported settings name = none := by
          unfold mappingOf
          rw [find?_unwanted supported hother]
          rfl
        rw [hnone, Option.or_none, Option.filter_some, if_neg (by simpa using hhidden)]
        by_cases hhides : HidesTarget supported settings settings.modelMappings entry
        · rw [foldl_hidden supported settings hsource hother hhides, Option.filter_none]
        · rw [foldl_kept supported settings hsource hhides, Option.filter_some,
            if_neg (by simpa using hhidden.resolve_left hhides)]
      · have hkept : ¬ HidesTarget supported settings settings.modelMappings entry := fun hhides =>
          hhidden (.inl hhides)
        have hdirect : ¬ (settings.hideOriginalModels = true ∧ entry.source = .direct) :=
          fun hdirect => hhidden (.inr hdirect)
        rw [foldl_kept supported settings hsource hkept, Option.filter_some, Option.filter_some,
          if_pos (decide_eq_true hdirect), if_pos (decide_eq_true hhidden), Option.some_or]

theorem reachable_of_noHiddenBlocker (h : NoHiddenBlocker supported settings)
    {mapping : ModelMapping} (hmem : mapping ∈ settings.modelMappings)
    (htarget : mapping.toModel ∈ supported) :
    (Keyed.get (visibleEntries supported settings) mapping.fromModel).isSome = true := by
  rw [get_visibleEntries_of_noHiddenBlocker h]
  unfold intendedEntry
  cases halias : aliasOf supported settings mapping.fromModel with
  | some entry =>
      have hvisible := h mapping hmem htarget entry halias
      rw [Option.filter_some, if_pos (decide_eq_true hvisible), Option.some_or]
      rfl
  | none =>
      rw [Option.filter_none, Option.none_or]
      unfold mappingOf
      rw [Option.isSome_map, List.find?_isSome]
      exact ⟨mapping, hmem, decide_eq_true ⟨htarget, rfl⟩⟩

theorem supported_of_noHiddenBlocker (h : NoHiddenBlocker supported settings) {name : String}
    {entry : ChannelModelEntry}
    (hget : Keyed.get (visibleEntries supported settings) name = some entry) :
    entry.actualModel ∈ supported := by
  rw [get_visibleEntries_of_noHiddenBlocker h] at hget
  rcases Option.or_eq_some_iff.mp hget with hkept | ⟨-, hmapping⟩
  · exact (aliasOf_some (Option.filter_eq_some_iff.mp hkept).1).2
  · exact (mappingOf_some hmapping).2

/-! ## Other orders -/

section Order

variable {models : List String} {mappings : List ModelMapping}

theorem aliasOf_perm (hmodels : models.Perm supported) (name : String) :
    aliasOf models { settings with modelMappings := mappings } name =
      aliasOf supported settings name := by
  unfold aliasOf
  simp only [hmodels.mem_iff]

theorem hidden_perm (hmodels : models.Perm supported) (hmappings : mappings.Perm settings.modelMappings)
    (entry : ChannelModelEntry) :
    Hidden models { settings with modelMappings := mappings } entry ↔
      Hidden supported settings entry := by
  unfold Hidden HidesTarget
  simp only [hmodels.mem_iff, hmappings.mem_iff]

theorem noHiddenBlocker_perm (hmodels : models.Perm supported)
    (hmappings : mappings.Perm settings.modelMappings) (h : NoHiddenBlocker supported settings) :
    NoHiddenBlocker models { settings with modelMappings := mappings } := by
  intro mapping hmem htarget entry halias hhidden
  exact h mapping (hmappings.mem_iff.mp hmem) (hmodels.mem_iff.mp htarget) entry
    (aliasOf_perm hmodels _ ▸ halias) ((hidden_perm hmodels hmappings entry).mp hhidden)

/-- With one mapping a name, the order does not matter. -/
theorem mappingOf_eq_some (hdistinct : (settings.modelMappings.map ModelMapping.fromModel).Nodup)
    {name : String} {entry : ChannelModelEntry} :
    mappingOf supported settings name = some entry ↔
      ∃ mapping ∈ settings.modelMappings, mapping.toModel ∈ supported ∧ mapping.fromModel = name ∧
        mappingEntry mapping = entry := by
  unfold mappingOf
  constructor
  · intro h
    obtain ⟨mapping, hfind, hentry⟩ := Option.map_eq_some_iff.mp h
    have hwanted := List.find?_some hfind
    have hboth := of_decide_eq_true hwanted
    exact ⟨mapping, List.mem_of_find?_eq_some hfind, hboth.1, hboth.2, hentry⟩
  · rintro ⟨mapping, hmem, htarget, hname, hentry⟩
    cases hfind : settings.modelMappings.find? fun mapping =>
      mapping.toModel ∈ supported ∧ mapping.fromModel = name with
    | none => exact absurd (List.find?_eq_none.mp hfind mapping hmem) (by simp [htarget, hname])
    | some found =>
        have hwanted := List.find?_some hfind
        have hsame : found.fromModel = mapping.fromModel :=
          (of_decide_eq_true hwanted).2.trans hname.symm
        have hfound : found = mapping :=
          List.inj_on_of_nodup_map hdistinct (List.mem_of_find?_eq_some hfind) hmem hsame
        rw [Option.map_some, hfound, hentry]

theorem intendedEntry_perm (hmodels : models.Perm supported)
    (hmappings : mappings.Perm settings.modelMappings)
    (hdistinct : (settings.modelMappings.map ModelMapping.fromModel).Nodup) (name : String) :
    intendedEntry models { settings with modelMappings := mappings } name =
      intendedEntry supported settings name := by
  have hmapping : mappingOf models { settings with modelMappings := mappings } name =
      mappingOf supported settings name := by
    refine Option.ext fun entry => ?_
    rw [mappingOf_eq_some hdistinct, mappingOf_eq_some
      ((hmappings.map ModelMapping.fromModel).nodup_iff.mpr hdistinct)]
    simp only [hmodels.mem_iff, hmappings.mem_iff]
  unfold intendedEntry
  rw [aliasOf_perm hmodels, hmapping]
  simp only [hidden_perm hmodels hmappings]

theorem visibleEntries_perm (hmodels : models.Perm supported)
    (hmappings : mappings.Perm settings.modelMappings)
    (hdistinct : (settings.modelMappings.map ModelMapping.fromModel).Nodup)
    (h : NoHiddenBlocker supported settings) :
    visibleEntries models { settings with modelMappings := mappings } =
      visibleEntries supported settings := by
  refine Keyed.ext_get sorted_visibleEntries sorted_visibleEntries fun name => ?_
  rw [get_visibleEntries_of_noHiddenBlocker h,
    get_visibleEntries_of_noHiddenBlocker (noHiddenBlocker_perm hmodels hmappings h),
    intendedEntry_perm hmodels hmappings hdistinct]

end Order

/-! ## Lower case -/

theorem sorted_insertLowercase {entries : Entries} (h : Keyed.Sorted entries)
    (entry : String × ChannelModelEntry) : Keyed.Sorted (insertLowercase entries entry) :=
  Keyed.sorted_upsert _ _ _ h

theorem sorted_lowercase {acc : Entries} (h : Keyed.Sorted acc) (entries : Entries) :
    Keyed.Sorted (entries.foldl insertLowercase acc) := by
  induction entries generalizing acc with
  | nil => exact h
  | cons entry entries ih => exact ih (sorted_insertLowercase h entry)

/-- A name is found where it or another of the same letters was. -/
theorem isSome_lowercase {acc : Entries} (h : Keyed.Sorted acc) (entries : Entries) (key : String) :
    (Keyed.get (entries.foldl insertLowercase acc) key).isSome = true ↔
      (Keyed.get acc key).isSome = true ∨ ∃ entry ∈ entries, toAsciiLowercase entry.1 = key := by
  induction entries generalizing acc with
  | nil => simp
  | cons entry entries ih =>
      rw [List.foldl_cons, ih (sorted_insertLowercase h entry)]
      unfold insertLowercase
      rw [Keyed.get_upsert _ _ _ h, List.exists_mem_cons_iff]
      by_cases hkey : toAsciiLowercase entry.1 = key
      · simp [hkey]
      · simp [hkey]

theorem lowercase_supported {acc : Entries} (h : Keyed.Sorted acc) {entries : Entries}
    (hacc : ∀ (key : String) (entry : ChannelModelEntry), Keyed.get acc key = some entry →
      entry.actualModel ∈ supported)
    (hentries : ∀ entry ∈ entries, entry.2.actualModel ∈ supported) {key : String}
    {entry : ChannelModelEntry}
    (hget : Keyed.get (entries.foldl insertLowercase acc) key = some entry) :
    entry.actualModel ∈ supported := by
  induction entries generalizing acc with
  | nil => exact hacc key entry hget
  | cons first entries ih =>
      have hfirst := hentries first List.mem_cons_self
      refine ih (sorted_insertLowercase h first) (fun key entry hstep => ?_)
        (fun other hmem => hentries other (List.mem_cons_of_mem _ hmem)) hget
      unfold insertLowercase at hstep
      rw [Keyed.get_upsert _ _ _ h] at hstep
      by_cases hkey : toAsciiLowercase first.1 = key
      · rw [if_pos hkey] at hstep
        rw [← Option.some.inj hstep]
        -- the better of the two, and both lead to supported models
        split_ifs
        · exact hfirst
        · cases hheld : Keyed.get acc (toAsciiLowercase first.1) with
          | none => exact hfirst
          | some held => exact hacc _ held hheld
      · rw [if_neg hkey] at hstep
        exact hacc key entry hstep

theorem isSome_channelEntries (mapping : ModelMapping)
    (h : (Keyed.get (visibleEntries supported settings) mapping.fromModel).isSome = true) :
    (Keyed.get (channelEntries supported settings) (requestName settings mapping)).isSome = true := by
  unfold channelEntries requestName
  by_cases hlower : settings.lowercaseModelId = true
  · rw [if_pos hlower, if_pos hlower, isSome_lowercase Keyed.sorted_nil]
    obtain ⟨entry, hentry⟩ := Option.isSome_iff_exists.mp h
    exact .inr ⟨(mapping.fromModel, entry), Keyed.mem_of_get hentry, rfl⟩
  · rwa [if_neg hlower, if_neg hlower]

theorem supported_channelEntries (h : NoHiddenBlocker supported settings) :
    ∀ entry ∈ channelEntries supported settings, entry.2.actualModel ∈ supported := by
  have hvisible : ∀ entry ∈ visibleEntries supported settings, entry.2.actualModel ∈ supported :=
    fun entry hmem => supported_of_noHiddenBlocker h (Keyed.get_of_mem sorted_visibleEntries hmem)
  unfold channelEntries
  by_cases hlower : settings.lowercaseModelId = true
  · rw [if_pos hlower]
    intro entry hmem
    exact lowercase_supported Keyed.sorted_nil (fun key entry hget => absurd hget (by simp)) hvisible
      (Keyed.get_of_mem (sorted_lowercase Keyed.sorted_nil _) hmem)
  · rw [if_neg hlower]
    exact hvisible

theorem admitsIntended_of_noHiddenBlocker
    (hdistinct : (settings.modelMappings.map ModelMapping.fromModel).Nodup)
    (h : NoHiddenBlocker supported settings) : AdmitsIntended supported settings where
  supportedOnly := supported_channelEntries h
  stable models mappings hmodels hmappings := by
    unfold channelEntries
    rw [visibleEntries_perm hmodels hmappings hdistinct h]
  reachable mapping hmem htarget :=
    isSome_channelEntries mapping (reachable_of_noHiddenBlocker h hmem htarget)

/-! ## A hidden blocker -/

variable (supported settings) in
/-- An alias or a mapping goes by the name. -/
def Known (name : String) : Prop :=
  (aliasOf supported settings name).isSome = true ∨
    ∃ mapping ∈ settings.modelMappings, mapping.fromModel = name

variable (supported settings) in
/-- Lower case, where it is asked for, makes no two names one. -/
def NamesApart : Prop :=
  settings.lowercaseModelId = true → ∀ name other : String, Known supported settings name →
    Known supported settings other → toAsciiLowercase name = toAsciiLowercase other → name = other

theorem known_of_visible {name : String}
    (h : (Keyed.get (visibleEntries supported settings) name).isSome = true) :
    Known supported settings name := by
  rw [get_visibleEntries] at h
  unfold Known
  cases halias : aliasOf supported settings name with
  | some entry => exact .inl rfl
  | none =>
      rw [halias, foldl_free] at h
      cases hfind : settings.modelMappings.find? fun mapping =>
        mapping.toModel ∈ supported ∧ mapping.fromModel = name with
      | none =>
          rw [hfind] at h
          exact absurd h (by simp)
      | some mapping =>
          have hwanted := List.find?_some hfind
          exact .inr ⟨mapping, List.mem_of_find?_eq_some hfind, (of_decide_eq_true hwanted).2⟩

/-- The first mapping of the list loses its name to a hidden alias. -/
theorem blocked_first {mapping : ModelMapping} {rest : List ModelMapping} {entry : ChannelModelEntry}
    (hmappings : settings.modelMappings = mapping :: rest)
    (hdistinct : (settings.modelMappings.map ModelMapping.fromModel).Nodup)
    (halias : aliasOf supported settings mapping.fromModel = some entry)
    (hhidden : Hidden supported settings entry) :
    Keyed.get (visibleEntries supported settings) mapping.fromModel = none := by
  have hother : ∀ other ∈ rest, other.toModel ∈ supported → other.fromModel ≠ mapping.fromModel := by
    rw [hmappings, List.map_cons, List.nodup_cons] at hdistinct
    exact fun other hmem _ heq => hdistinct.1 (heq ▸ List.mem_map_of_mem hmem)
  obtain ⟨hsource, -⟩ := aliasOf_some halias
  rw [get_visibleEntries, halias]
  by_cases hhides : HidesTarget supported settings settings.modelMappings entry
  · rw [hmappings] at hhides ⊢
    rw [List.foldl_cons, mapUnder_alias supported settings hsource]
    by_cases hnow : HidesTarget supported settings [mapping] entry
    · rw [if_pos hnow, foldl_free, find?_unwanted supported hother]
      rfl
    · have hlater := ((hidesTarget_cons supported settings).mp hhides).resolve_left hnow
      rw [if_neg hnow, foldl_hidden supported settings hsource hother hlater]
      rfl
  · rw [foldl_kept supported settings hsource hhides, Option.filter_some,
      if_neg (by simpa using hhidden.resolve_left hhides)]

/-- Absent for good: not even under lower case, if the names are apart. -/
theorem channelEntries_none {mapping : ModelMapping} (hmem : mapping ∈ settings.modelMappings)
    (hapart : NamesApart supported settings)
    (h : Keyed.get (visibleEntries supported settings) mapping.fromModel = none) :
    (Keyed.get (channelEntries supported settings) (requestName settings mapping)).isSome ≠ true := by
  unfold channelEntries requestName
  by_cases hlower : settings.lowercaseModelId = true
  · rw [if_pos hlower, if_pos hlower, Ne, isSome_lowercase Keyed.sorted_nil]
    rintro (hnil | ⟨entry, hentry, hkey⟩)
    · exact absurd hnil (by simp)
    · have hget := Keyed.get_of_mem sorted_visibleEntries hentry
      have hsame : entry.1 = mapping.fromModel :=
        hapart hlower entry.1 mapping.fromModel (known_of_visible (by rw [hget]; rfl))
          (.inr ⟨mapping, hmem, rfl⟩) hkey
      rw [hsame, h] at hget
      exact absurd hget (by simp)
  · rw [if_neg hlower, if_neg hlower, h]
    simp

theorem namesApart_perm {mappings : List ModelMapping}
    (hmappings : mappings.Perm settings.modelMappings) (h : NamesApart supported settings) :
    NamesApart supported { settings with modelMappings := mappings } := by
  have hknown : ∀ name : String, Known supported { settings with modelMappings := mappings } name →
      Known supported settings name := by
    unfold Known
    intro name
    rw [aliasOf_perm (List.Perm.refl supported)]
    simp only [hmappings.mem_iff]
    exact id
  exact fun hlower name other hname hother => h hlower name other (hknown name hname) (hknown other hother)

/-- Put first, a blocked mapping is not reachable; so either it never is, or
the order decides. -/
theorem noHiddenBlocker_of_admitsIntended
    (hdistinct : (settings.modelMappings.map ModelMapping.fromModel).Nodup)
    (hapart : NamesApart supported settings) (h : AdmitsIntended supported settings) :
    NoHiddenBlocker supported settings := by
  intro mapping hmem htarget entry halias hhidden
  have hperm : (mapping :: settings.modelMappings.erase mapping).Perm settings.modelMappings :=
    (List.perm_cons_erase hmem).symm
  have hmodels := List.Perm.refl supported
  have hblocked := @blocked_first supported
    { settings with modelMappings := mapping :: settings.modelMappings.erase mapping } mapping _ entry
    rfl ((hperm.map ModelMapping.fromModel).nodup_iff.mpr hdistinct)
    ((aliasOf_perm hmodels _).trans halias) ((hidden_perm hmodels hperm entry).mpr hhidden)
  refine channelEntries_none List.mem_cons_self (namesApart_perm hperm hapart) hblocked ?_
  rw [h.stable supported _ hmodels hperm]
  exact h.reachable mapping hmem htarget

/-! ## The theorem -/

/-- The map admits the intended aliases where no mapping's name is held by an
entry that is hidden, and, unless lower case merges names, only there. -/
theorem entries_admit_intended_iff (supported : List String) (settings : ChannelSettings)
    (hdistinct : (settings.modelMappings.map ModelMapping.fromModel).Nodup) :
    (NoHiddenBlocker supported settings → AdmitsIntended supported settings) ∧
      (NamesApart supported settings →
        (AdmitsIntended supported settings ↔ NoHiddenBlocker supported settings)) :=
  ⟨admitsIntended_of_noHiddenBlocker hdistinct, fun hapart =>
    ⟨noHiddenBlocker_of_admitsIntended hdistinct hapart, admitsIntended_of_noHiddenBlocker hdistinct⟩⟩

/-- One mapping gets a new name; the name of the other is held by a prefixed
model, which stays visible while the originals are hidden. -/
def prefixedSettings : ChannelSettings :=
  { extraModelPrefix := "openai", hideOriginalModels := true, lowercaseModelId := true,
    modelMappings := [⟨"Fast", "gpt-4"⟩, ⟨"openai/o1", "gpt-4"⟩] }

theorem entries_admit_intended_sample : AdmitsIntended ["gpt-4", "o1"] prefixedSettings := by
  refine (entries_admit_intended_iff _ _ (by decide)).1 ?_
  intro mapping hmem _ entry halias
  rcases List.mem_cons.mp hmem with rfl | hmem
  · have hfree : aliasOf ["gpt-4", "o1"] prefixedSettings "Fast" = none := by decide
    exact absurd (hfree.symm.trans halias) (by simp)
  · obtain rfl := List.mem_singleton.mp hmem
    have hheld : aliasOf ["gpt-4", "o1"] prefixedSettings "openai/o1" =
        some (prefixedEntry "openai" "o1") := by decide
    obtain rfl := Option.some.inj (hheld.symm.trans halias)
    rintro (⟨hmapped, _⟩ | ⟨_, hdirect⟩)
    · exact absurd hmapped (by decide)
    · exact absurd hdirect (by decide)

/-- A model sent to its successor, with the originals hidden: the model's own
entry takes the name first and is then hidden, so that nothing answers to it. -/
theorem mapped_name_lost :
    (([⟨"gpt-4", "gpt-4-turbo"⟩] : List ModelMapping).map ModelMapping.fromModel).Nodup ∧
      ¬ AdmitsIntended ["gpt-4", "gpt-4-turbo"]
        { hideOriginalModels := true, modelMappings := [⟨"gpt-4", "gpt-4-turbo"⟩] } := by
  have halias : aliasOf ["gpt-4", "gpt-4-turbo"]
      { hideOriginalModels := true, modelMappings := [⟨"gpt-4", "gpt-4-turbo"⟩] } "gpt-4" =
        some (directEntry "gpt-4") := by
    simp [aliasOf]
  refine ⟨by decide, fun h => ?_⟩
  exact noHiddenBlocker_of_admitsIntended (by decide) (fun hlower => absurd hlower (by decide)) h
    ⟨"gpt-4", "gpt-4-turbo"⟩ List.mem_cons_self (by decide) _ halias (.inr ⟨rfl, rfl⟩)

end Loop

end Conduit.Channels
