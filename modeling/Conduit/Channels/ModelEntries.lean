import Conduit.Base.Keyed
import Conduit.Channels.Settings
import Conduit.Orchestrator.Candidates

/-!
# The model entries of a channel

The entries are filled in four rounds, in each of which the first of a name
wins: the supported models, the prefixed ones, the trimmed ones, the mappings.
`aliasOf` says what the first three leave under a name. A mapping whose name is
taken is dropped even if what took it is hidden afterwards, so the entries are
the intended ones where no such alias is hidden (`NoHiddenBlocker`).
-/

namespace Conduit.Channels

open Base Orchestrator

/-! ## The rounds -/

/-- `str::strip_prefix`. -/
def stripPrefix (text pattern : String) : Option String :=
  if Text.startsWith text pattern then
    some (String.ofList (text.toList.drop pattern.toList.length))
  else none

def directEntry (model : String) : ChannelModelEntry := ⟨model, model, .direct⟩

def prefixedEntry (extraPrefix model : String) : ChannelModelEntry :=
  ⟨extraPrefix ++ "/" ++ model, model, .prefixed⟩

def trimmedEntry (trimmed model : String) : ChannelModelEntry := ⟨trimmed, model, .autoTrim⟩

def mappingEntry (mapping : ModelMapping) : ChannelModelEntry :=
  ⟨mapping.fromModel, mapping.toModel, .mapping⟩

/-- An entry under its own name. -/
def named (entry : ChannelModelEntry) : String × ChannelModelEntry := (entry.requestModel, entry)

abbrev Entries : Type := List (String × ChannelModelEntry)

section Rounds

variable (supported : List String) (settings : ChannelSettings)

def insertDirect (entries : Entries) : Entries :=
  (supported.map fun model => named (directEntry model)).foldl Keyed.insertNew entries

def insertPrefixed (entries : Entries) : Entries :=
  if settings.extraModelPrefix = "" then entries
  else
    (supported.map fun model => named (prefixedEntry settings.extraModelPrefix model)).foldl
      Keyed.insertNew entries

/-- The trimmed names of one prefix. -/
def trimmedBy (trim : String) : Entries :=
  supported.filterMap fun model =>
    (stripPrefix model (trim ++ "/")).map fun trimmed => named (trimmedEntry trimmed model)

def insertTrimmed (entries : Entries) : Entries :=
  settings.autoTrimedModelPrefixes.foldl
    (fun entries trim =>
      if trim = "" then entries else (trimmedBy supported trim).foldl Keyed.insertNew entries)
    entries

/-- Keeps what is no alias of the target. -/
def unmapped (target : String) (entry : String × ChannelModelEntry) : Bool :=
  entry.2.source = .mapping || entry.2.actualModel ≠ target

/-- One mapping. Hiding its target comes after its own insertion. -/
def insertMapping (entries : Entries) (mapping : ModelMapping) : Entries :=
  if mapping.toModel ∈ supported then
    let inserted := Keyed.insertNew entries (named (mappingEntry mapping))
    if settings.hideMappedModels then inserted.filter (unmapped mapping.toModel) else inserted
  else entries

def ModelSource.priority : ModelSource → Int
  | .direct => 4
  | .autoTrim => 3
  | .mapping => 2
  | .prefixed => 1

def toAsciiLowercase (text : String) : String := String.ofList (text.toList.map Char.toLower)

/-- The entry of a name in lower case; of two, the one from the better source. -/
def insertLowercase (entries : Entries) (entry : String × ChannelModelEntry) : Entries :=
  let lowered := { entry.2 with requestModel := toAsciiLowercase entry.1 }
  Keyed.upsert (toAsciiLowercase entry.1) lowered
    (fun existing =>
      if ModelSource.priority existing.source < ModelSource.priority lowered.source then lowered
      else existing)
    entries

/-- The entries before the names are lowercased. -/
def visibleEntries : Entries :=
  let entries := settings.modelMappings.foldl (insertMapping supported settings)
    (insertTrimmed supported settings (insertPrefixed supported settings (insertDirect supported [])))
  if settings.hideOriginalModels then entries.filter fun entry => entry.2.source ≠ .direct
  else entries

def channelEntries : Entries :=
  if settings.lowercaseModelId then (visibleEntries supported settings).foldl insertLowercase []
  else visibleEntries supported settings

end Rounds

/-! ## The first rounds -/

/-- What the rounds before the mappings leave under a name. -/
def aliasOf (supported : List String) (settings : ChannelSettings) (name : String) :
    Option ChannelModelEntry :=
  if name ∈ supported then some (directEntry name)
  else
    ((if settings.extraModelPrefix = "" then none
      else stripPrefix name (settings.extraModelPrefix ++ "/")).filter (· ∈ supported)).elim
      (settings.autoTrimedModelPrefixes.findSome? fun trim =>
        if trim ≠ "" ∧ trim ++ "/" ++ name ∈ supported then
          some (trimmedEntry name (trim ++ "/" ++ name))
        else none)
      fun model => some (prefixedEntry settings.extraModelPrefix model)

theorem stripPrefix_eq_some {text pattern rest : String} :
    stripPrefix text pattern = some rest ↔ text = pattern ++ rest := by
  unfold stripPrefix Text.startsWith
  rw [← String.toList_inj, String.toList_append]
  by_cases hprefix : pattern.toList.isPrefixOf text.toList = true
  · rw [if_pos hprefix, Option.some.injEq, ← String.toList_inj, String.toList_ofList]
    obtain ⟨tail, htail⟩ := List.isPrefixOf_iff_prefix.mp hprefix
    rw [← htail, List.drop_left, List.append_cancel_left_eq]
  · rw [if_neg hprefix]
    refine iff_of_false (by simp) fun heq => hprefix ?_
    exact List.isPrefixOf_iff_prefix.mpr ⟨rest.toList, heq.symm⟩

section Base

variable (supported : List String) (settings : ChannelSettings) {entries : Entries}

theorem sorted_insertTrimmed (h : Keyed.Sorted entries) :
    Keyed.Sorted (insertTrimmed supported settings entries) := by
  unfold insertTrimmed
  induction settings.autoTrimedModelPrefixes generalizing entries with
  | nil => exact h
  | cons trim trims ih =>
      rw [List.foldl_cons]
      refine ih ?_
      by_cases hempty : trim = ""
      · rwa [if_pos hempty]
      · rw [if_neg hempty]
        exact Keyed.sorted_insertAll h _

theorem sorted_insertPrefixed (h : Keyed.Sorted entries) :
    Keyed.Sorted (insertPrefixed supported settings entries) := by
  unfold insertPrefixed
  by_cases hempty : settings.extraModelPrefix = ""
  · rwa [if_pos hempty]
  · rw [if_neg hempty]
    exact Keyed.sorted_insertAll h _

/-- The first entry under a name, where only one model can have it. -/
theorem find?_named (models : List String) (entryOf : String → ChannelModelEntry)
    {name model : String} (hname : ∀ other : String, (entryOf other).requestModel = name ↔ other = model) :
    ((models.map fun other => named (entryOf other)).find? fun entry => entry.1 = name).map Prod.snd =
      if model ∈ models then some (entryOf model) else none := by
  induction models with
  | nil => rfl
  | cons other models ih =>
      rw [List.map_cons, List.find?_cons]
      by_cases hother : other = model
      · subst hother
        have hkey : (named (entryOf other)).1 = name := (hname other).mpr rfl
        rw [decide_eq_true hkey, if_pos List.mem_cons_self]
        rfl
      · have hkey : (named (entryOf other)).1 ≠ name := fun heq => hother ((hname other).mp heq)
        rw [decide_eq_false hkey, ih]
        simp [Ne.symm hother]

theorem get_insertDirect (name : String) :
    Keyed.get (insertDirect supported []) name =
      if name ∈ supported then some (directEntry name) else none := by
  unfold insertDirect
  rw [Keyed.get_insertAll Keyed.sorted_nil, find?_named supported directEntry fun other => Iff.rfl]
  rfl

theorem get_insertPrefixed (h : Keyed.Sorted entries) (name : String) :
    Keyed.get (insertPrefixed supported settings entries) name =
      (Keyed.get entries name).or
        (((if settings.extraModelPrefix = "" then none
          else stripPrefix name (settings.extraModelPrefix ++ "/")).filter (· ∈ supported)).map
            (prefixedEntry settings.extraModelPrefix)) := by
  unfold insertPrefixed
  by_cases hempty : settings.extraModelPrefix = ""
  · rw [if_pos hempty, if_pos hempty]
    exact (Option.or_none).symm
  · rw [if_neg hempty, if_neg hempty, Keyed.get_insertAll h]
    congr 1
    cases hstrip : stripPrefix name (settings.extraModelPrefix ++ "/") with
    | none =>
        have hnone : (supported.map fun model => named (prefixedEntry settings.extraModelPrefix model)).find?
            (fun entry => entry.1 = name) = none := by
          refine List.find?_eq_none.mpr fun entry hentry => ?_
          obtain ⟨model, -, rfl⟩ := List.mem_map.mp hentry
          intro heq
          have hname : name = settings.extraModelPrefix ++ "/" ++ model := (of_decide_eq_true heq).symm
          rw [stripPrefix_eq_some.mpr hname] at hstrip
          exact absurd hstrip (by simp)
        rw [hnone]
        rfl
    | some model =>
        have hname := stripPrefix_eq_some.mp hstrip
        rw [@find?_named supported (prefixedEntry settings.extraModelPrefix) _ model fun other => ?_]
        · by_cases hmem : model ∈ supported
          · rw [if_pos hmem, Option.filter_some, if_pos (decide_eq_true hmem)]
            rfl
          · rw [if_neg hmem, Option.filter_some, if_neg (by simpa using hmem)]
            rfl
        · show settings.extraModelPrefix ++ "/" ++ other = name ↔ _
          rw [hname]
          exact String.append_right_inj _

theorem find?_trimmedBy (trim name : String) :
    ((trimmedBy supported trim).find? fun entry => entry.1 = name).map Prod.snd =
      if trim ++ "/" ++ name ∈ supported then some (trimmedEntry name (trim ++ "/" ++ name)) else none := by
  unfold trimmedBy
  induction supported with
  | nil => rfl
  | cons model models ih =>
      cases hstrip : stripPrefix model (trim ++ "/") with
      | none =>
          rw [List.filterMap_cons_none (by simp [hstrip]), ih]
          have hother : trim ++ "/" ++ name ≠ model := by
            intro heq
            rw [stripPrefix_eq_some.mpr heq.symm] at hstrip
            exact absurd hstrip (by simp)
          simp [hother]
      | some trimmed =>
          have hmodel := stripPrefix_eq_some.mp hstrip
          rw [List.filterMap_cons_some (show _ = some (named (trimmedEntry trimmed model)) by
            rw [hstrip, Option.map_some])]
          rw [List.find?_cons]
          by_cases hname : trimmed = name
          · subst hname
            rw [decide_eq_true (show (named (trimmedEntry trimmed model)).1 = trimmed from rfl), hmodel,
              if_pos List.mem_cons_self]
            rfl
          · rw [decide_eq_false (show (named (trimmedEntry trimmed model)).1 ≠ name from hname), ih]
            have hother : trim ++ "/" ++ name ≠ model := by
              rw [hmodel]
              exact fun heq => hname ((String.append_right_inj _).mp heq).symm
            simp [hother]

theorem get_insertTrimmed (h : Keyed.Sorted entries) (name : String) :
    Keyed.get (insertTrimmed supported settings entries) name =
      (Keyed.get entries name).or (settings.autoTrimedModelPrefixes.findSome? fun trim =>
        if trim ≠ "" ∧ trim ++ "/" ++ name ∈ supported then
          some (trimmedEntry name (trim ++ "/" ++ name))
        else none) := by
  unfold insertTrimmed
  induction settings.autoTrimedModelPrefixes generalizing entries with
  | nil => exact (Option.or_none).symm
  | cons trim trims ih =>
      rw [List.foldl_cons, List.findSome?_cons]
      by_cases hempty : trim = ""
      · rw [if_pos hempty, ih h, if_neg (fun hboth => hboth.1 hempty)]
      · rw [if_neg hempty, ih (Keyed.sorted_insertAll h _), Keyed.get_insertAll h, find?_trimmedBy,
          Option.or_assoc]
        by_cases hmem : trim ++ "/" ++ name ∈ supported
        · rw [if_pos hmem, if_pos ⟨hempty, hmem⟩, Option.some_or]
        · rw [if_neg hmem, if_neg (fun hboth => hmem hboth.2), Option.none_or]

/-- The entries before the mappings. -/
def baseEntries : Entries :=
  insertTrimmed supported settings (insertPrefixed supported settings (insertDirect supported []))

theorem sorted_baseEntries : Keyed.Sorted (baseEntries supported settings) :=
  sorted_insertTrimmed _ _ (sorted_insertPrefixed _ _ (Keyed.sorted_insertAll Keyed.sorted_nil _))

theorem get_baseEntries (name : String) :
    Keyed.get (baseEntries supported settings) name = aliasOf supported settings name := by
  have hdirect : Keyed.Sorted (insertDirect supported []) :=
    Keyed.sorted_insertAll Keyed.sorted_nil _
  unfold baseEntries aliasOf
  rw [get_insertTrimmed _ _ (sorted_insertPrefixed _ _ hdirect), get_insertPrefixed _ _ hdirect,
    get_insertDirect]
  by_cases hmem : name ∈ supported
  · rw [if_pos hmem, if_pos hmem]
    rfl
  · rw [if_neg hmem, if_neg hmem, Option.none_or]
    cases (if settings.extraModelPrefix = "" then none
      else stripPrefix name (settings.extraModelPrefix ++ "/")).filter (· ∈ supported) with
    | none => rfl
    | some model => rfl

end Base

end Conduit.Channels
