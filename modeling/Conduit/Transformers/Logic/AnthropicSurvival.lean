import Conduit.Transformers.Logic.AnthropicRoundTrip
import Mathlib

/-!
# Which messages survive

With the texts merged, what comes back is the thinking before the blocks that
were kept (`merged_response`). The blocks that are not texts must be those of the
message (`others_iff`), which says of each that its slot holds all of it, and the
citations must already stand where they come back (`attach_strip_iff`).
-/

namespace Conduit.Transformers.AnthropicResponse

open Base Base.Json Base.Text Anthropic AnthropicBlock

/-! ## Merged texts -/

theorem mergeTexts_other {block : AnthropicBlock} (h : isText block = false)
    (blocks : List AnthropicBlock) : mergeTexts (block :: blocks) = block :: mergeTexts blocks := by
  cases block with
  | text value citations => exact absurd h (by simp [isText])
  | _ => rfl

theorem consText_consText (first second : String) (citations more : List Json)
    (merged : List AnthropicBlock) :
    consText first citations (consText second more merged) =
      consText (first ++ second) (citations ++ more) merged := by
  cases merged with
  | nil => rfl
  | cons block merged =>
      cases block with
      | text value old =>
          show AnthropicBlock.text (first ++ (second ++ value)) (citations ++ (more ++ old)) :: merged =
            .text (first ++ second ++ value) (citations ++ more ++ old) :: merged
          rw [String.append_assoc, List.append_assoc]
      | _ => rfl

/-- Texts in a row are one text. -/
theorem mergeTexts_texts {texts : List String} (hne : texts ≠ []) (blocks : List AnthropicBlock) :
    mergeTexts ((texts.map fun text => .text text []) ++ blocks) =
      mergeTexts (.text (String.join texts) [] :: blocks) := by
  induction texts with
  | nil => exact absurd rfl hne
  | cons text texts ih =>
      rw [String.join_cons, List.map_cons, List.cons_append]
      cases texts with
      | nil =>
          rw [show String.join [] = "" from rfl, String.append_empty]
          rfl
      | cons second texts =>
          show consText text [] (mergeTexts _) = consText (text ++ _) ([] ++ []) (mergeTexts blocks)
          rw [ih (List.cons_ne_nil second texts)]
          exact consText_consText text _ [] [] _

theorem mergeTexts_strip (blocks : List AnthropicBlock) :
    mergeTexts (blocks.map strip) = (mergeTexts blocks).map strip := by
  induction blocks with
  | nil => rfl
  | cons block blocks ih =>
      cases block with
      | text value citations =>
          show consText value [] (mergeTexts (blocks.map strip)) =
            (consText value citations (mergeTexts blocks)).map strip
          rw [ih]
          cases mergeTexts blocks with
          | nil => rfl
          | cons next merged => cases next <;> rfl
      | _ => exact congrArg _ ih

/-- The citations on the first text are those on the first of the merged ones. -/
theorem mergeTexts_attachFirst (citations : List Json) (blocks : List AnthropicBlock) :
    mergeTexts (attachFirst citations (blocks.map strip)) =
      attachFirst citations ((mergeTexts blocks).map strip) := by
  induction blocks with
  | nil => rfl
  | cons block blocks ih =>
      cases block with
      | text value old =>
          show consText value citations (mergeTexts (blocks.map strip)) =
            attachFirst citations ((consText value old (mergeTexts blocks)).map strip)
          rw [mergeTexts_strip]
          cases mergeTexts blocks with
          | nil => rfl
          | cons next merged =>
              cases next with
              | text more moreCitations =>
                  show AnthropicBlock.text (value ++ more) (citations ++ []) :: merged.map strip = _
                  rw [List.append_nil]
                  rfl
              | _ => rfl
      | _ => exact congrArg _ ih

theorem flatMap_mergeTexts (blocks : List AnthropicBlock) :
    (mergeTexts blocks).flatMap citationsOf = blocks.flatMap citationsOf := by
  induction blocks with
  | nil => rfl
  | cons block blocks ih =>
      rw [List.flatMap_cons, ← ih]
      cases block with
      | text value citations =>
          show (consText value citations (mergeTexts blocks)).flatMap citationsOf = _
          cases mergeTexts blocks with
          | nil => rfl
          | cons next merged =>
              cases next with
              | text more moreCitations =>
                  show (citations ++ moreCitations) ++ merged.flatMap citationsOf = _
                  rw [List.append_assoc]
                  rfl
              | _ => rfl
      | _ => rfl

/-! ## Blocks that are no texts -/

/-- The blocks that are no texts. -/
def others (blocks : List AnthropicBlock) : List AnthropicBlock := blocks.filter fun block => !isText block

theorem others_mergeTexts (blocks : List AnthropicBlock) : others (mergeTexts blocks) = others blocks := by
  induction blocks with
  | nil => rfl
  | cons block blocks ih =>
      cases block with
      | text value citations =>
          rw [show others (.text value citations :: blocks) = others blocks from rfl, ← ih]
          show others (consText value citations (mergeTexts blocks)) = _
          cases mergeTexts blocks with
          | nil => rfl
          | cons next merged => cases next <;> rfl
      | _ => exact congrArg (List.cons _) ih

theorem others_attachFirst (citations : List Json) (blocks : List AnthropicBlock) :
    others (attachFirst citations blocks) = others blocks := by
  induction blocks with
  | nil => rfl
  | cons block blocks ih =>
      cases block with
      | text value old => rfl
      | _ => exact congrArg (List.cons _) ih

theorem others_keep (blocks : List AnthropicBlock) :
    others (blocks.filterMap keep) = blocks.filterMap keepTool := by
  induction blocks with
  | nil => rfl
  | cons block blocks ih =>
      cases block with
      | text value citations => exact ih
      | thinking reasoning signature => exact ih
      | redactedThinking data => exact ih
      | image source => exact ih
      | toolUse blockType id name input caller => exact congrArg (List.cons _) ih
      | toolResult blockType toolUseId content isError caller => exact congrArg (List.cons _) ih

/-- The views of two lists tell their blocks that are no texts. -/
theorem others_eq_of_view {blocks other : List AnthropicBlock} (h : blocks.map view = other.map view) :
    others blocks = others other := by
  induction blocks generalizing other with
  | nil =>
      cases other with
      | nil => rfl
      | cons block other => exact absurd h (by simp)
  | cons block blocks ih =>
      cases other with
      | nil => exact absurd h (by simp)
      | cons next other =>
          rw [List.map_cons, List.map_cons, List.cons.injEq] at h
          have hrest := ih h.2
          have hfirst := h.1
          cases block <;> cases next <;> simp [view] at hfirst <;> simp_all [others, isText]

/-! ## The order of one text -/

section Safe

variable {blocks : List AnthropicBlock}

theorem le_foldl_max (indexes : List Int) (start : Int) :
    start ≤ indexes.foldl max start ∧ ∀ index ∈ indexes, index ≤ indexes.foldl max start := by
  induction indexes generalizing start with
  | nil => exact ⟨le_refl start, fun index hindex => absurd hindex (List.not_mem_nil)⟩
  | cons first indexes ih =>
      obtain ⟨hstart, hindexes⟩ := ih (max start first)
      refine ⟨(le_max_left start first).trans hstart, fun index hindex => ?_⟩
      rcases List.mem_cons.mp hindex with rfl | hindex
      · exact (le_max_right start index).trans hstart
      · exact hindexes index hindex

/-- Content that is one text has no tool block before a text. -/
theorem text_le_tool (hwell : ∀ block ∈ blocks, block.WellFormed)
    (hsafe : (collect (blocks.map toJson)).safe = true) {text tool : AnthropicBlock × Nat}
    (htext : text ∈ blocks.zipIdx) (hisText : isText text.1 = true) (htool : tool ∈ blocks.zipIdx)
    (hisTool : keepTool tool.1 ≠ none) : text.2 ≤ tool.2 := by
  rw [collect_toJson hwell] at hsafe
  unfold Collected.safe at hsafe
  dsimp only at hsafe
  rw [Bool.and_eq_true, List.all_eq_true, List.all_eq_true] at hsafe
  obtain ⟨hcalls, hresults⟩ := hsafe
  have hle := (le_foldl_max ((blocks.zipIdx.filterMap fun entry => entry.1.partOf entry.2).filterMap
    fun part => metaIndex part.extra) (-1)).2 (text.2 : Int) (by
      obtain ⟨block, index⟩ := text
      cases block with
      | text value citations =>
          refine List.mem_filterMap.mpr ⟨_, List.mem_filterMap.mpr ⟨_, htext, rfl⟩, ?_⟩
          show metaIndex (setAnthropicBlockIndex [] index) = _
          unfold metaIndex
          rw [field_index, if_pos rfl]
          rfl
      | _ => exact absurd hisText (by simp [isText]))
  obtain ⟨block, index⟩ := tool
  have hmem := List.fst_mem_of_mem_zipIdx htool
  cases block with
  | toolUse blockType id name input caller =>
      have hcall := hcalls _ (List.mem_filterMap.mpr ⟨_, htool, rfl⟩)
      rw [(call_meta (hwell _ hmem).1 caller index).1] at hcall
      simp only [Option.all_some, decide_eq_true_eq] at hcall
      omega
  | toolResult blockType toolUseId content isError caller =>
      have hresult := hresults _ (List.mem_filterMap.mpr ⟨_, htool, rfl⟩)
      rw [(special_meta (isAnthropicSpecialBlock_result (hwell _ hmem).1) caller index).1] at hresult
      simp only [Option.all_some, decide_eq_true_eq] at hresult
      omega
  | _ => exact absurd rfl hisTool

/-- Without a tool block before a text, the texts come first. -/
theorem keep_split (k : Nat)
    (h : ∀ text ∈ blocks.zipIdx k, isText text.1 = true → ∀ tool ∈ blocks.zipIdx k,
      keepTool tool.1 ≠ none → text.2 ≤ tool.2) :
    blocks.filterMap keep =
      ((blocks.filterMap textOf).map fun text => .text text []) ++ blocks.filterMap keepTool := by
  induction blocks generalizing k with
  | nil => rfl
  | cons block blocks ih =>
      have hrest := ih (k + 1) fun text htext hisText tool htool hisTool =>
        h text (by rw [List.zipIdx_cons]; exact List.mem_cons_of_mem _ htext) hisText tool
          (by rw [List.zipIdx_cons]; exact List.mem_cons_of_mem _ htool) hisTool
      -- after a tool block there is no text
      have hnone : keepTool block ≠ none → blocks.filterMap textOf = [] := by
        intro hisTool
        refine List.filterMap_eq_nil_iff.mpr fun other hother => ?_
        obtain ⟨entry, hentry, rfl⟩ : ∃ entry ∈ blocks.zipIdx (k + 1), entry.1 = other := by
          have hmap := List.zipIdx_map_fst (k + 1) blocks
          rw [← hmap] at hother
          exact List.mem_map.mp hother
        have hbound := List.le_snd_of_mem_zipIdx hentry
        rcases hentryBlock : entry.1 with value | _ | _ | _ | _ | _
        · have := h entry (by rw [List.zipIdx_cons]; exact List.mem_cons_of_mem _ hentry)
            (by rw [hentryBlock]; rfl) (block, k) (by rw [List.zipIdx_cons]; exact List.mem_cons_self)
            hisTool
          dsimp only at this
          omega
        all_goals rfl
      cases block with
      | text value citations => exact congrArg (List.cons (.text value [])) hrest
      | toolUse blockType id name input caller =>
          have hempty := hnone (by simp [keepTool, isText, keep])
          rw [hempty] at hrest
          rw [List.filterMap_cons_none (show textOf _ = none from rfl), hempty]
          exact congrArg (List.cons _) hrest
      | toolResult blockType toolUseId content isError caller =>
          have hempty := hnone (by simp [keepTool, isText, keep])
          rw [hempty] at hrest
          rw [List.filterMap_cons_none (show textOf _ = none from rfl), hempty]
          exact congrArg (List.cons _) hrest
      | _ => exact hrest

/-- With the texts merged, the body is made of the blocks that were kept. -/
theorem mergeTexts_body (hwell : ∀ block ∈ blocks, block.WellFormed) :
    mergeTexts (body blocks) = mergeTexts (blocks.filterMap keep) := by
  rcases body_cases hwell with ⟨hne, hsafe, hbody⟩ | hbody
  · rw [hbody, keep_split 0 fun text htext hisText tool htool hisTool =>
      text_le_tool hwell hsafe htext hisText htool hisTool, mergeTexts_texts hne]
  · rw [hbody]

/-- What the response has, with its texts merged. -/
theorem merged_response (generateSignature : String) (citations : List Json)
    (hwell : ∀ block ∈ blocks, block.WellFormed) :
    mergeTexts (attachFirst citations (thinkingOf generateSignature blocks ++ body blocks)) =
      thinkingOf generateSignature blocks ++
        attachFirst citations (mergeTexts (blocks.filterMap keep)) := by
  have hstrip : ∀ block ∈ body blocks, strip block = block := by
    intro block hblock
    have hnone := (body_wellFormed hwell block hblock).2
    cases block with
    | text value old =>
        rw [show old = [] from hnone]
        rfl
    | _ => rfl
  have hbody : (body blocks).map strip = body blocks :=
    (List.map_congr_left hstrip).trans (List.map_id _)
  have hmerge := mergeTexts_attachFirst citations (body blocks)
  rw [← mergeTexts_strip, hbody, mergeTexts_body hwell] at hmerge
  rw [← hmerge]
  -- the thinking is no text
  unfold thinkingOf
  dsimp only
  split <;> rfl

end Safe

/-! ## The condition -/

/-- A citation that an annotation holds: a type, and a url and a title if they are there. -/
structure IsPlain (citation : Json) : Prop where
  typed : ∃ citationType : String, citationType ≠ "" ∧
    citation.get "type" = some (.string citationType)
  url : citation.get "url" = (strField citation "url").map .string
  title : citation.get "title" = (strField citation "title").map .string
  only : ∀ name : String, name ≠ "type" → name ≠ "url" → name ≠ "title" → citation.get name = none

/-- The slot of a block holds all of it: the signature of a thinking is one already, no empty
page range of a reading tool is dropped, only a server-side tool has a caller, and a result
is a text. There is no slot for an image or a redacted thinking. -/
def FitsSlot : AnthropicBlock → Prop
  | .text _ _ => True
  | .thinking reasoning signature =>
      ∃ encoded : String, signature = some encoded ∧ Base64.ensureEncoded encoded = encoded ∧
        (reasoning ≠ "" ∨ encoded ≠ "")
  | .redactedThinking _ => False
  | .image _ => False
  | .toolUse blockType _ name input caller =>
      ¬ (eqIgnoreAsciiCase name "read" = true ∧ strField input "pages" = some "") ∧
        ∀ value : Json, caller = some value → blockType ≠ "tool_use" ∧ value.isNull = false
  | .toolResult _ _ content _ caller =>
      (∀ value : Json, content = some value → ∃ text : String, text ≠ "" ∧ value = .string text) ∧
        ∀ value : Json, caller = some value → value.isNull = false

def isThinking : AnthropicBlock → Bool
  | .thinking _ _ => true
  | _ => false

/-- Each block fits its slot, the thinking comes first, and the citations are plain and on
the first of the merged texts. -/
structure Survivable (blocks : List AnthropicBlock) : Prop where
  fits : ∀ block ∈ blocks, FitsSlot block
  thinkingFirst : ∀ block ∈ blocks.tail, isThinking block = false
  citationsPlain : ∀ citation ∈ blocks.flatMap citationsOf, IsPlain citation
  citationsFirst : ∀ block ∈ ((mergeTexts blocks).filter isText).tail, block.citationsOf = []

theorem plain_iff (citation : Json) : (plainCitation citation).get = citation.get ↔ IsPlain citation := by
  have hget : ∀ name : String, (plainCitation citation).get name =
      if name = "type" then
        some (.string (if (strField citation "type").getD "url_citation" = "" then
          "web_search_result_location" else (strField citation "type").getD "url_citation"))
      else if name = "url" then (strField citation "url").map .string
      else if name = "title" then (strField citation "title").map .string else none := by
    intro name
    unfold plainCitation
    rw [get_object, field_append, field_append, field_optionalField, field_optionalField]
    by_cases htype : name = "type"
    · simp [htype]
    · by_cases hurl : name = "url"
      · simp [hurl]
      · simp [htype, hurl]
  constructor
  · intro heq
    have hfield := fun name => (hget name).symm.trans (congrFun heq name)
    refine ⟨⟨_, ?_, (hfield "type").symm.trans (if_pos rfl)⟩, ?_, ?_, ?_⟩
    · split
      · decide
      · assumption
    · exact (hfield "url").symm.trans ((if_neg (by decide)).trans (if_pos rfl))
    · exact (hfield "title").symm.trans
        ((if_neg (by decide)).trans ((if_neg (by decide)).trans (if_pos rfl)))
    · intro name htype hurl htitle
      exact (hfield name).symm.trans
        ((if_neg htype).trans ((if_neg hurl).trans (if_neg htitle)))
  · intro hplain
    obtain ⟨citationType, hne, htyped⟩ := hplain.typed
    have htype : strField citation "type" = some citationType := by
      unfold strField
      rw [htyped]
      rfl
    funext name
    rw [hget, htype, Option.getD_some, if_neg hne]
    by_cases hname : name = "type"
    · rw [if_pos hname, hname, htyped]
    · by_cases hurl : name = "url"
      · rw [if_neg hname, if_pos hurl, hurl, hplain.url]
      · by_cases htitle : name = "title"
        · rw [if_neg hname, if_neg hurl, if_pos htitle, htitle, hplain.title]
        · rw [if_neg hname, if_neg hurl, if_neg htitle, hplain.only name hname hurl htitle]

/-- Only texts without citations keep their view when they lose them. -/
theorem view_strip_iff (block : AnthropicBlock) :
    view (strip block) = view block ↔ block.citationsOf = [] := by
  cases block with
  | text value citations =>
      constructor
      · intro heq
        injection heq with _ hcitations
        exact List.map_eq_nil_iff.mp hcitations.symm
      · intro hnone
        rw [show citations = [] from hnone]
        rfl
  | _ => exact ⟨fun _ => rfl, fun _ => rfl⟩

theorem map_view_strip_iff (blocks : List AnthropicBlock) :
    (blocks.map strip).map view = blocks.map view ↔
      ∀ block ∈ blocks.filter isText, block.citationsOf = [] := by
  rw [List.map_map, List.map_inj_left]
  constructor
  · intro h block hblock
    exact (view_strip_iff block).mp (h block (List.mem_filter.mp hblock).1)
  · intro h block hblock
    refine (view_strip_iff block).mpr ?_
    cases block with
    | text value citations => exact h _ (List.mem_filter.mpr ⟨hblock, rfl⟩)
    | _ => rfl

/-- The citations come back where they were: all of them on the first text. -/
theorem attach_strip_iff (merged : List AnthropicBlock) :
    (attachFirst (plainCitations merged) (merged.map strip)).map view = merged.map view ↔
      (∀ block ∈ (merged.filter isText).tail, block.citationsOf = []) ∧
        ∀ citation ∈ merged.flatMap citationsOf, IsPlain citation := by
  induction merged with
  | nil => simp [attachFirst]
  | cons block merged ih =>
      -- another block than a text stands as it is
      have hother : ∀ other : AnthropicBlock, isText other = false → other.citationsOf = [] →
          strip other = other → attachFirst (plainCitations (other :: merged))
            ((other :: merged).map strip) =
              other :: attachFirst (plainCitations merged) (merged.map strip) →
          ((attachFirst (plainCitations (other :: merged)) ((other :: merged).map strip)).map view =
            (other :: merged).map view ↔
          (∀ block ∈ ((other :: merged).filter isText).tail, block.citationsOf = []) ∧
            ∀ citation ∈ (other :: merged).flatMap citationsOf, IsPlain citation) := by
        intro other htext hnone hstrip hattach
        rw [hattach, List.map_cons, List.map_cons, List.cons.injEq,
          List.filter_cons_of_neg (by simp [htext]), List.flatMap_cons, hnone, List.nil_append, ih]
        exact and_iff_right rfl
      cases block with
      | text value citations =>
          rw [List.filter_cons_of_pos rfl, List.tail_cons, List.flatMap_cons]
          show View.text value ((plainCitations (.text value citations :: merged)).map Json.get) ::
              (merged.map strip).map view = .text value (citations.map Json.get) :: merged.map view ↔ _
          have hplain : ∀ list : List Json, (list.map plainCitation).map Json.get = list.map Json.get ↔
              ∀ citation ∈ list, IsPlain citation := by
            intro list
            rw [List.map_map, List.map_inj_left]
            exact forall₂_congr fun citation _ => plain_iff citation
          rw [List.cons.injEq, View.text.injEq, map_view_strip_iff]
          unfold plainCitations
          rw [List.flatMap_cons]
          constructor
          · rintro ⟨⟨-, hcitations⟩, hrest⟩
            have hlength := congrArg List.length hcitations
            simp only [List.length_map, List.length_append] at hlength
            have hempty : merged.flatMap citationsOf = [] := List.length_eq_zero_iff.mp (by
              have : (citationsOf (.text value citations)).length = citations.length := rfl
              omega)
            rw [hempty, List.append_nil] at hcitations ⊢
            exact ⟨hrest, (hplain citations).mp hcitations⟩
          · rintro ⟨hrest, hcitations⟩
            have hempty : merged.flatMap citationsOf = [] := by
              refine List.flatMap_eq_nil_iff.mpr fun block hblock => ?_
              cases block with
              | text value citations => exact hrest _ (List.mem_filter.mpr ⟨hblock, rfl⟩)
              | _ => rfl
            rw [hempty, List.append_nil] at hcitations ⊢
            exact ⟨⟨rfl, (hplain citations).mpr hcitations⟩, hrest⟩
      | _ => exact hother _ rfl rfl rfl rfl

/-! ## The blocks one by one -/

theorem sanitizeReadToolInput_eq_iff (name : String) (input : Json) :
    sanitizeReadToolInput name input = input ↔
      ¬ (eqIgnoreAsciiCase name "read" = true ∧ strField input "pages" = some "") := by
  unfold sanitizeReadToolInput
  by_cases hread : eqIgnoreAsciiCase name "read" = true
  · rw [if_pos hread]
    cases input with
    | object fields =>
        dsimp only
        by_cases hpages : (field fields "pages").bind asStr = some ""
        · rw [if_pos hpages]
          refine iff_of_false (fun heq => ?_) (fun h => h ⟨hread, hpages⟩)
          -- the field is gone
          have hremoved := field_remove "pages" "pages" fields
          rw [if_pos rfl, Json.object.inj heq] at hremoved
          rw [hremoved] at hpages
          exact absurd hpages (by simp)
        · rw [if_neg hpages]
          exact iff_of_true rfl fun h => hpages h.2
    | _ => exact iff_of_true rfl fun h => absurd h.2 (by simp [strField, Json.get])
  · rw [if_neg hread]
    exact iff_of_true rfl fun h => hread h.1

theorem present_eq_iff (value : Option Json) :
    present value = value ↔ ∀ json : Json, value = some json → json.isNull = false := by
  unfold present
  cases value with
  | none => simp
  | some json => cases hnull : json.isNull <;> simp [Option.filter, hnull]

theorem keptContent_eq_iff (content : Option Json) :
    keptContent content = content ↔
      ∀ value : Json, content = some value → ∃ text : String, text ≠ "" ∧ value = .string text := by
  unfold keptContent
  constructor
  · rintro heq value rfl
    split at heq
    · exact absurd heq (by simp)
    · rename_i hne
      exact ⟨_, hne, (Option.some.inj heq).symm⟩
  · intro h
    cases content with
    | none => rfl
    | some value =>
        obtain ⟨text, hne, rfl⟩ := h value rfl
        exact if_neg hne

/-- A tool block that fits its slot is kept as it is. -/
theorem keepTool_eq_iff {block : AnthropicBlock} (h : keepTool block ≠ none) :
    keepTool block = some block ↔ FitsSlot block := by
  cases block with
  | toolUse blockType id name input caller =>
      have hcaller : keptCaller blockType caller = caller ↔
          ∀ value : Json, caller = some value → blockType ≠ "tool_use" ∧ value.isNull = false := by
        unfold keptCaller
        by_cases hplain : blockType = "tool_use"
        · rw [if_pos hplain]
          cases caller <;> simp [hplain]
        · rw [if_neg hplain, present_eq_iff]
          simp [hplain]
      show some (AnthropicBlock.toolUse blockType id name (sanitizeReadToolInput name input)
        (keptCaller blockType caller)) = some (.toolUse blockType id name input caller) ↔ _
      rw [Option.some.injEq, AnthropicBlock.toolUse.injEq]
      unfold FitsSlot
      dsimp only
      rw [← sanitizeReadToolInput_eq_iff, ← hcaller]
      simp
  | toolResult blockType toolUseId content isError caller =>
      show some (AnthropicBlock.toolResult blockType toolUseId (keptContent content) isError
        (present caller)) = some (.toolResult blockType toolUseId content isError caller) ↔ _
      rw [Option.some.injEq, AnthropicBlock.toolResult.injEq]
      unfold FitsSlot
      dsimp only
      rw [← keptContent_eq_iff, ← present_eq_iff]
      simp
  | _ => exact absurd rfl h

/-- A block that is a text, or fits its slot and is no thinking. -/
theorem fits_iff {block : AnthropicBlock} (htext : isText block = false) :
    keepTool block = some block ↔ FitsSlot block ∧ isThinking block = false := by
  by_cases hkeep : keepTool block = none
  · rw [hkeep]
    refine iff_of_false (by simp) ?_
    rintro ⟨hfits, hthinking⟩
    cases block with
    | text value citations => exact absurd htext (by simp [isText])
    | thinking reasoning signature => exact absurd hthinking (by simp [isThinking])
    | redactedThinking data => exact hfits
    | image source => exact hfits
    | _ => exact absurd hkeep (by simp [keepTool, isText, keep])
  · rw [keepTool_eq_iff hkeep]
    refine (and_iff_left ?_).symm
    cases block with
    | thinking reasoning signature => exact absurd rfl hkeep
    | _ => rfl

theorem length_keepTool_le (blocks : List AnthropicBlock) :
    (blocks.filterMap keepTool).length ≤ (others blocks).length := by
  induction blocks with
  | nil => exact le_refl 0
  | cons block blocks ih =>
      unfold others at ih ⊢
      by_cases htext : isText block = true
      · rw [List.filterMap_cons_none (show keepTool block = none from if_pos htext),
          List.filter_cons_of_neg (by simp [htext])]
        exact ih
      · rw [List.filter_cons_of_pos (by simp [htext]), List.length_cons]
        cases hkeep : keepTool block with
        | none =>
            rw [List.filterMap_cons_none hkeep]
            omega
        | some kept =>
            rw [List.filterMap_cons_some hkeep, List.length_cons]
            omega

/-- The tool blocks that are kept are the blocks that are no texts exactly if each is kept as it
is. -/
theorem others_iff (blocks : List AnthropicBlock) :
    blocks.filterMap keepTool = others blocks ↔
      ∀ block ∈ blocks, isText block = false → keepTool block = some block := by
  constructor
  · intro heq
    induction blocks with
    | nil => exact fun block hblock => absurd hblock (List.not_mem_nil)
    | cons first blocks ih =>
        intro block hblock htext
        by_cases hfirst : isText first = true
        · have hnone : keepTool first = none := if_pos hfirst
          unfold others at heq
          rw [List.filterMap_cons_none hnone, List.filter_cons_of_neg (by simp [hfirst])] at heq
          rcases List.mem_cons.mp hblock with rfl | hmem
          · exact absurd htext (by simp [hfirst])
          · exact ih heq block hmem htext
        · unfold others at heq
          rw [List.filter_cons_of_pos (by simp [hfirst])] at heq
          cases hkeep : keepTool first with
          | none =>
              -- a block that is lost makes the list shorter
              rw [List.filterMap_cons_none hkeep] at heq
              have := congrArg List.length heq
              have hle := length_keepTool_le blocks
              unfold others at hle
              rw [List.length_cons] at this
              omega
          | some kept =>
              rw [List.filterMap_cons_some hkeep, List.cons.injEq] at heq
              rcases List.mem_cons.mp hblock with rfl | hmem
              · rw [hkeep, heq.1]
              · exact ih heq.2 block hmem htext
  · intro h
    induction blocks with
    | nil => rfl
    | cons first blocks ih =>
        have hrest := ih fun block hblock => h block (List.mem_cons_of_mem _ hblock)
        unfold others at hrest ⊢
        by_cases hfirst : isText first = true
        · rw [List.filterMap_cons_none (show keepTool first = none from if_pos hfirst), hrest,
            List.filter_cons_of_neg (by simp [hfirst])]
        · rw [List.filterMap_cons_some (h first List.mem_cons_self (Bool.eq_false_iff.mpr hfirst)), hrest,
            List.filter_cons_of_pos (by simp [hfirst])]

/-- Every block that is no text is kept as it is exactly if all fit their slots. -/
theorem kept_iff (blocks : List AnthropicBlock) :
    (∀ block ∈ blocks, isText block = false → keepTool block = some block) ↔
      ∀ block ∈ blocks, FitsSlot block ∧ isThinking block = false := by
  refine forall₂_congr fun block _ => ?_
  by_cases htext : isText block = true
  · refine iff_of_true (fun h => absurd htext (by simp [h])) ?_
    cases block with
    | text value citations => exact ⟨trivial, rfl⟩
    | _ => exact absurd htext (by simp [isText])
  · have hother := Bool.eq_false_iff.mpr htext
    rw [fits_iff hother]
    exact forall_prop_of_true hother

theorem filterMap_keep_eq {blocks : List AnthropicBlock}
    (h : ∀ block ∈ blocks, isText block = false → keepTool block = some block) :
    blocks.filterMap keep = blocks.map strip := by
  rw [← List.filterMap_eq_map]
  refine List.filterMap_congr fun block hblock => ?_
  by_cases htext : isText block = true
  · cases block with
    | text value citations => rfl
    | _ => exact absurd htext (by simp [isText])
  · have hkeep := (keepTool_some (h block hblock (Bool.eq_false_iff.mpr htext))).2
    rw [hkeep]
    cases block with
    | text value citations => exact absurd rfl htext
    | _ => rfl

/-- Where every block is kept as it is, the citations decide. -/
theorem kept_view_iff {blocks : List AnthropicBlock}
    (h : ∀ block ∈ blocks, isText block = false → keepTool block = some block) :
    (attachFirst (plainCitations blocks) (mergeTexts (blocks.filterMap keep))).map view =
        (mergeTexts blocks).map view ↔
      (∀ block ∈ ((mergeTexts blocks).filter isText).tail, block.citationsOf = []) ∧
        ∀ citation ∈ blocks.flatMap citationsOf, IsPlain citation := by
  have hcitations : plainCitations blocks = plainCitations (mergeTexts blocks) := by
    unfold plainCitations
    rw [flatMap_mergeTexts]
  rw [filterMap_keep_eq h, mergeTexts_strip, hcitations, attach_strip_iff, flatMap_mergeTexts]

/-! ## The thinking -/

theorem thinkingOf_none (generateSignature : String) {blocks : List AnthropicBlock}
    (h : ∀ block ∈ blocks, isThinking block = false) :
    blocks.filterMap reasoningOf = [] ∧ blocks.filterMap signatureOf = [] ∧
      thinkingOf generateSignature blocks = [] := by
  have hreasoning : blocks.filterMap reasoningOf = [] := by
    refine List.filterMap_eq_nil_iff.mpr fun block hblock => ?_
    cases block with
    | thinking reasoning signature => exact absurd (h _ hblock) (by simp [isThinking])
    | _ => rfl
  have hsignature : blocks.filterMap signatureOf = [] := by
    refine List.filterMap_eq_nil_iff.mpr fun block hblock => ?_
    cases block with
    | thinking reasoning signature => exact absurd (h _ hblock) (by simp [isThinking])
    | _ => rfl
  refine ⟨hreasoning, hsignature, ?_⟩
  unfold thinkingOf
  rw [hreasoning, hsignature]
  rfl

/-- One thinking comes back with a signature that is encoded. -/
theorem thinkingOf_one (generateSignature reasoning signature : String) {blocks : List AnthropicBlock}
    (h : ∀ block ∈ blocks, isThinking block = false) :
    thinkingOf generateSignature (.thinking reasoning (some signature) :: blocks) =
      if reasoning ≠ "" ∨ Base64.ensureEncoded signature ≠ "" then
        [.thinking reasoning (some (Base64.ensureEncoded signature))]
      else [] := by
  obtain ⟨hreasoning, hsignature, -⟩ := thinkingOf_none generateSignature h
  unfold thinkingOf
  rw [List.filterMap_cons_some (show reasoningOf _ = some reasoning from rfl), hreasoning,
    List.filterMap_cons_some
      (show signatureOf (.thinking reasoning (some signature)) =
        some (Base64.ensureEncoded signature) from rfl), hsignature]
  dsimp only [List.getLast?_singleton, Option.any_some, Option.getD_some]
  simp only [decide_eq_true_eq]

/-- The blocks come back exactly if the message is one that survives. -/
theorem merged_view_iff (generateSignature : String) (blocks : List AnthropicBlock) :
    (thinkingOf generateSignature blocks ++
        attachFirst (plainCitations blocks) (mergeTexts (blocks.filterMap keep))).map view =
      (mergeTexts blocks).map view ↔ Survivable blocks := by
  have happend : ∀ first second : List AnthropicBlock,
      others (first ++ second) = others first ++ others second :=
    fun first second => List.filter_append first second
  constructor
  · intro heq
    have hothers := others_eq_of_view heq
    rw [happend, others_attachFirst, others_mergeTexts, others_mergeTexts, others_keep] at hothers
    by_cases hnone : thinkingOf generateSignature blocks = []
    · -- no thinking comes back
      rw [hnone, List.nil_append] at heq
      rw [hnone] at hothers
      have hkept := (others_iff blocks).mp hothers
      have hfits := (kept_iff blocks).mp hkept
      obtain ⟨hfirst, hplain⟩ := (kept_view_iff hkept).mp heq
      exact ⟨fun block hblock => (hfits block hblock).1,
        fun block hblock => (hfits block (List.mem_of_mem_tail hblock)).2, hplain, hfirst⟩
    · obtain ⟨reasoning, signature, hthinking⟩ :
          ∃ reasoning signature : String, thinkingOf generateSignature blocks =
            [.thinking reasoning (some signature)] := by
        unfold thinkingOf at hnone ⊢
        dsimp only at hnone ⊢
        split at hnone
        · rw [if_pos (by assumption)]
          exact ⟨_, _, rfl⟩
        · exact absurd rfl hnone
      rw [hthinking] at heq hothers
      -- it is the first block of the message
      obtain ⟨rest, rfl⟩ : ∃ rest : List AnthropicBlock,
          blocks = .thinking reasoning (some signature) :: rest := by
        cases blocks with
        | nil => exact absurd heq (by simp [mergeTexts])
        | cons block rest =>
            refine ⟨rest, congrArg (fun first => first :: rest) ?_⟩
            have hhead := congrArg List.head? heq
            by_cases htext : isText block = true
            · cases block with
              | text value citations =>
                  obtain ⟨merged, more, tail, hmerged⟩ : ∃ (merged : String) (more : List Json)
                      (tail : List AnthropicBlock),
                      mergeTexts (.text value citations :: rest) = .text merged more :: tail := by
                    show ∃ merged more tail, consText value citations (mergeTexts rest) = _
                    cases mergeTexts rest with
                    | nil => exact ⟨_, _, _, rfl⟩
                    | cons next tail => cases next <;> exact ⟨_, _, _, rfl⟩
                  rw [hmerged] at hhead
                  exact absurd hhead (by simp [view])
              | _ => exact absurd htext (by simp [isText])
            · rw [mergeTexts_other (Bool.eq_false_iff.mpr htext)] at hhead
              have hview : view (.thinking reasoning (some signature)) = view block :=
                Option.some.inj hhead
              cases block with
              | text value citations => exact absurd rfl htext
              | _ =>
                  injection hview with hblock
                  exact hblock.symm
      have hrest : rest.filterMap keepTool = others rest := by
        have htail := congrArg List.tail hothers
        exact htail
      have hkept := (others_iff rest).mp hrest
      have hfits := (kept_iff rest).mp hkept
      rw [thinkingOf_one generateSignature reasoning signature fun block hblock =>
        (hfits block hblock).2] at hthinking
      have hviews : (attachFirst (plainCitations rest) (mergeTexts (rest.filterMap keep))).map view =
          (mergeTexts rest).map view := congrArg List.tail heq
      obtain ⟨hfirst, hplain⟩ := (kept_view_iff hkept).mp hviews
      refine ⟨fun block hblock => ?_, fun block hblock => (hfits block hblock).2, hplain, hfirst⟩
      rcases List.mem_cons.mp hblock with rfl | hmem
      · split at hthinking
        · rename_i hne
          have hencoded : Base64.ensureEncoded signature = signature := by
            simpa using hthinking
          rw [hencoded] at hne
          exact ⟨signature, rfl, hencoded, hne⟩
        · exact absurd hthinking (by simp)
      · exact (hfits block hmem).1
  · intro hs
    cases blocks with
    | nil => rfl
    | cons block rest =>
        by_cases hthinking : isThinking block = true
        · cases block with
          | thinking reasoning signature =>
              obtain ⟨encoded, rfl, hencoded, hne⟩ := hs.fits _ List.mem_cons_self
              have hkept := (kept_iff rest).mpr fun block hblock =>
                ⟨hs.fits block (List.mem_cons_of_mem _ hblock), hs.thinkingFirst block hblock⟩
              rw [thinkingOf_one generateSignature reasoning encoded
                (show ∀ block ∈ rest, isThinking block = false from hs.thinkingFirst), hencoded,
                if_pos hne]
              exact congrArg (List.cons (view (.thinking reasoning (some encoded))))
                ((kept_view_iff hkept).mpr ⟨hs.citationsFirst, hs.citationsPlain⟩)
          | _ => exact absurd hthinking (by simp [isThinking])
        · -- no block is a thinking
          have hall : ∀ other ∈ block :: rest, isThinking other = false := by
            intro other hother
            rcases List.mem_cons.mp hother with rfl | hmem
            · exact Bool.eq_false_iff.mpr hthinking
            · exact hs.thinkingFirst other hmem
          have hkept := (kept_iff (block :: rest)).mpr fun other hother =>
            ⟨hs.fits other hother, hall other hother⟩
          rw [(thinkingOf_none generateSignature hall).2.2, List.nil_append]
          exact (kept_view_iff hkept).mpr ⟨hs.citationsFirst, hs.citationsPlain⟩

/-! ## Survival -/

/-- The message comes back with its content blocks, the adjacent texts merged, and with its
stop reason. -/
def Survives (fromStr : String → Option Json) (generateSignature : String) (message : Json)
    (blocks : List AnthropicBlock) : Prop :=
  let response := convertToAnthropicResponse fromStr generateSignature
    (convertAnthropicMessageToLlmResponse message)
  (∃ back : List AnthropicBlock, contentOf response = some back ∧
      (mergeTexts back).map view = (mergeTexts blocks).map view) ∧
    strField response "stop_reason" = strField message "stop_reason"

/-- The stop reasons that become another one. -/
def lostStopReasons : List String := ["stop_sequence", "stop", "length", "tool_calls", "function_call"]

theorem stopReason_kept_iff (reason : String) :
    stopReasonOf (AnthropicStreamReducer.mapAnthropicStopReason reason) = reason ↔
      reason ∉ lostStopReasons := by
  unfold stopReasonOf AnthropicStreamReducer.mapAnthropicStopReason lostStopReasons
  by_cases hend : reason = "end_turn"
  · simp [hend]
  · by_cases hmax : reason = "max_tokens"
    · simp [hmax]
    · by_cases htool : reason = "tool_use"
      · simp [htool]
      · simp only [hend, hmax, htool, false_or, if_false]
        by_cases hsequence : reason = "stop_sequence"
        · simp [hsequence]
        · simp only [hsequence, if_false]
          split
          · rename_i h; simp [h]
          · split
            · rename_i h; simp [h]
            · split
              · rename_i h; rcases h with h | h <;> simp [h]
              · simp_all

theorem content_survives_iff {fromStr : String → Option Json} {message : Json}
    {blocks : List AnthropicBlock} (generateSignature : String)
    (hcontent : message.get "content" = some (.array (blocks.map toJson)))
    (hwell : ∀ block ∈ blocks, block.WellFormed) (hread : ReadsInputs fromStr blocks) :
    (∃ back : List AnthropicBlock,
      contentOf (convertToAnthropicResponse fromStr generateSignature
        (convertAnthropicMessageToLlmResponse message)) = some back ∧
      (mergeTexts back).map view = (mergeTexts blocks).map view) ↔ Survivable blocks := by
  rw [contentOf_response generateSignature hcontent hwell hread]
  refine Iff.trans ?_ (merged_view_iff generateSignature blocks)
  rw [← merged_response generateSignature _ hwell]
  constructor
  · rintro ⟨back, hback, hview⟩
    rw [Option.some.inj hback]
    exact hview
  · intro hview
    exact ⟨_, rfl, hview⟩

theorem response_survives_iff (fromStr : String → Option Json) (generateSignature : String)
    (message : Json) (blocks : List AnthropicBlock)
    (hcontent : message.get "content" = some (.array (blocks.map toJson)))
    (hwell : ∀ block ∈ blocks, block.WellFormed) (hread : ReadsInputs fromStr blocks) :
    Survives fromStr generateSignature message blocks ↔
      Survivable blocks ∧
        ∀ reason : String, strField message "stop_reason" = some reason →
          reason ∉ lostStopReasons := by
  refine and_congr (content_survives_iff generateSignature hcontent hwell hread) ?_
  rw [stopReason_response]
  cases strField message "stop_reason" with
  | none => simp
  | some reason => simpa using stopReason_kept_iff reason

/-- A message of a thinking, a text and a call of a server-side tool. -/
def sampleBlocks : List AnthropicBlock :=
  [.thinking "plan" (some "c2lnIQ=="), .text "Searching" [],
    .toolUse "server_tool_use" "srvtoolu_1" "web_search" (.object []) none]

def sampleMessage : Json :=
  .object [("stop_reason", .string "pause_turn"), ("content", .array (sampleBlocks.map toJson))]

theorem response_survives_sample :
    Survives (fun text => if text = "{}" then some (.object []) else none) "" sampleMessage
      sampleBlocks := by
  refine (response_survives_iff _ _ _ _ rfl ?_ ?_).mpr ⟨⟨?_, ?_, ?_, ?_⟩, ?_⟩
  · intro block hblock
    simp only [sampleBlocks, List.mem_cons, List.not_mem_nil, or_false] at hblock
    rcases hblock with rfl | rfl | rfl
    · trivial
    · exact show "Searching" ≠ "" by decide
    · exact ⟨by decide, by decide, by decide⟩
  · intro blockType id name input caller hmem
    simp only [sampleBlocks, List.mem_cons, List.not_mem_nil, or_false, reduceCtorEq, false_or,
      AnthropicBlock.toolUse.injEq] at hmem
    obtain ⟨rfl, rfl, rfl, rfl, rfl⟩ := hmem
    have hrender : (Json.object []).render = "{}" := by decide
    refine ⟨by decide, ?_⟩
    dsimp only
    rw [hrender]
    exact if_pos rfl
  · intro block hblock
    simp only [sampleBlocks, List.mem_cons, List.not_mem_nil, or_false] at hblock
    rcases hblock with rfl | rfl | rfl
    · exact ⟨_, rfl, by decide, .inl (by decide)⟩
    · trivial
    · exact ⟨by decide, fun value hvalue => absurd hvalue (by simp)⟩
  · intro block hblock
    simp only [sampleBlocks, List.tail_cons, List.mem_cons, List.not_mem_nil, or_false] at hblock
    rcases hblock with rfl | rfl <;> rfl
  · intro citation hcitation
    exact absurd hcitation (List.not_mem_nil)
  · intro block hblock
    exact absurd hblock (List.not_mem_nil)
  · intro reason hreason
    rw [← Option.some.inj (show some "pause_turn" = some reason from hreason)]
    decide

/-- A redacted thinking is lost, whatever the library reads. -/
theorem redacted_thinking_lost :
    ¬ ∀ (fromStr : String → Option Json) (generateSignature : String),
      Survives fromStr generateSignature
        (.object [("content", .array ([.redactedThinking "c2VjcmV0", .text "Hi" []].map toJson))])
        [.redactedThinking "c2VjcmV0", .text "Hi" []] := by
  intro hall
  have hwell : ∀ block ∈ [AnthropicBlock.redactedThinking "c2VjcmV0", .text "Hi" []],
      block.WellFormed := by
    intro block hblock
    simp only [List.mem_cons, List.not_mem_nil, or_false] at hblock
    rcases hblock with rfl | rfl
    · trivial
    · exact show "Hi" ≠ "" by decide
  have hread : ReadsInputs (fun _ => none) [.redactedThinking "c2VjcmV0", .text "Hi" []] := by
    intro blockType id name input caller hmem
    exact absurd hmem (by simp)
  exact ((content_survives_iff "" rfl hwell hread).mp (hall _ "").1).fits _ List.mem_cons_self

end Conduit.Transformers.AnthropicResponse
