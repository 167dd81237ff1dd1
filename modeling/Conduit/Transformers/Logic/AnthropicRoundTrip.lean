import Conduit.Transformers.Logic.AnthropicResponse
import Mathlib

/-!
# What survives the unified response

The response has the thinking, the blocks that came out of the slots, and on its
first text every citation (`contentOf_response`). The round trip is therefore an
identity of typed blocks, which is decided block by block: those that are not
texts by their forms (`others_eq`), the texts by their citations
(`attach_strip_iff`).
-/

namespace Conduit.Transformers.AnthropicResponse

open Base Base.Json Base.Text Anthropic AnthropicBlock

/-! ## The typed way back -/

/-- The thinking that comes back: the last reasoning with the last signature. -/
def thinkingOf (generateSignature : String) (blocks : List AnthropicBlock) : List AnthropicBlock :=
  let reasoning := (blocks.filterMap reasoningOf).getLast?
  let signature := (blocks.filterMap signatureOf).getLast?
  if (reasoning.any fun text => text ≠ "") ∨ (signature.any fun text => text ≠ "") then
    [.thinking (reasoning.getD "") (some (signature.getD generateSignature))]
  else []

/-- The citation that an annotation becomes. -/
def plainCitation (citation : Json) : Json :=
  let citationType := (strField citation "type").getD "url_citation"
  .object
    ([("type", .string (if citationType = "" then "web_search_result_location" else citationType))] ++
      optionalField "url" ((strField citation "url").map .string) ++
      optionalField "title" ((strField citation "title").map .string))

/-- The first text gets the citations. -/
def attachFirst (citations : List Json) : List AnthropicBlock → List AnthropicBlock
  | [] => []
  | .text value _ :: blocks => .text value citations :: blocks
  | block :: blocks => block :: attachFirst citations blocks

/-- A text without its citations. -/
def strip : AnthropicBlock → AnthropicBlock
  | .text value _ => .text value []
  | block => block

/-! ## The blocks of the response -/

section Blocks

variable {fromStr : String → Option Json} {blocks : List AnthropicBlock}

theorem slots_perm (hwell : ∀ block ∈ blocks, block.WellFormed) (hread : ReadsInputs fromStr blocks) :
    (blocks.zipIdx.filterMap (callEntry fromStr) ++ blocks.zipIdx.filterMap resultEntry).Perm
        (blocks.zipIdx.filterMap fun entry =>
          (keepTool entry.1).map fun block => ((entry.2 : Int), block.toJson)) ∧
      (blocks.zipIdx.filterMap textEntry ++ (blocks.zipIdx.filterMap (callEntry fromStr) ++
          blocks.zipIdx.filterMap resultEntry)).Perm
        (blocks.zipIdx.filterMap fun entry =>
          (keep entry.1).map fun block => ((entry.2 : Int), block.toJson)) := by
  have hor := fun (entry : AnthropicBlock × Nat) (hentry : entry ∈ blocks.zipIdx) =>
    have hmem := List.fst_mem_of_mem_zipIdx hentry
    entries_or hread hmem (hwell _ hmem)
  have htools := filterMap_or_perm fun entry hentry => (hor entry hentry).2.2.1
  have hall := filterMap_or_perm fun entry hentry => (hor entry hentry).2.2.2
  refine ⟨htools.trans (List.Perm.of_eq (List.filterMap_congr fun entry hentry =>
    (hor entry hentry).1)), ?_⟩
  refine (htools.append_left _).trans (hall.trans (List.Perm.of_eq ?_))
  exact List.filterMap_congr fun entry hentry => (hor entry hentry).2.1

/-- The slots in the message, and what they come to on the way back. -/
theorem slots_entries (hwell : ∀ block ∈ blocks, block.WellFormed) :
    (collect (blocks.map toJson)).contentParts.filterMap partBlock =
        blocks.zipIdx.filterMap textEntry ∧
      (collect (blocks.map toJson)).toolCalls.map (toolCallBlock fromStr) =
        blocks.zipIdx.filterMap (callEntry fromStr) ∧
      ((collect (blocks.map toJson)).inlineToolResults.filterMap fun result =>
        (toolResultBlockFromInline result).map fun block =>
          (getBlockIndex result.transformerMetadata, block)) =
        blocks.zipIdx.filterMap resultEntry := by
  rw [collect_toJson hwell]
  refine ⟨?_, ?_, ?_⟩
  · exact List.filterMap_filterMap
  · exact List.map_filterMap
  · exact List.filterMap_filterMap

/-- The content, the calls and the results come to the body. -/
theorem body_eq (hwell : ∀ block ∈ blocks, block.WellFormed) (hread : ReadsInputs fromStr blocks)
    {message : LlmMessage} (hcontent : message.content = (collect (blocks.map toJson)).content)
    (hcalls : message.toolCalls = (collect (blocks.map toJson)).toolCalls)
    (hresults : message.inlineToolResults = (collect (blocks.map toJson)).inlineToolResults) :
    leadingBlocks message ++ (sortOrderedBlocks (orderedBlocks fromStr message)).map OrderedBlock.block =
      (body blocks).map toJson := by
  obtain ⟨htools, hall⟩ := slots_perm hwell hread
  obtain ⟨hpartEntries, hcallEntries, hresultEntries⟩ := @slots_entries fromStr blocks hwell
  have htexts : (collect (blocks.map toJson)).textParts = blocks.filterMap textOf := by
    rw [collect_toJson hwell]
  unfold leadingBlocks orderedBlocks contentPartBlocks body
  rw [hcontent, hcalls, hresults, hcallEntries, hresultEntries]
  rcases content_cases (collect (blocks.map toJson)) with ⟨htext, hne, -⟩ | hparts | ⟨hnone, hparts⟩
  · -- one text: only the tool blocks are sorted
    have hjoin : String.join (collect (blocks.map toJson)).textParts ≠ "" := by
      refine join_ne_empty hne fun text htext => ?_
      rw [htexts] at htext
      obtain ⟨block, hblock, htextOf⟩ := List.mem_filterMap.mp htext
      cases block with
      | text value citations =>
          rw [← Option.some.inj htextOf]
          exact hwell _ hblock
      | _ => exact absurd htextOf (by simp [textOf])
    rw [htext]
    dsimp only
    rw [if_neg hjoin, List.nil_append, sort_kept keepTool htools]
    rfl
  · rw [hparts]
    dsimp only
    rw [hpartEntries, List.nil_append, List.append_assoc, sort_kept keep hall]
  · -- no part: the entries of the texts are none
    rw [hparts, List.filterMap_nil] at hpartEntries
    rw [← hpartEntries] at hall
    rw [hnone]
    dsimp only
    rw [List.nil_append, List.append_assoc, sort_kept keep hall]

theorem messageBlocks_eq {message : Json} (generateSignature : String)
    (hcontent : message.get "content" = some (.array (blocks.map toJson)))
    (hwell : ∀ block ∈ blocks, block.WellFormed) (hread : ReadsInputs fromStr blocks) :
    messageBlocks fromStr generateSignature
        (convertAnthropicMessageToLlmResponse message).message.toLlmMessage =
      (thinkingOf generateSignature blocks ++ body blocks).map toJson := by
  have hbody := @body_eq fromStr blocks hwell hread
    (convertAnthropicMessageToLlmResponse message).message.toLlmMessage
  unfold convertAnthropicMessageToLlmResponse at hbody ⊢
  rw [hcontent, show (((some (Json.array (blocks.map toJson))).bind asArray).getD []) =
    blocks.map toJson from rfl] at hbody ⊢
  unfold messageBlocks
  rw [List.append_assoc, hbody rfl rfl rfl, List.map_append, List.append_cancel_right_eq]
  unfold thinkingBlocks thinkingOf redactedBlocks
  rw [collect_toJson hwell]
  dsimp only
  rw [show (none : Option String).filter (fun data => decide (data ≠ "")) = none from rfl]
  by_cases hany : ((blocks.filterMap reasoningOf).getLast?.any fun text => text ≠ "") = true ∨
      ((blocks.filterMap signatureOf).getLast?.any fun text => text ≠ "") = true
  · rw [if_pos hany, if_pos hany]
    rfl
  · rw [if_neg hany, if_neg hany]
    rfl

/-! ## Citations -/

theorem citationFromAnnotation_plain (citation : Json) :
    citationFromAnnotation (llmAnnotationFromCitation citation) [] = some (plainCitation citation) := by
  unfold citationFromAnnotation llmAnnotationFromCitation plainCitation
  dsimp only [Option.getD_some, Option.bind_some]
  rw [if_neg (by simp), show hasOpenaiResponsesWebSearchCalls [] = false from rfl]
  simp only [Bool.false_eq_true, and_false, or_false]

/-- A block that is no text has another type. -/
theorem type_ne_text {block : AnthropicBlock} (hwell : block.WellFormed) (htext : isText block = false) :
    strField block.toJson "type" ≠ some "text" := by
  have htype : ∀ blockType : String, blockType ≠ "text" → some blockType ≠ some "text" :=
    fun blockType h heq => h (Option.some.inj heq)
  cases block with
  | text value citations => exact absurd htext (by simp [isText])
  | thinking reasoning signature => exact htype "thinking" (by decide)
  | redactedThinking data => exact htype "redacted_thinking" (by decide)
  | image source => exact htype "image" (by decide)
  | toolUse blockType id name input caller =>
      exact htype blockType (isAnthropicToolUseLike_ne hwell.1 (by decide))
  | toolResult blockType toolUseId content isError caller =>
      exact htype blockType (endsWith_ne hwell.1 (by decide))

theorem attachToFirstText_toJson {citations : List Json} (hne : citations ≠ [])
    {blocks : List AnthropicBlock} (hwell : ∀ block ∈ blocks, block.WellFormed)
    (hnone : ∀ block ∈ blocks, block.citationsOf = []) (htext : ∃ block ∈ blocks, isText block = true) :
    attachToFirstText citations (blocks.map toJson) = some ((attachFirst citations blocks).map toJson) := by
  induction blocks with
  | nil =>
      obtain ⟨block, hblock, -⟩ := htext
      exact absurd hblock (List.not_mem_nil)
  | cons block blocks ih =>
      rw [List.map_cons]
      unfold attachToFirstText
      by_cases hfirst : isText block = true
      · cases block with
        | text value old =>
            have hold : old = [] := hnone _ List.mem_cons_self
            subst hold
            rw [if_pos (show strField (toJson (.text value [])) "type" = some "text" from rfl)]
            have hmerged : citations.filter (fun citation => citationKey citation ∉
                ([] : List Json).map citationKey) = citations := by simp
            have hexisting : (((toJson (.text value [])).get "citations").bind asArray).getD [] = [] := rfl
            have htoJson : toJson (.text value citations) =
                .object [("type", .string "text"), ("text", .string value),
                  ("citations", .array citations)] := by
              unfold toJson nonEmptyList
              dsimp only
              rw [if_neg (by simpa using hne)]
              rfl
            unfold attachFirst
            dsimp only
            rw [hexisting, hmerged, List.nil_append, List.map_cons, htoJson]
            rfl
        | _ => exact absurd hfirst (by simp [isText])
      · rw [if_neg (type_ne_text (hwell _ List.mem_cons_self) (Bool.eq_false_iff.mpr hfirst)),
          ih (fun other hother => hwell other (List.mem_cons_of_mem _ hother))
            (fun other hother => hnone other (List.mem_cons_of_mem _ hother)) ?_]
        · cases block with
          | text value old => exact absurd rfl hfirst
          | _ => rfl
        · obtain ⟨other, hother, hisText⟩ := htext
          rcases List.mem_cons.mp hother with rfl | hmem
          · exact absurd hisText hfirst
          · exact ⟨other, hmem, hisText⟩

/-! ## Reading the response -/

theorem keep_wellFormed {block kept : AnthropicBlock} (hwell : block.WellFormed)
    (hkeep : keep block = some kept) : kept.WellFormed ∧ kept.citationsOf = [] := by
  cases block with
  | text value citations => obtain rfl := Option.some.inj hkeep; exact ⟨hwell, rfl⟩
  | toolUse blockType id name input caller => obtain rfl := Option.some.inj hkeep; exact ⟨hwell, rfl⟩
  | toolResult blockType toolUseId content isError caller =>
      obtain rfl := Option.some.inj hkeep
      exact ⟨hwell, rfl⟩
  | _ => exact absurd hkeep (by simp [keep])

theorem keepTool_some {block kept : AnthropicBlock} (hkeep : keepTool block = some kept) :
    isText block = false ∧ keep block = some kept := by
  unfold keepTool at hkeep
  by_cases htext : isText block = true
  · rw [if_pos htext] at hkeep
    exact absurd hkeep (by simp)
  · rw [if_neg htext] at hkeep
    exact ⟨Bool.eq_false_iff.mpr htext, hkeep⟩

/-- The two forms of the body. -/
theorem body_cases (hwell : ∀ block ∈ blocks, block.WellFormed) :
    (blocks.filterMap textOf ≠ [] ∧ (collect (blocks.map toJson)).safe = true ∧
        body blocks = .text (String.join (blocks.filterMap textOf)) [] :: blocks.filterMap keepTool) ∨
      body blocks = blocks.filterMap keep := by
  have htexts : (collect (blocks.map toJson)).textParts = blocks.filterMap textOf := by
    rw [collect_toJson hwell]
  unfold body
  rcases content_cases (collect (blocks.map toJson)) with ⟨htext, hne, hsafe⟩ | hparts | ⟨hnone, -⟩
  · rw [htext, ← htexts]
    exact .inl ⟨hne, hsafe, rfl⟩
  · rw [hparts]
    exact .inr rfl
  · rw [hnone]
    exact .inr rfl

/-- The blocks that come back are well-formed and have no citations of their own. -/
theorem body_wellFormed (hwell : ∀ block ∈ blocks, block.WellFormed) :
    ∀ block ∈ body blocks, block.WellFormed ∧ block.citationsOf = [] := by
  intro kept hkept
  rcases body_cases hwell with ⟨hne, -, hbody⟩ | hbody
  · rw [hbody] at hkept
    rcases List.mem_cons.mp hkept with rfl | hkept
    · refine ⟨join_ne_empty hne fun text htext => ?_, rfl⟩
      obtain ⟨block, hblock, htextOf⟩ := List.mem_filterMap.mp htext
      cases block with
      | text value citations =>
          rw [← Option.some.inj htextOf]
          exact hwell _ hblock
      | _ => exact absurd htextOf (by simp [textOf])
    · obtain ⟨block, hblock, hkeep⟩ := List.mem_filterMap.mp hkept
      exact keep_wellFormed (hwell block hblock) (keepTool_some hkeep).2
  · rw [hbody] at hkept
    obtain ⟨block, hblock, hkeep⟩ := List.mem_filterMap.mp hkept
    exact keep_wellFormed (hwell block hblock) hkeep

/-- Where there is a text, one comes back. -/
theorem body_text (hwell : ∀ block ∈ blocks, block.WellFormed) {value : String}
    {citations : List Json} (hmem : .text value citations ∈ blocks) :
    ∃ block ∈ body blocks, isText block = true := by
  rcases body_cases hwell with ⟨-, -, hbody⟩ | hbody
  · rw [hbody]
    exact ⟨_, List.mem_cons_self, rfl⟩
  · rw [hbody]
    exact ⟨.text value [], List.mem_filterMap.mpr ⟨_, hmem, rfl⟩, rfl⟩

theorem thinkingOf_mem {generateSignature : String} {block : AnthropicBlock}
    (h : block ∈ thinkingOf generateSignature blocks) :
    ∃ reasoning : String, ∃ signature : String, block = .thinking reasoning (some signature) := by
  unfold thinkingOf at h
  dsimp only at h
  split at h
  · exact ⟨_, _, List.mem_singleton.mp h⟩
  · exact absurd h (List.not_mem_nil)

theorem read_toJson {block : AnthropicBlock} (hwell : block.WellFormed) :
    AnthropicBlock.read block.toJson = some block := by
  unfold AnthropicBlock.read
  cases block with
  | text value citations =>
      rw [citations_toJson]
      rfl
  | thinking reasoning signature =>
      rw [signature_toJson]
      rfl
  | redactedThinking data => rfl
  | image source => rfl
  | toolUse blockType id name input caller =>
      have hlike := hwell.1
      dsimp only
      rw [show strOr (toJson (.toolUse blockType id name input caller)) "type" = blockType from rfl,
        if_neg (isAnthropicToolUseLike_ne hlike (by decide)),
        if_neg (isAnthropicToolUseLike_ne hlike (by decide)),
        if_neg (isAnthropicToolUseLike_ne hlike (by decide)),
        if_neg (isAnthropicToolUseLike_ne hlike (by decide)), if_pos hlike, caller_toJson]
      rfl
  | toolResult blockType toolUseId content isError caller =>
      have hends := hwell.1
      have hid : strOr (toJson (.toolResult blockType toolUseId content isError caller))
          "tool_use_id" = toolUseId := by
        unfold strOr strField
        rw [get_toolResult]
        rfl
      have herror : (((toJson (.toolResult blockType toolUseId content isError caller)).get
          "is_error").bind asBool).getD false = isError := by
        rw [get_toolResult]
        cases isError <;> rfl
      dsimp only
      rw [show strOr (toJson (.toolResult blockType toolUseId content isError caller)) "type" =
          blockType from rfl,
        if_neg (endsWith_ne hends (by decide)), if_neg (endsWith_ne hends (by decide)),
        if_neg (endsWith_ne hends (by decide)), if_neg (endsWith_ne hends (by decide)),
        if_neg (by simp [not_isAnthropicToolUseLike hends]),
        if_pos (isAnthropicToolResultLike_of_endsWith hends), hid, herror, get_toolResult,
        get_toolResult]
      rfl

theorem mapM_read {blocks : List AnthropicBlock} (hwell : ∀ block ∈ blocks, block.WellFormed) :
    (blocks.map toJson).mapM AnthropicBlock.read = some blocks := by
  induction blocks with
  | nil => rfl
  | cons block blocks ih =>
      rw [List.map_cons, List.mapM_cons, read_toJson (hwell block List.mem_cons_self),
        ih fun other hother => hwell other (List.mem_cons_of_mem _ hother)]
      rfl

theorem attachFirst_wellFormed {citations : List Json} {blocks : List AnthropicBlock}
    (hwell : ∀ block ∈ blocks, block.WellFormed) :
    ∀ block ∈ attachFirst citations blocks, block.WellFormed := by
  induction blocks with
  | nil => exact hwell
  | cons block blocks ih =>
      have hrest := ih fun other hother => hwell other (List.mem_cons_of_mem _ hother)
      intro other hother
      have hfirst := hwell block List.mem_cons_self
      cases block with
      | text value old =>
          rcases List.mem_cons.mp hother with rfl | hother
          · exact hfirst
          · exact hwell other (List.mem_cons_of_mem _ hother)
      | _ =>
          rcases List.mem_cons.mp hother with rfl | hother
          · exact hfirst
          · exact hrest other hother

theorem attachFirst_nil {blocks : List AnthropicBlock}
    (hnone : ∀ block ∈ blocks, block.citationsOf = []) : attachFirst [] blocks = blocks := by
  induction blocks with
  | nil => rfl
  | cons block blocks ih =>
      have hrest := ih fun other hother => hnone other (List.mem_cons_of_mem _ hother)
      cases block with
      | text value old =>
          have hold : old = [] := hnone _ List.mem_cons_self
          rw [hold]
          rfl
      | _ => exact congrArg _ hrest

/-- The citations that come back: those of every text, as far as an annotation holds them. -/
def plainCitations (blocks : List AnthropicBlock) : List Json :=
  (blocks.flatMap citationsOf).map plainCitation

/-- The content of the response, as typed blocks. -/
theorem contentOf_response {message : Json} (generateSignature : String)
    (hcontent : message.get "content" = some (.array (blocks.map toJson)))
    (hwell : ∀ block ∈ blocks, block.WellFormed) (hread : ReadsInputs fromStr blocks) :
    contentOf (convertToAnthropicResponse fromStr generateSignature
        (convertAnthropicMessageToLlmResponse message)) =
      some (attachFirst (plainCitations blocks)
        (thinkingOf generateSignature blocks ++ body blocks)) := by
  have hback : ∀ block ∈ thinkingOf generateSignature blocks ++ body blocks,
      block.WellFormed ∧ block.citationsOf = [] := by
    intro block hblock
    rcases List.mem_append.mp hblock with hthinking | hbody
    · obtain ⟨reasoning, signature, rfl⟩ := thinkingOf_mem hthinking
      exact ⟨trivial, rfl⟩
    · exact body_wellFormed hwell block hbody
  have hannotations : ((convertAnthropicMessageToLlmResponse message).message.annotations.filterMap
      fun annotation => citationFromAnnotation annotation []) = plainCitations blocks := by
    unfold convertAnthropicMessageToLlmResponse
    rw [hcontent, show (((some (Json.array (blocks.map toJson))).bind asArray).getD []) =
      blocks.map toJson from rfl]
    dsimp only
    rw [collect_toJson hwell, List.filterMap_map]
    unfold plainCitations
    rw [← List.filterMap_eq_map]
    exact List.filterMap_congr fun citation _ => citationFromAnnotation_plain citation
  have hmerged : mergeResponseContentBlocks
      (messageBlocks fromStr generateSignature
        (convertAnthropicMessageToLlmResponse message).message.toLlmMessage)
      (convertAnthropicMessageToLlmResponse message).transformerMetadata
      (convertAnthropicMessageToLlmResponse message).message.annotations =
      (attachFirst (plainCitations blocks)
        (thinkingOf generateSignature blocks ++ body blocks)).map toJson := by
    unfold mergeResponseContentBlocks
    rw [show field (convertAnthropicMessageToLlmResponse message).transformerMetadata
      responseContentKey = none from rfl]
    dsimp only
    unfold attachCitationsToFirstTextBlock
    rw [show (convertAnthropicMessageToLlmResponse message).transformerMetadata = [] from rfl,
      hannotations, messageBlocks_eq generateSignature hcontent hwell hread]
    dsimp only
    by_cases hempty : plainCitations blocks = []
    · rw [hempty, if_pos (show ([] : List Json).isEmpty = true from rfl), attachFirst_nil fun block hblock => (hback block hblock).2]
    · -- a citation stands on a text, and a text comes back
      have htext : ∃ block ∈ thinkingOf generateSignature blocks ++ body blocks,
          isText block = true := by
        obtain ⟨citation, hcitation⟩ := List.exists_mem_of_ne_nil _ hempty
        obtain ⟨original, horiginal, -⟩ := List.mem_map.mp hcitation
        obtain ⟨block, hblock, hof⟩ := List.mem_flatMap.mp horiginal
        cases block with
        | text value citations =>
            obtain ⟨kept, hkept, hisText⟩ := body_text hwell hblock
            exact ⟨kept, List.mem_append_right _ hkept, hisText⟩
        | _ => exact absurd hof (List.not_mem_nil)
      rw [if_neg (by simpa using hempty), attachToFirstText_toJson hempty
        (fun block hblock => (hback block hblock).1) (fun block hblock => (hback block hblock).2) htext,
        Option.getD_some]
  have hfield : (convertToAnthropicResponse fromStr generateSignature
      (convertAnthropicMessageToLlmResponse message)).get "content" =
        some (.array ((attachFirst (plainCitations blocks)
          (thinkingOf generateSignature blocks ++ body blocks)).map toJson)) := by
    unfold convertToAnthropicResponse
    rw [hmerged, get_object, field_append, field_append, field_append, field_optionalField,
      field_optionalField]
    simp
  unfold contentOf
  rw [hfield]
  exact mapM_read (attachFirst_wellFormed fun block hblock => (hback block hblock).1)

/-- The stop reason of the response. -/
theorem stopReason_response (message : Json) (generateSignature : String) :
    strField (convertToAnthropicResponse fromStr generateSignature
        (convertAnthropicMessageToLlmResponse message)) "stop_reason" =
      (strField message "stop_reason").map fun reason =>
        stopReasonOf (AnthropicStreamReducer.mapAnthropicStopReason reason) := by
  unfold convertToAnthropicResponse
  rw [strField, get_object, field_append, field_append, field_append, field_optionalField,
    field_optionalField]
  unfold convertAnthropicMessageToLlmResponse
  cases strField message "stop_reason" <;> simp

end Blocks

end Conduit.Transformers.AnthropicResponse
