import Conduit.Base.Sieve
import Conduit.Transformers.AnthropicResponse
import Mathlib

/-!
# Anthropic messages, there and back

The loop over the content blocks adds to the slots what each block holds
(`collect_toJson`); the way back restores the order of the blocks that kept a
slot (`messageBlocks_eq`). So the blocks that come back are the ones that went
in, each in the form its slot can hold.
-/

namespace Conduit.Transformers.AnthropicResponse

open Base Base.Json Base.Text Anthropic

/-! ## Block types -/

section Types

variable {blockType : String}

theorem isAnthropicToolUseLike_ne (h : isAnthropicToolUseLike blockType = true) {other : String}
    (hother : isAnthropicToolUseLike other = false) : blockType ≠ other := by
  rintro rfl
  rw [h] at hother
  exact absurd hother (by decide)

theorem endsWith_ne {suffix other : String} (h : endsWith blockType suffix = true)
    (hother : endsWith other suffix = false) : blockType ≠ other := by
  rintro rfl
  rw [h] at hother
  exact absurd hother (by decide)

/-- The type of a result is no type of a call. -/
theorem not_isAnthropicToolUseLike (h : endsWith blockType "_tool_result" = true) :
    isAnthropicToolUseLike blockType = false := by
  unfold isAnthropicToolUseLike
  rw [Bool.or_eq_false_iff]
  refine ⟨decide_eq_false (endsWith_ne h (by decide)), Bool.eq_false_iff.mpr fun huse => ?_⟩
  unfold endsWith at h huse
  have hsuffix := List.suffix_of_suffix_length_le (List.isSuffixOf_iff_suffix.mp huse)
    (List.isSuffixOf_iff_suffix.mp h) (by decide)
  exact absurd (List.isSuffixOf_iff_suffix.mpr hsuffix) (by decide)

theorem isAnthropicToolResultLike_of_endsWith (h : endsWith blockType "_tool_result" = true) :
    isAnthropicToolResultLike blockType = true := by
  unfold isAnthropicToolResultLike
  rw [h, Bool.or_true]

theorem isAnthropicSpecialBlock_result (h : endsWith blockType "_tool_result" = true) :
    isAnthropicSpecialBlock blockType = true := by
  unfold isAnthropicSpecialBlock
  rw [h, decide_eq_true (endsWith_ne h (by decide) : blockType ≠ "tool_result"),
    Bool.and_true, Bool.or_true]

/-- A call of another type than the plain one is that of a server-side tool. -/
theorem isAnthropicSpecialBlock_use (h : isAnthropicToolUseLike blockType = true)
    (hplain : blockType ≠ "tool_use") : isAnthropicSpecialBlock blockType = true := by
  unfold isAnthropicToolUseLike at h
  rw [Bool.or_eq_true, decide_eq_true_iff] at h
  have hends := h.resolve_left hplain
  unfold isAnthropicSpecialBlock
  rw [hends, decide_eq_true hplain, Bool.and_true, Bool.true_or]

end Types

/-! ## The slots -/

namespace AnthropicBlock

def textOf : AnthropicBlock → Option String
  | text value _ => some value
  | _ => none

def citationsOf : AnthropicBlock → List Json
  | text _ citations => citations
  | _ => []

def reasoningOf : AnthropicBlock → Option String
  | thinking reasoning _ => some reasoning
  | _ => none

def signatureOf : AnthropicBlock → Option String
  | thinking _ signature => signature.map Base64.ensureEncoded
  | _ => none

def partOf (block : AnthropicBlock) (index : Nat) : Option ContentPart :=
  match block with
  | text value _ =>
      some { partType := "text", text := some value, extra := setAnthropicBlockIndex [] index }
  | image source =>
      some { partType := "image", imageUrl := some (.object [("url", .string (strOr source "data"))]) }
  | _ => none

/-- The metadata of a call: that of a plain one is its index. -/
def callExtra (blockType : String) (caller : Option Json) (index : Nat) : ExtensionMap :=
  if blockType = "tool_use" then setAnthropicBlockIndex [] index
  else setAnthropicSpecialMeta (setAnthropicBlockIndex [] index) blockType caller

def callOf (block : AnthropicBlock) (index : Nat) : Option ToolCall :=
  match block with
  | toolUse blockType id name input caller =>
      some
        { id := some id
          callType := "function"
          function := .object [("name", .string name), ("arguments", .string input.render)]
          extra := callExtra blockType caller index }
  | _ => none

def resultOf (block : AnthropicBlock) (index : Nat) : Option InlineToolResult :=
  match block with
  | toolResult blockType toolUseId content isError caller =>
      some
        { toolCallId := some toolUseId
          output := inlineOutput content
          isError
          transformerMetadata :=
            setAnthropicSpecialMeta (setAnthropicBlockIndex [] index) blockType caller }
  | _ => none

end AnthropicBlock

open AnthropicBlock

/-- What a block adds to the slots. -/
def Collected.add (c : Collected) (index : Nat) (block : AnthropicBlock) : Collected where
  textParts := c.textParts ++ block.textOf.toList
  toolCalls := c.toolCalls ++ (block.callOf index).toList
  reasoningContent := block.reasoningOf.or c.reasoningContent
  reasoningSignature := block.signatureOf.or c.reasoningSignature
  annotations := c.annotations ++ block.citationsOf.map llmAnnotationFromCitation
  inlineToolResults := c.inlineToolResults ++ (block.resultOf index).toList
  contentParts := c.contentParts ++ (block.partOf index).toList

theorem asArray_nonEmptyList (name : String) (values : List Json) :
    ((field (nonEmptyList name values) name).bind asArray).getD [] = values := by
  unfold nonEmptyList
  cases values with
  | nil => rfl
  | cons value values =>
      rw [if_neg (by simp), field_cons, if_pos rfl]
      rfl

theorem field_optionalField (name other : String) (value : Option Json) :
    field (optionalField name value) other = if other = name then value else none := by
  unfold optionalField
  cases value with
  | none => simp
  | some value => simp

/-! The fields of a block. -/

theorem citations_toJson (value : String) (citations : List Json) :
    (((toJson (.text value citations)).get "citations").bind asArray).getD [] = citations := by
  unfold toJson
  rw [get_object, field_append]
  simpa using asArray_nonEmptyList "citations" citations

theorem signature_toJson (reasoning : String) (signature : Option String) :
    strField (toJson (.thinking reasoning signature)) "signature" = signature := by
  unfold toJson strField
  rw [get_object, field_append, field_optionalField]
  cases signature <;> simp

theorem caller_toJson (blockType id name : String) (input : Json) (caller : Option Json) :
    (toJson (.toolUse blockType id name input caller)).get "caller" = caller := by
  unfold toJson
  rw [get_object, field_append, field_optionalField]
  simp

theorem get_toolResult (blockType toolUseId : String) (content : Option Json) (isError : Bool)
    (caller : Option Json) (name : String) :
    (toJson (.toolResult blockType toolUseId content isError caller)).get name =
      if name = "type" then some (.string blockType)
      else if name = "caller" then caller
      else if name = "tool_use_id" then some (.string toolUseId)
      else if name = "is_error" then (if isError then some (.bool true) else none)
      else if name = "content" then content else none := by
  unfold toJson
  rw [get_object, field_append, field_append, field_append, field_append, field_optionalField,
    field_optionalField]
  cases isError <;> cases caller <;> simp <;> grind

/-- The step lemma: one turn of the loop adds what the block holds. -/
theorem Collected.block_toJson (c : Collected) (index : Nat) {block : AnthropicBlock}
    (h : block.WellFormed) : c.block index block.toJson = c.add index block := by
  unfold Collected.block
  cases block with
  | text value citations =>
      have htype : strOr (toJson (.text value citations)) "type" = "text" := rfl
      dsimp only
      rw [htype, if_pos rfl]
      unfold Collected.text
      rw [citations_toJson, show strField (toJson (.text value citations)) "text" = some value from rfl]
      dsimp only
      rw [if_neg (show value ≠ "" from h)]
      unfold Collected.add
      simp [textOf, callOf, reasoningOf, signatureOf, citationsOf, resultOf, partOf]
  | thinking reasoning signature =>
      have htype : strOr (toJson (.thinking reasoning signature)) "type" = "thinking" := rfl
      dsimp only
      rw [htype, if_neg (by decide), if_neg (by decide), if_neg (by decide), if_pos rfl]
      unfold Collected.thinking
      rw [signature_toJson,
        show strField (toJson (.thinking reasoning signature)) "thinking" = some reasoning from rfl]
      unfold Collected.add
      simp [textOf, callOf, reasoningOf, signatureOf, citationsOf, resultOf, partOf]
  | redactedThinking data =>
      have htype : strOr (toJson (.redactedThinking data)) "type" = "redacted_thinking" := rfl
      dsimp only
      rw [htype, if_neg (by decide), if_neg (by decide), if_neg (by decide), if_neg (by decide),
        if_pos rfl]
      unfold Collected.add
      simp [textOf, callOf, reasoningOf, signatureOf, citationsOf, resultOf, partOf]
  | image source =>
      have htype : strOr (toJson (.image source)) "type" = "image" := rfl
      dsimp only
      rw [htype, if_neg (by decide), if_pos rfl]
      unfold Collected.image
      rw [show (toJson (.image source)).get "source" = some source from rfl]
      unfold Collected.add
      simp [textOf, callOf, reasoningOf, signatureOf, citationsOf, resultOf, partOf]
  | toolUse blockType id name input caller =>
      obtain ⟨hlike, hid, hname⟩ := h
      have htype : strOr (toJson (.toolUse blockType id name input caller)) "type" = blockType := rfl
      have hadd : ∀ extra : ExtensionMap, extra = callExtra blockType caller index →
          c.toolUse (toJson (.toolUse blockType id name input caller)) extra =
            c.add index (.toolUse blockType id name input caller) := by
        rintro extra rfl
        unfold Collected.toolUse
        rw [show strOr (toJson (.toolUse blockType id name input caller)) "id" = id from rfl,
          show strOr (toJson (.toolUse blockType id name input caller)) "name" = name from rfl,
          if_pos ⟨hid, hname⟩,
          show (toJson (.toolUse blockType id name input caller)).get "input" = some input from rfl]
        unfold Collected.add
        simp [textOf, callOf, reasoningOf, signatureOf, citationsOf, resultOf, partOf]
      dsimp only
      rw [htype, if_neg (isAnthropicToolUseLike_ne hlike (by decide)),
        if_neg (isAnthropicToolUseLike_ne hlike (by decide))]
      by_cases hplain : blockType = "tool_use"
      · rw [if_pos hplain]
        exact hadd _ (if_pos hplain).symm
      · rw [if_neg hplain, if_neg (isAnthropicToolUseLike_ne hlike (by decide)),
          if_neg (isAnthropicToolUseLike_ne hlike (by decide)), if_pos hlike, caller_toJson]
        exact hadd _ (if_neg hplain).symm
  | toolResult blockType toolUseId content isError caller =>
      obtain ⟨hends, hid⟩ := h
      have htype : strOr (toJson (.toolResult blockType toolUseId content isError caller)) "type" =
          blockType := rfl
      have hlike := not_isAnthropicToolUseLike hends
      have hplain : blockType ≠ "tool_use" := endsWith_ne hends (by decide)
      dsimp only
      rw [htype, if_neg (endsWith_ne hends (by decide)),
        if_neg (endsWith_ne hends (by decide)), if_neg hplain,
        if_neg (endsWith_ne hends (by decide)),
        if_neg (endsWith_ne hends (by decide)), if_neg (by simp [hlike]),
        if_pos (isAnthropicToolResultLike_of_endsWith hends), get_toolResult]
      unfold Collected.toolResult inlineToolResultFromBlock strField
      rw [get_toolResult, get_toolResult, get_toolResult]
      unfold Collected.add
      simp only [textOf, callOf, reasoningOf, signatureOf, citationsOf, resultOf, partOf]
      cases isError <;> simp [asBool]

/-- The run lemma: the slots hold what the blocks add, in order. -/
theorem foldl_add (blocks : List AnthropicBlock) (k : Nat) (c : Collected) :
    (blocks.zipIdx k).foldl (fun c entry => c.add entry.2 entry.1) c =
      { textParts := c.textParts ++ blocks.filterMap textOf
        toolCalls := c.toolCalls ++ (blocks.zipIdx k).filterMap fun entry => entry.1.callOf entry.2
        reasoningContent := (blocks.filterMap reasoningOf).getLast?.or c.reasoningContent
        reasoningSignature := (blocks.filterMap signatureOf).getLast?.or c.reasoningSignature
        annotations := c.annotations ++ (blocks.flatMap citationsOf).map llmAnnotationFromCitation
        inlineToolResults :=
          c.inlineToolResults ++ (blocks.zipIdx k).filterMap fun entry => entry.1.resultOf entry.2
        contentParts :=
          c.contentParts ++ (blocks.zipIdx k).filterMap fun entry => entry.1.partOf entry.2 } := by
  have hlast : ∀ (first : Option String) (rest : List String) (old : Option String),
      rest.getLast?.or (first.or old) = ((first.toList ++ rest).getLast?).or old := by
    intro first rest old
    rw [List.getLast?_append]
    cases rest.getLast? <;> cases first <;> rfl
  have hcons : ∀ {α β : Type} (f : α → Option β) (a : α) (l : List α),
      (a :: l).filterMap f = (f a).toList ++ l.filterMap f := by
    intro α β f a l
    cases hfa : f a with
    | none => rw [List.filterMap_cons_none hfa]; rfl
    | some b => rw [List.filterMap_cons_some hfa]; rfl
  induction blocks generalizing k c with
  | nil => simp
  | cons block blocks ih =>
      rw [List.zipIdx_cons, List.foldl_cons, ih]
      unfold Collected.add
      dsimp only
      rw [hlast, hlast, hcons, hcons, hcons, hcons, hcons, hcons, List.flatMap_cons, List.map_append]
      simp only [List.append_assoc]

theorem collect_toJson {blocks : List AnthropicBlock} (h : ∀ block ∈ blocks, block.WellFormed) :
    collect (blocks.map toJson) =
      { textParts := blocks.filterMap textOf
        toolCalls := blocks.zipIdx.filterMap fun entry => entry.1.callOf entry.2
        reasoningContent := (blocks.filterMap reasoningOf).getLast?
        reasoningSignature := (blocks.filterMap signatureOf).getLast?
        annotations := (blocks.flatMap citationsOf).map llmAnnotationFromCitation
        inlineToolResults := blocks.zipIdx.filterMap fun entry => entry.1.resultOf entry.2
        contentParts := blocks.zipIdx.filterMap fun entry => entry.1.partOf entry.2 } := by
  have hsteps : ∀ (entries : List (AnthropicBlock × Nat)) (c : Collected),
      (∀ entry ∈ entries, entry.1.WellFormed) →
      entries.foldl (fun c entry => c.block entry.2 entry.1.toJson) c =
        entries.foldl (fun c entry => c.add entry.2 entry.1) c := by
    intro entries
    induction entries with
    | nil => exact fun _ _ => rfl
    | cons entry entries ih =>
        intro c hentries
        rw [List.foldl_cons, List.foldl_cons,
          Collected.block_toJson c entry.2 (hentries entry List.mem_cons_self)]
        exact ih _ fun other hother => hentries other (List.mem_cons_of_mem _ hother)
  unfold collect
  rw [List.zipIdx_map, List.foldl_map]
  refine (hsteps blocks.zipIdx {} fun entry hentry => ?_).trans ?_
  · exact h _ (List.fst_mem_of_mem_zipIdx hentry)
  · rw [foldl_add]
    simp

/-! ## The blocks that come back -/

/-- The content of a result that comes back: a text, unless it is empty. -/
def keptContent (content : Option Json) : Option Json :=
  if (inlineOutput content).getD "" = "" then none
  else some (.string ((inlineOutput content).getD ""))

/-- A plain call has no caller. -/
def keptCaller (blockType : String) (caller : Option Json) : Option Json :=
  if blockType = "tool_use" then none else present caller

/-- What comes back of a block in its place. -/
def keep : AnthropicBlock → Option AnthropicBlock
  | .text value _ => some (.text value [])
  | .toolUse blockType id name input caller =>
      some (.toolUse blockType id name (sanitizeReadToolInput name input)
        (keptCaller blockType caller))
  | .toolResult blockType toolUseId content isError caller =>
      some (.toolResult blockType toolUseId (keptContent content) isError (present caller))
  | _ => none

theorem field_setAnthropicSpecialMeta (meta' : ExtensionMap) (blockType : String)
    (caller : Option Json) (key : String) :
    field (setAnthropicSpecialMeta meta' blockType caller) key =
      if isAnthropicSpecialBlock blockType = true then
        if key = callerKey then (present caller).or (field meta' callerKey)
        else if key = typeKey then some (.string blockType) else field meta' key
      else field meta' key := by
  have hkeys : callerKey ≠ typeKey := by decide
  unfold setAnthropicSpecialMeta
  by_cases hspecial : isAnthropicSpecialBlock blockType = true
  · rw [if_pos hspecial, if_pos hspecial]
    dsimp only
    cases present caller with
    | none =>
        rw [Option.elim_none, field_insert, Option.none_or]
        by_cases hcaller : key = callerKey
        · rw [if_pos hcaller, hcaller, if_neg hkeys]
        · rw [if_neg hcaller]
    | some value =>
        rw [Option.elim_some, field_insert, field_insert, Option.some_or]
  · rw [if_neg hspecial, if_neg hspecial]

theorem field_index (index : Nat) (key : String) :
    field (setAnthropicBlockIndex [] index) key = if key = blockIndexKey then some (.int index) else none := by
  unfold setAnthropicBlockIndex
  rw [field_insert]
  rfl

theorem present_present (value : Option Json) : present (present value) = present value := by
  unfold present
  cases value with
  | none => rfl
  | some value => cases hnull : value.isNull <;> simp [Option.filter, hnull]

/-- The metadata of a server-side tool block. -/
theorem special_meta {blockType : String} (h : isAnthropicSpecialBlock blockType = true)
    (caller : Option Json) (index : Nat) :
    metaIndex (setAnthropicSpecialMeta (setAnthropicBlockIndex [] index) blockType caller) =
        some (index : Int) ∧
      getAnthropicTypeMeta (setAnthropicSpecialMeta (setAnthropicBlockIndex [] index) blockType caller) =
        blockType ∧
      getAnthropicCallerMeta (setAnthropicSpecialMeta (setAnthropicBlockIndex [] index) blockType caller) =
        present caller ∧
      getAnthropicToolResultContent
        (setAnthropicSpecialMeta (setAnthropicBlockIndex [] index) blockType caller) = none := by
  unfold metaIndex getAnthropicTypeMeta getAnthropicCallerMeta getAnthropicToolResultContent
  refine ⟨?_, ?_, ?_, ?_⟩
  · rw [field_setAnthropicSpecialMeta, if_pos h, if_neg (by decide), if_neg (by decide),
      field_index, if_pos rfl]
    rfl
  · rw [field_setAnthropicSpecialMeta, if_pos h, if_neg (by decide), if_pos rfl]
    rfl
  · rw [field_setAnthropicSpecialMeta, if_pos h, if_pos rfl, field_index, if_neg (by decide),
      Option.or_none, present_present]
  · rw [field_setAnthropicSpecialMeta, if_pos h, if_neg (by decide), if_neg (by decide),
      field_index, if_neg (by decide)]
    rfl

theorem getBlockIndex_of_metaIndex {meta' : ExtensionMap} {index : Int}
    (h : metaIndex meta' = some index) : getBlockIndex meta' = index := by
  unfold getBlockIndex
  rw [h, Option.getD_some]

/-- The metadata of a call. -/
theorem call_meta {blockType : String} (h : isAnthropicToolUseLike blockType = true)
    (caller : Option Json) (index : Nat) :
    metaIndex (callExtra blockType caller index) = some (index : Int) ∧
      (if getAnthropicTypeMeta (callExtra blockType caller index) = "" then "tool_use"
        else getAnthropicTypeMeta (callExtra blockType caller index)) = blockType ∧
      getAnthropicCallerMeta (callExtra blockType caller index) = keptCaller blockType caller := by
  unfold callExtra keptCaller
  by_cases hplain : blockType = "tool_use"
  · rw [if_pos hplain, if_pos hplain]
    have hindex := (field_index index blockIndexKey).trans (if_pos rfl)
    have htype := (field_index index typeKey).trans (if_neg (by decide))
    have hcaller := (field_index index callerKey).trans (if_neg (by decide))
    unfold metaIndex getAnthropicTypeMeta getAnthropicCallerMeta
    rw [hindex, htype, hcaller, hplain]
    exact ⟨rfl, rfl, rfl⟩
  · rw [if_neg hplain, if_neg hplain]
    obtain ⟨hindex, htype, hcaller, -⟩ :=
      special_meta (isAnthropicSpecialBlock_use h hplain) caller index
    refine ⟨hindex, ?_, hcaller⟩
    rw [htype, if_neg (isAnthropicToolUseLike_ne h (by decide))]

/-! ## The order that is restored -/

/-- Blocks with known indexes come out in the order of these. -/
theorem sortOrderedBlocks_numbered {blocks sorted : List (Int × Json)} (hperm : blocks.Perm sorted)
    (hsorted : sorted.Pairwise fun a b => a.1 < b.1) (hknown : ∀ entry ∈ sorted, 0 ≤ entry.1) :
    (sortOrderedBlocks (numbered blocks)).map OrderedBlock.block = sorted.map Prod.snd := by
  have hpair : (numbered blocks).map (fun b => (b.idx, b.block)) = blocks := by
    unfold numbered
    rw [List.map_map]
    exact List.zipIdx_map_fst 0 blocks
  have hmerged := List.mergeSort_perm (numbered blocks) OrderedBlock.le
  have hle : ∀ a b : OrderedBlock, OrderedBlock.le a b = true → 0 ≤ b.idx → a.idx ≤ b.idx := by
    intro a b h hb
    unfold OrderedBlock.le at h
    by_cases ha : 0 ≤ a.idx
    · rw [if_pos ha, if_pos hb, decide_eq_true_iff] at h
      omega
    · omega
  have htrans : ∀ a b c : OrderedBlock, OrderedBlock.le a b = true → OrderedBlock.le b c = true →
      OrderedBlock.le a c = true := by
    intro a b c
    unfold OrderedBlock.le
    grind
  have htotal : ∀ a b : OrderedBlock, (OrderedBlock.le a b || OrderedBlock.le b a) = true := by
    intro a b
    unfold OrderedBlock.le
    grind
  have hpairwise := List.pairwise_mergeSort htrans htotal (numbered blocks)
  have hresult : (sortOrderedBlocks (numbered blocks)).map (fun b => (b.idx, b.block)) = sorted := by
    have hall : ((sortOrderedBlocks (numbered blocks)).map fun b => (b.idx, b.block)).Perm sorted := by
      refine ((hmerged.map _).trans ?_).trans hperm
      rw [hpair]
    have hnodup : (sorted.map Prod.fst).Nodup := List.pairwise_map.mpr (hsorted.imp fun h => h.ne)
    have hweak : sorted.Pairwise fun a b => a.1 ≤ b.1 := hsorted.imp fun h => h.le
    refine List.Perm.eq_of_pairwise ?_ ?_ hweak hall
    · -- two entries with one index are one entry
      intro a b ha hb hab hba
      exact List.inj_on_of_nodup_map hnodup (hall.mem_iff.mp ha) hb (le_antisymm hab hba)
    · rw [List.pairwise_map]
      refine (List.Pairwise.and_mem.mp hpairwise).imp ?_
      rintro a b ⟨-, hb, hab⟩
      refine hle a b hab (hknown (b.idx, b.block) (hall.mem_iff.mp ?_))
      exact List.mem_map_of_mem hb
  rw [← hresult, List.map_map]
  rfl

/-! ## The way back of the slots -/

section Back

variable {fromStr : String → Option Json} {blocks : List AnthropicBlock}

/-- The library reads the inputs of the calls back as it writes them. -/
def ReadsInputs (fromStr : String → Option Json) (blocks : List AnthropicBlock) : Prop :=
  ∀ (blockType id name : String) (input : Json) (caller : Option Json),
    .toolUse blockType id name input caller ∈ blocks →
      input.render ≠ "" ∧ fromStr input.render = some input

/-- The entry of a text, a call or a result, with the index of its block. -/
def textEntry (entry : AnthropicBlock × Nat) : Option (Int × Json) :=
  (entry.1.partOf entry.2).bind partBlock

def callEntry (fromStr : String → Option Json) (entry : AnthropicBlock × Nat) :
    Option (Int × Json) :=
  (entry.1.callOf entry.2).map (toolCallBlock fromStr)

def resultEntry (entry : AnthropicBlock × Nat) : Option (Int × Json) :=
  (entry.1.resultOf entry.2).bind fun result =>
    (toolResultBlockFromInline result).map fun block =>
      (getBlockIndex result.transformerMetadata, block)

theorem textEntry_text (value : String) (citations : List Json) (index : Nat) :
    textEntry (.text value citations, index) = some ((index : Int), (AnthropicBlock.text value []).toJson) := by
  have hindex : metaIndex (setAnthropicBlockIndex [] index) = some (index : Int) := by
    unfold metaIndex
    rw [field_index, if_pos rfl]
    rfl
  unfold textEntry partOf partBlock
  rw [Option.bind_some, if_pos rfl, Option.map_some, getBlockIndex_of_metaIndex hindex]
  rfl

theorem callEntry_toolUse {blockType id name : String} {input : Json} {caller : Option Json}
    (hwell : (AnthropicBlock.toolUse blockType id name input caller).WellFormed)
    (hread : input.render ≠ "" ∧ fromStr input.render = some input) (index : Nat) :
    callEntry fromStr (.toolUse blockType id name input caller, index) =
      some ((index : Int), (AnthropicBlock.toolUse blockType id name (sanitizeReadToolInput name input)
        (keptCaller blockType caller)).toJson) := by
  obtain ⟨hindex, htype, hcaller⟩ := call_meta hwell.1 caller index
  unfold callEntry callOf
  rw [Option.map_some]
  unfold toolCallBlock
  dsimp only
  rw [getBlockIndex_of_metaIndex hindex, htype, hcaller]
  unfold ToolCall.functionArguments ToolCall.functionName
  rw [show ((Json.object [("name", .string name), ("arguments", .string input.render)]).get
      "arguments").bind asStr = some input.render by simp,
    show ((Json.object [("name", .string name), ("arguments", .string input.render)]).get
      "name").bind asStr = some name by simp]
  dsimp only [Option.getD_some]
  rw [if_neg hread.1, hread.2]
  rfl

theorem resultEntry_toolResult {blockType toolUseId : String} {content : Option Json} {isError : Bool}
    {caller : Option Json}
    (hwell : (AnthropicBlock.toolResult blockType toolUseId content isError caller).WellFormed)
    (index : Nat) :
    resultEntry (.toolResult blockType toolUseId content isError caller, index) =
      some ((index : Int), (AnthropicBlock.toolResult blockType toolUseId (keptContent content) isError
        (present caller)).toJson) := by
  obtain ⟨hindex, htype, hcaller, hcontent⟩ :=
    special_meta (isAnthropicSpecialBlock_result hwell.1) caller index
  have hkept : nonEmptyField "content" ((inlineOutput content).getD "") =
      optionalField "content" (keptContent content) := by
    unfold nonEmptyField optionalField keptContent
    split <;> rfl
  unfold resultEntry resultOf
  rw [Option.bind_some]
  unfold toolResultBlockFromInline
  dsimp only
  rw [htype, if_neg (endsWith_ne hwell.1 (by decide)), hcaller, hcontent,
    getBlockIndex_of_metaIndex hindex]
  dsimp only [Option.getD_some]
  rw [hkept]
  unfold nonEmptyField
  rw [if_neg hwell.2]
  rfl

def isText : AnthropicBlock → Bool
  | .text _ _ => true
  | _ => false

/-- What comes back of a tool block. -/
def keepTool (block : AnthropicBlock) : Option AnthropicBlock :=
  if isText block then none else keep block

/-- Every block has at most one entry, in the form in which it is kept. -/
theorem entries_or (hread : ReadsInputs fromStr blocks) {entry : AnthropicBlock × Nat}
    (hmem : entry.1 ∈ blocks) (hwell : entry.1.WellFormed) :
    (callEntry fromStr entry).or (resultEntry entry) =
        (keepTool entry.1).map (fun block => ((entry.2 : Int), block.toJson)) ∧
      (textEntry entry).or ((callEntry fromStr entry).or (resultEntry entry)) =
        (keep entry.1).map (fun block => ((entry.2 : Int), block.toJson)) ∧
      (callEntry fromStr entry = none ∨ resultEntry entry = none) ∧
      (textEntry entry = none ∨ (callEntry fromStr entry).or (resultEntry entry) = none) := by
  obtain ⟨block, index⟩ := entry
  cases block with
  | text value citations =>
      rw [textEntry_text]
      exact ⟨rfl, rfl, .inl rfl, .inr rfl⟩
  | thinking reasoning signature => exact ⟨rfl, rfl, .inl rfl, .inl rfl⟩
  | redactedThinking data => exact ⟨rfl, rfl, .inl rfl, .inl rfl⟩
  | image source => exact ⟨rfl, rfl, .inl rfl, .inl rfl⟩
  | toolUse blockType id name input caller =>
      rw [callEntry_toolUse hwell (hread blockType id name input caller hmem)]
      exact ⟨rfl, rfl, .inr rfl, .inl rfl⟩
  | toolResult blockType toolUseId content isError caller =>
      rw [resultEntry_toolResult hwell]
      exact ⟨rfl, rfl, .inl rfl, .inl rfl⟩

/-- The entries of the blocks that are kept are sorted by their indexes. -/
theorem kept_entries (f : AnthropicBlock → Option AnthropicBlock) (k : Nat) :
    ((blocks.zipIdx k).filterMap fun entry =>
        (f entry.1).map fun block => ((entry.2 : Int), block.toJson)).Pairwise (fun a b => a.1 < b.1) ∧
      (∀ entry ∈ (blocks.zipIdx k).filterMap fun entry =>
        (f entry.1).map fun block => ((entry.2 : Int), block.toJson), (k : Int) ≤ entry.1) ∧
      ((blocks.zipIdx k).filterMap fun entry =>
        (f entry.1).map fun block => ((entry.2 : Int), block.toJson)).map Prod.snd =
        (blocks.filterMap f).map toJson := by
  induction blocks generalizing k with
  | nil => simp
  | cons block blocks ih =>
      obtain ⟨hsorted, hbound, hblocks⟩ := ih (k + 1)
      rw [List.zipIdx_cons]
      cases hf : f block with
      | none =>
          rw [List.filterMap_cons_none (by simp [hf]), List.filterMap_cons_none hf]
          exact ⟨hsorted, fun entry hentry => by have := hbound entry hentry; push_cast at this; omega,
            hblocks⟩
      | some kept =>
          rw [List.filterMap_cons_some (show _ = some ((k : Int), kept.toJson) by simp [hf]),
            List.filterMap_cons_some hf]
          refine ⟨List.pairwise_cons.mpr ⟨fun entry hentry => ?_, hsorted⟩, ?_, ?_⟩
          · have := hbound entry hentry
            push_cast at this
            dsimp only
            omega
          · intro entry hentry
            rcases List.mem_cons.mp hentry with rfl | hentry
            · exact le_refl _
            · have := hbound entry hentry
              push_cast at this
              omega
          · rw [List.map_cons, List.map_cons, hblocks]

theorem sort_kept {entries : List (Int × Json)} (f : AnthropicBlock → Option AnthropicBlock)
    (hperm : entries.Perm (blocks.zipIdx.filterMap fun entry =>
      (f entry.1).map fun block => ((entry.2 : Int), block.toJson))) :
    (sortOrderedBlocks (numbered entries)).map OrderedBlock.block =
      (blocks.filterMap f).map toJson := by
  obtain ⟨hsorted, hbound, hblocks⟩ := @kept_entries blocks f 0
  rw [sortOrderedBlocks_numbered hperm hsorted hbound, hblocks]

theorem content_cases (c : Collected) :
    (c.content = some (.text (String.join c.textParts)) ∧ c.textParts ≠ [] ∧ c.safe = true) ∨
      c.content = some (.parts c.contentParts) ∨ (c.content = none ∧ c.contentParts = []) := by
  unfold Collected.content
  by_cases htexts : (!c.textParts.isEmpty && c.contentParts.length = c.textParts.length) = true
  · rw [if_pos htexts]
    rw [Bool.and_eq_true] at htexts
    by_cases hsafe : c.safe = true
    · rw [if_pos hsafe]
      exact .inl ⟨rfl, by simpa using htexts.1, hsafe⟩
    · rw [if_neg hsafe]
      exact .inr (.inl rfl)
  · rw [if_neg htexts]
    by_cases hparts : c.contentParts.isEmpty = true
    · rw [if_pos hparts]
      exact .inr (.inr ⟨rfl, List.isEmpty_iff.mp hparts⟩)
    · rw [if_neg hparts]
      exact .inr (.inl rfl)

/-- The blocks that come back of the content, the calls and the results: the joined text
comes first, or each block is in its place. -/
def body (blocks : List AnthropicBlock) : List AnthropicBlock :=
  match (collect (blocks.map toJson)).content with
  | some (.text value) => .text value [] :: blocks.filterMap keepTool
  | _ => blocks.filterMap keep

theorem join_ne_empty {texts : List String} (hne : texts ≠ []) (h : ∀ text ∈ texts, text ≠ "") :
    String.join texts ≠ "" := by
  cases texts with
  | nil => exact absurd rfl hne
  | cons text texts =>
      rw [String.join_cons]
      intro hjoin
      exact h text List.mem_cons_self (String.append_eq_empty_iff.mp hjoin).1

end Back

end Conduit.Transformers.AnthropicResponse
