import Conduit.Transformers.ResponsesInputGist

/-!
# What the conversion keeps of the items

An item keeps its pieces: a part says what the raw part says, and collapsing a
list of parts changes nothing. The message of a reasoning item is built by
absorbing items one after the other, and an absorbed item adds its gist unless
its content replaces one that says something. Since every step stays below, a
run keeps everything if and only if every step does.
-/

namespace Conduit.Transformers.ResponsesInput

open Base Base.Json

/-! ## Parts -/

theorem url_imageUrl (url : String) (detail : Option String) :
    (Json.object ([("url", .string url)] ++ optionalField "detail" (detail.map .string))).strField "url" =
      some url := by
  simp [Json.strField]

theorem detail_imageUrl (url : String) (detail : Option String) :
    (Json.object ([("url", .string url)] ++ optionalField "detail" (detail.map .string))).strField
      "detail" = detail := by
  cases detail <;> simp [optionalField, Json.strField]

theorem partPiece_image (item : Json) (extra : ExtensionMap) :
    ((imageUrlOf item).map fun url =>
      ({ partType := "image_url", imageUrl := some url, extra := extra } : ContentPart)).bind partPiece =
        rawImage item := by
  unfold imageUrlOf rawImage
  cases item.strField "image_url" with
  | none => rfl
  | some url =>
      simp only [Option.map_some, Option.bind_some, partPiece]
      rw [if_neg (by decide), if_pos trivial, url_imageUrl, detail_imageUrl]
      rfl

theorem compact_fields (item : Json) (name : String)
    (h : name = "id" ∨ name = "encrypted_content" ∨ name = "created_by") :
    (Json.object
      (optionalField "id" ((item.strField "id").map .string) ++
        optionalField "encrypted_content" ((item.strField "encrypted_content").map .string) ++
        optionalField "created_by" ((item.strField "created_by").map .string))).strField name =
      item.strField name := by
  rcases h with rfl | rfl | rfl <;>
    cases hid : item.strField "id" <;>
    cases hencrypted : item.strField "encrypted_content" <;>
    cases hcreated : item.strField "created_by" <;>
    simp [optionalField, Json.strField]

theorem partPiece_compact (item : Json) (h : isCompactionType (typeOf item) = true) :
    partPiece { partType := typeOf item, extra := compactContentPartExtra item } =
      some (rawCompact item) := by
  have htype : typeOf item = "compaction" ∨ typeOf item = "compaction_summary" := by
    simpa [isCompactionType] using h
  unfold partPiece
  dsimp only
  rw [if_neg (by rcases htype with h | h <;> rw [h] <;> decide),
    if_neg (by rcases htype with h | h <;> rw [h] <;> decide), if_pos h]
  simp only [compactContentPartExtra, field, if_true, Option.map_some, rawCompact]
  rw [compact_fields item "id" (by decide), compact_fields item "encrypted_content" (by decide),
    compact_fields item "created_by" (by decide)]

/-- A part says what the raw part says. -/
theorem partPiece_convert (raw : Json) :
    (convertContentItemToPart raw).bind partPiece = rawPiece raw := by
  unfold convertContentItemToPart rawPiece
  dsimp only
  by_cases htext : typeOf raw = "input_text" ∨ typeOf raw = "text" ∨ typeOf raw = "output_text"
  · rw [if_pos htext, if_pos htext]
    cases raw.strField "text" with
    | none => rfl
    | some text => rfl
  · rw [if_neg htext, if_neg htext]
    by_cases himage : typeOf raw = "input_image"
    · rw [if_pos himage, if_pos himage]
      exact partPiece_image raw _
    · rw [if_neg himage, if_neg himage]
      by_cases hcompact : isCompactionType (typeOf raw) = true
      · rw [if_pos (by simpa [isCompactionType] using hcompact), if_pos hcompact]
        exact partPiece_compact raw hcompact
      · rw [if_neg (by simpa [isCompactionType] using hcompact), if_neg hcompact]
        rfl

/-- A part that is kept says something. -/
theorem partPiece_isSome {raw : Json} {part : ContentPart}
    (h : convertContentItemToPart raw = some part) : (partPiece part).isSome = true := by
  have hpiece : partPiece part = rawPiece raw := by
    rw [← partPiece_convert, h]
    rfl
  rw [hpiece]
  unfold convertContentItemToPart at h
  dsimp only at h
  unfold rawPiece
  by_cases htext : typeOf raw = "input_text" ∨ typeOf raw = "text" ∨ typeOf raw = "output_text"
  · rw [if_pos htext] at h ⊢
    obtain ⟨text, hsome, -⟩ := Option.map_eq_some_iff.mp h
    rw [hsome]
    rfl
  · rw [if_neg htext] at h ⊢
    by_cases himage : typeOf raw = "input_image"
    · rw [if_pos himage] at h ⊢
      obtain ⟨url, hsome, -⟩ := Option.map_eq_some_iff.mp h
      obtain ⟨text, hurl, -⟩ := Option.map_eq_some_iff.mp hsome
      unfold rawImage
      rw [hurl]
      rfl
    · rw [if_neg himage] at h ⊢
      by_cases hcompact : isCompactionType (typeOf raw) = true
      · rw [if_pos hcompact]
        rfl
      · rw [if_neg (by simpa [isCompactionType] using hcompact)] at h
        exact absurd h (by simp)

/-! ## Contents -/

theorem filterMap_partPiece (raws : List Json) :
    (raws.filterMap convertContentItemToPart).filterMap partPiece = raws.filterMap rawPiece := by
  rw [List.filterMap_filterMap]
  exact List.filterMap_congr fun raw _ => partPiece_convert raw

theorem collapse_text {part : ContentPart}
    (h : part.partType = "text" ∨ part.partType = "input_text") :
    collapse [part] = some (part.text.elim (.parts [part]) .text) := if_pos h

theorem collapse_other {part : ContentPart}
    (h : ¬(part.partType = "text" ∨ part.partType = "input_text")) :
    collapse [part] = some (.parts [part]) := if_neg h

/-- A part of type text without a text stays in the list. -/
theorem contentPieces_collapse (parts : List ContentPart) :
    contentPieces (collapse parts) = parts.filterMap partPiece := by
  rcases parts with _ | ⟨part, _ | ⟨part', parts⟩⟩
  · rfl
  · by_cases htext : part.partType = "text" ∨ part.partType = "input_text"
    · rw [collapse_text htext]
      cases hpart : part.text with
      | none => rfl
      | some text =>
          have hpiece : partPiece part = some (.text text) := by
            unfold partPiece
            rw [if_pos (by simpa [isTextType] using htext), hpart]
            rfl
          rw [List.filterMap_cons_some hpiece]
          rfl
    · rw [collapse_other htext]
      rfl
  · rfl

theorem collapse_eq_none {parts : List ContentPart} : collapse parts = none ↔ parts = [] := by
  rcases parts with _ | ⟨part, _ | ⟨part', parts⟩⟩
  · exact iff_of_true rfl rfl
  · refine iff_of_false ?_ (List.cons_ne_nil _ _)
    by_cases htext : part.partType = "text" ∨ part.partType = "input_text"
    · rw [collapse_text htext]
      exact Option.some_ne_none _
    · rw [collapse_other htext]
      exact Option.some_ne_none _
  · exact iff_of_false (Option.some_ne_none _) (List.cons_ne_nil _ _)

/-- What the conversion keeps of an item's text and content. -/
def keptPieces (item : Json) : List Piece :=
  contentPieces (convertItemContentToMessageContent item)

theorem keptPieces_eq (item : Json) :
    keptPieces item =
      (item.strField "text").elim (itemContent item) fun text => [.text text] := by
  unfold keptPieces convertItemContentToMessageContent itemContent
  cases item.strField "text" with
  | some text => rfl
  | none =>
      cases item.get "content" with
      | none => rfl
      | some content =>
          cases content with
          | array parts =>
              exact (contentPieces_collapse _).trans (filterMap_partPiece parts)
          | _ => rfl

theorem keptPieces_sublist (item : Json) : List.Sublist (keptPieces item) (itemPieces item) := by
  rw [keptPieces_eq]
  unfold itemPieces
  cases item.strField "text" with
  | some text => exact List.sublist_append_left _ _
  | none => exact List.sublist_append_right _ _

theorem keptPieces_eq_iff (item : Json) :
    keptPieces item = itemPieces item ↔ item.strField "text" = none ∨ itemContent item = [] := by
  rw [keptPieces_eq]
  unfold itemPieces
  cases item.strField "text" with
  | some text => simp
  | none => simp

/-- An item without a message content says nothing and has nothing else. -/
theorem content_eq_none_iff {item : Json} :
    convertItemContentToMessageContent item = none ↔ itemPieces item = [] ∧ ¬OtherContent item := by
  unfold convertItemContentToMessageContent itemPieces itemContent OtherContent
  cases item.strField "text" with
  | some text => simp
  | none =>
      cases item.get "content" with
      | none => simp
      | some content =>
          cases content with
          | array parts =>
              simp only [asStr, asArray, Option.bind_some, collapse_eq_none, Option.elim_some, rawPieces]
              rw [← filterMap_partPiece]
              constructor
              · intro hnil
                rw [hnil]
                simp
              · intro hpieces
                cases hparts : parts.filterMap convertContentItemToPart with
                | nil => rfl
                | cons part rest =>
                    rw [hparts] at hpieces
                    have hmem : part ∈ parts.filterMap convertContentItemToPart := by
                      rw [hparts]
                      exact List.mem_cons_self
                    obtain ⟨raw, -, hraw⟩ := List.mem_filterMap.mp hmem
                    obtain ⟨piece, hpiece⟩ := Option.isSome_iff_exists.mp (partPiece_isSome hraw)
                    rw [List.filterMap_cons_some hpiece] at hpieces
                    simp at hpieces
          | string text => simp [asStr, rawPieces]
          | _ => simp [asStr, asArray, rawPieces]

/-! ## Calls -/

theorem callOf_function (item : Json) :
    (convertFunctionCallToToolCall item).bind callOf = functionCall item := by
  unfold convertFunctionCallToToolCall functionCall
  cases item.strField "call_id" with
  | none => rfl
  | some callId =>
      simp only [Option.map_some, Option.bind_some, callOf]
      rw [if_neg (by decide)]
      cases nonEmptyStr item "namespace" with
      | none => rfl
      | some scope => rfl

theorem callOf_custom (item : Json) :
    (convertCustomToolCallToToolCall item).bind callOf = customCall item := by
  unfold convertCustomToolCallToToolCall customCall
  cases item.strField "call_id" with
  | none => rfl
  | some callId =>
      simp only [Option.map_some, Option.bind_some, callOf]
      rw [if_pos trivial]
      rfl

theorem messageGist_assistantCall (toolCall : Option ToolCall) :
    (toolCall.map assistantCall).elim {} messageGist =
      { calls := (toolCall.bind callOf).toList.map (some "assistant", ·) } := by
  cases toolCall with
  | none => rfl
  | some toolCall =>
      unfold messageGist assistantCall
      cases hcall : callOf toolCall with
      | none => simp [contentPieces, List.filterMap_cons_none hcall, hcall]
      | some call => simp [contentPieces, List.filterMap_cons_some hcall, hcall]

/-! ## Items -/

theorem messageGist_message (item : Json) :
    messageGist {
      id := item.strField "id"
      role := item.strField "role"
      content := convertItemContentToMessageContent item } =
        { said := (keptPieces item).map (⟨item.strField "role", none, ·⟩) } := rfl

theorem said_injective (role answered : Option String) :
    Function.Injective (Said.mk role answered) := fun _ _ h => (Said.mk.inj h).2.2

theorem said_eq_iff {l l' : List Piece} (role answered : Option String) :
    ({ said := l.map (⟨role, answered, ·⟩) } : Gist) = { said := l'.map (⟨role, answered, ·⟩) } ↔
      l = l' := by
  constructor
  · intro h
    exact (said_injective role answered).list_map (congrArg Gist.said h)
  · intro h
    rw [h]

theorem Gist.Within.of_said {l l' : List Said} (h : l.Sublist l') :
    Gist.Within { said := l } { said := l' } :=
  ⟨h, List.Sublist.refl _, List.Sublist.refl _, List.Sublist.refl _, List.Sublist.refl _⟩

theorem itemGist_message {item : Json} (h : isMessageType (typeOf item) = true) :
    itemGist item = { said := (itemPieces item).map (⟨item.strField "role", none, ·⟩) } := if_pos h

/-- An output is the content of its message. -/
theorem gist_output {item : Json} {message : InputMessage}
    (h : convertToolCallOutputMessage item = .ok message) :
    messageGist message =
      { said := ((item.get "output").elim [] rawPieces).map
          (⟨some "tool", item.strField "call_id", ·⟩)
        answers := (item.strField "call_id").toList.map (·, nonEmptyStr item "name") } := by
  unfold convertToolCallOutputMessage at h
  cases houtput : item.get "output" with
  | none =>
      rw [houtput] at h
      exact absurd h (by simp)
  | some output =>
      rw [houtput] at h
      rw [← Except.ok.inj h]
      have hpieces : contentPieces (convertItemContentToMessageContent (.object [("content", output)])) =
          rawPieces output := by
        have hkept := keptPieces_eq (.object [("content", output)])
        simp only [keptPieces, Json.strField, get_object, field_cons, field_nil, itemContent] at hkept
        exact hkept
      unfold messageGist
      rw [Option.elim_some, ← hpieces]
      rfl

/-- An item that is no reasoning becomes what it says, up to a text next to a content. -/
theorem gist_convertItem {item : Json} {message : Option InputMessage}
    (h : convertItemToMessage item = .ok message) (hreasoning : typeOf item ≠ "reasoning") :
    Gist.Within (message.elim {} messageGist) (itemGist item) ∧
      (message.elim {} messageGist = itemGist item ↔ OneContent item) := by
  unfold convertItemToMessage at h
  dsimp only at h
  by_cases hmessage : isMessageType (typeOf item) = true
  · rw [if_pos hmessage] at h
    rw [← Except.ok.inj h, Option.elim_some, messageGist_message, itemGist_message hmessage]
    refine ⟨.of_said ((keptPieces_sublist item).map _), ?_⟩
    rw [said_eq_iff, keptPieces_eq_iff]
    exact ⟨fun hone _ => hone, fun hone => hone hmessage⟩
  · -- no other item has a content of its own
    suffices heq : message.elim {} messageGist = itemGist item from
      ⟨heq ▸ Gist.Within.refl _, iff_of_true heq fun htrue => absurd htrue hmessage⟩
    unfold itemGist
    rw [if_neg hmessage] at h ⊢
    by_cases himage : typeOf item = "input_image"
    · rw [if_pos himage] at h ⊢
      rw [← Except.ok.inj h, ← partPiece_image item []]
      cases imageUrlOf item with
      | none => rfl
      | some url =>
          cases hpiece : partPiece { partType := "image_url", imageUrl := some url } <;>
            simp [messageGist, contentPieces, hpiece]
    rw [if_neg himage] at h ⊢
    by_cases hfunction : typeOf item = "function_call"
    · rw [if_pos hfunction] at h ⊢
      rw [← Except.ok.inj h, messageGist_assistantCall, callOf_function]
    rw [if_neg hfunction] at h ⊢
    by_cases hcustom : typeOf item = "custom_tool_call"
    · rw [if_pos hcustom] at h ⊢
      rw [← Except.ok.inj h, messageGist_assistantCall, callOf_custom]
    rw [if_neg hcustom] at h ⊢
    by_cases houtput : isOutputType (typeOf item) = true
    · rw [if_pos houtput] at h ⊢
      cases hresult : convertToolCallOutputMessage item with
      | error e =>
          rw [hresult] at h
          exact absurd h (by simp [Except.map])
      | ok result =>
          rw [hresult] at h
          rw [← Except.ok.inj h]
          exact gist_output hresult
    rw [if_neg houtput] at h ⊢
    by_cases hcompact : isCompactionType (typeOf item) = true
    · rw [if_pos hcompact] at h ⊢
      rw [← Except.ok.inj h]
      simp [messageGist, contentPieces, partPiece_compact item hcompact]
    rw [if_neg hcompact] at h ⊢
    rw [if_neg hreasoning, ← Except.ok.inj h]
    rfl

/-! ## Reasoning -/

theorem gist_reasoning {item : Json} (h : typeOf item = "reasoning") :
    messageGist (reasoningMessage item) = itemGist item := by
  unfold itemGist
  rw [h, if_neg (by decide), if_neg (by decide), if_neg (by decide), if_neg (by decide),
    if_neg (by decide), if_neg (by decide), if_pos rfl]
  unfold messageGist reasoningMessage
  split <;> rfl

/-- An item the message of a reasoning item takes in. -/
def absorb (message : InputMessage) (item : Json) : InputMessage :=
  if typeOf item = "function_call" then addCall message (convertFunctionCallToToolCall item)
  else if typeOf item = "custom_tool_call" then addCall message (convertCustomToolCallToToolCall item)
  else overlay message item

/-- The look-ahead takes the run of items that merge. -/
theorem mergeFollowing_eq (message : InputMessage) (consumed : Nat) (items : List Json) :
    mergeFollowing message consumed items =
      ((items.takeWhile mergeable).foldl absorb message,
        consumed + (items.takeWhile mergeable).length) := by
  induction items generalizing message consumed with
  | nil => rfl
  | cons next items ih =>
      unfold mergeFollowing
      dsimp only
      by_cases hfunction : typeOf next = "function_call"
      · rw [if_pos hfunction, ih, List.takeWhile_cons_of_pos (by simp [mergeable, hfunction])]
        rw [List.foldl_cons, List.length_cons, absorb, if_pos hfunction]
        exact Prod.ext rfl (by dsimp only; omega)
      rw [if_neg hfunction]
      by_cases hcustom : typeOf next = "custom_tool_call"
      · rw [if_pos hcustom, ih, List.takeWhile_cons_of_pos (by simp [mergeable, hcustom])]
        rw [List.foldl_cons, List.length_cons, absorb, if_neg hfunction, if_pos hcustom]
        exact Prod.ext rfl (by dsimp only; omega)
      rw [if_neg hcustom]
      by_cases hmessage : isMessageType (typeOf next) = true
      · rw [if_pos hmessage]
        by_cases hrole : next.strField "role" = some "assistant"
        · rw [if_pos hrole, ih,
            List.takeWhile_cons_of_pos (by simp [mergeable, hmessage, hrole])]
          rw [List.foldl_cons, List.length_cons, absorb, if_neg hfunction, if_neg hcustom]
          exact Prod.ext rfl (by dsimp only; omega)
        · rw [if_neg hrole,
            List.takeWhile_cons_of_neg (by simp [mergeable, hfunction, hcustom, hrole])]
          rfl
      · rw [if_neg hmessage,
          List.takeWhile_cons_of_neg (by simp [mergeable, hfunction, hcustom, hmessage])]
        rfl

end Conduit.Transformers.ResponsesInput
