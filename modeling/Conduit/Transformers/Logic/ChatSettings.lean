import Conduit.Transformers.ChatSettings
import Mathlib

/-!
# Which settings reach the Responses API

One lemma for what a normalized chat holds of the client's body and one for what
the built body holds of the chat. Setting by setting they give what is read of
the built body, and when it is what the client has set.
-/

namespace Conduit.Transformers.ChatSettings

open Base Base.Json ResponsesRequest

/-! ## Lookups -/

theorem field_optionalField (key : String) (value : Option Json) (name : String) :
    field (optionalField key value) name = if name = key then value else none := by
  cases value with
  | none => simp [optionalField]
  | some value => simp [optionalField]

theorem field_nonEmptyField (key value name : String) :
    field (nonEmptyField key value) name =
      if name = key ∧ value ≠ "" then some (.string value) else none := by
  unfold nonEmptyField
  by_cases h : value = "" <;> simp [h]

theorem field_nonEmptyList (key : String) (values : List Json) (name : String) :
    field (nonEmptyList key values) name =
      if name = key ∧ values.isEmpty = false then some (.array values) else none := by
  unfold nonEmptyList
  cases values <;> simp

/-- Entries kept by their names. -/
theorem field_filter (keep : String → Bool) (fields : ExtensionMap) (name : String) :
    field (fields.filter fun entry => keep entry.1) name =
      if keep name = true then field fields name else none := by
  induction fields with
  | nil => simp
  | cons entry fields ih =>
      obtain ⟨key, value⟩ := entry
      by_cases hkeep : keep key = true
      · rw [List.filter_cons, if_pos hkeep, field_cons, field_cons, ih]
        by_cases hname : name = key
        · rw [if_pos hname, if_pos hname, if_pos (by rw [hname]; exact hkeep)]
        · rw [if_neg hname, if_neg hname]
      · rw [List.filter_cons, if_neg hkeep, field_cons, ih]
        by_cases hname : name = key
        · rw [if_neg (by rw [hname]; exact hkeep), if_neg (by rw [hname]; exact hkeep)]
        · rw [if_neg hname]

theorem field_otherFields {names : List String} {name : String} (h : name ∉ names)
    (fields : ExtensionMap) : field (otherFields names fields) name = field fields name := by
  have hfilter := field_filter (fun key => decide (key ∉ names)) fields name
  rwa [if_pos (decide_eq_true h)] at hfilter

/-- Fields copied by their names. -/
theorem field_copied (keys : List String) (extra : ExtensionMap) (name : String) :
    field (keys.flatMap fun key => optionalField key (field extra key)) name =
      if name ∈ keys then field extra name else none := by
  induction keys with
  | nil => simp
  | cons key keys ih =>
      rw [List.flatMap_cons, field_append, field_optionalField, ih]
      by_cases hkey : name = key
      · subst hkey
        rw [if_pos rfl, if_pos List.mem_cons_self]
        by_cases hmem : name ∈ keys
        · rw [if_pos hmem, Option.or_self]
        · rw [if_neg hmem, Option.or_none]
      · rw [if_neg hkey, Option.none_or]
        simp [hkey]

theorem nonNull_nonNull (value : Option Json) : nonNull (nonNull value) = nonNull value := by
  unfold nonNull
  rw [Option.filter_filter]
  simp

theorem nonNull_string (value : Option String) :
    nonNull (value.map Json.string) = value.map Json.string := by
  cases value <;> rfl

theorem nonNull_bool (value : Option Bool) : nonNull (value.map Json.bool) = value.map Json.bool := by
  cases value <;> rfl

/-! ## The chat of a body -/

/-- A typed field is the setting. -/
theorem setting_of_fieldOption {α : Type} {decode : Json → Option α} (write : α → Json)
    (hwrite : ∀ value a, decode value = some a → write a = value) {fields : ExtensionMap}
    {name : String} {result : Option α} (h : fieldOption decode fields name = some result) :
    setting fields name = result.map write := by
  unfold fieldOption at h
  unfold setting nonNull
  cases hfield : field fields name with
  | none =>
      rw [hfield] at h
      rw [← Option.some.inj h]
      rfl
  | some value =>
      rw [hfield, Option.elim_some] at h
      by_cases hnull : value.isNull = true
      · rw [if_pos hnull] at h
        rw [← Option.some.inj h, Option.filter_some_neg (by simp [hnull])]
        rfl
      · rw [if_neg hnull] at h
        obtain ⟨a, hdecode, ha⟩ := Option.map_eq_some_iff.mp h
        rw [← ha, Option.filter_some_pos (by simp [hnull]), Option.map_some, hwrite value a hdecode]

theorem asNumber_eq (value a : Json) (h : ChatRequest.asNumber value = some a) : a = value := by
  cases value with
  | int n => exact (Option.some.inj h).symm
  | decimal text => exact (Option.some.inj h).symm
  | _ => exact absurd h (by simp [ChatRequest.asNumber])

theorem asU32_eq (value : Json) (n : UInt32) (h : ChatRequest.asU32 value = some n) :
    Json.int (.ofNat n.toNat) = value := by
  cases value with
  | int k =>
      cases k with
      | ofNat k =>
          unfold ChatRequest.asU32 at h
          dsimp only at h
          by_cases hlt : k < UInt32.size
          · rw [if_pos hlt] at h
            rw [← Option.some.inj h, UInt32.toNat_ofNat_of_lt' hlt]
          · rw [if_neg hlt] at h
            exact absurd h (by simp)
      | negSucc k => exact absurd h (by simp [ChatRequest.asU32])
  | _ => exact absurd h (by simp [ChatRequest.asU32])

theorem asStr_eq (value : Json) (text : String) (h : asStr value = some text) :
    Json.string text = value := by
  cases value with
  | string other => rw [Option.some.inj h]
  | _ => exact absurd h (by simp [asStr])

/-- What a chat holds of its body. -/
structure HoldsSettings (body : ExtensionMap) (chat : ChatRequest) : Prop where
  toolChoice : setting body "tool_choice" = chat.toolChoice
  responseFormat : setting body "response_format" = chat.responseFormat
  streamOptions : setting body "stream_options" = chat.streamOptions
  reasoningEffort : setting body "reasoning_effort" = chat.reasoningEffort.map Json.string
  topP : setting body "top_p" = chat.topP
  maxTokens : setting body "max_tokens" =
    chat.maxTokens.map fun maxTokens => Json.int (.ofNat maxTokens.toNat)
  extra : ∀ name, name ∉ "model" :: "stream" :: ChatRequest.names →
    field chat.extra name = field body name
  tools : buildUnifiedTools (field body "tools") = .ok chat.tools

theorem field_chatObject {name : String} (h : name ≠ "model" ∧ name ≠ "stream" ∧ name ≠ "tools")
    (body : ExtensionMap) : field (chatObject body) name = field body name := by
  unfold chatObject
  rw [field_remove, if_neg h.2.2, field_remove, if_neg h.2.1, field_remove, if_neg h.1]

theorem setting_chatObject {name : String} (h : name ≠ "model" ∧ name ≠ "stream" ∧ name ≠ "tools")
    (body : ExtensionMap) : setting (chatObject body) name = setting body name := by
  unfold setting
  rw [field_chatObject h]

theorem holdsSettings {body : ExtensionMap} {chat : ChatRequest} (h : Normalized body chat) :
    HoldsSettings body chat := by
  obtain ⟨payload, tools, hdecode, htools, rfl⟩ := h.decoded
  unfold ChatRequest.decode at hdecode
  simp only [bind, Option.bind_eq_some_iff, pure, Option.some.injEq] at hdecode
  obtain ⟨-, -, messages, -, decodedTools, -, functions, -, toolChoice, htoolChoice, responseFormat,
    hresponseFormat, streamOptions, hstreamOptions, effort, heffort, temperature, -, topP, htopP,
    maxTokens, hmaxTokens, stop, -, rfl⟩ := hdecode
  have hid : ∀ value a : Json, some value = some a → id a = value :=
    fun value a h => (Option.some.inj h).symm
  have hextra : ∀ name, name ∉ "model" :: "stream" :: ChatRequest.names →
      field (otherFields ChatRequest.names (chatObject body)) name = field body name := by
    intro name hname
    simp only [List.mem_cons, not_or] at hname
    have htoolsName : name ≠ "tools" := fun heq => hname.2.2 (by rw [heq]; decide)
    rw [field_otherFields hname.2.2, field_chatObject ⟨hname.1, hname.2.1, htoolsName⟩]
  constructor
  · rw [← setting_chatObject (by decide), setting_of_fieldOption id hid htoolChoice, Option.map_id]
    rfl
  · rw [← setting_chatObject (by decide), setting_of_fieldOption id hid hresponseFormat, Option.map_id]
    rfl
  · rw [← setting_chatObject (by decide), setting_of_fieldOption id hid hstreamOptions, Option.map_id]
    rfl
  · rw [← setting_chatObject (by decide), setting_of_fieldOption Json.string asStr_eq heffort]
  · rw [← setting_chatObject (by decide), setting_of_fieldOption id asNumber_eq htopP, Option.map_id]
    rfl
  · rw [← setting_chatObject (by decide), setting_of_fieldOption _ asU32_eq hmaxTokens]
  · exact hextra
  · exact htools

/-! ## The body of a chat -/

/-- What a built body holds of its chat. -/
structure Built (chat : ChatRequest) (out : ExtensionMap) : Prop where
  temperature : field out "temperature" = none
  topP : field out "top_p" = chat.topP
  tokens : field out "max_output_tokens" = maxOutputTokens chat
  toolChoice : field out "tool_choice" = chat.toolChoice.bind convertToolChoice
  text : field out "text" = chat.responseFormat.map buildTextOptions
  reasoning : field out "reasoning" =
    chat.reasoningEffort.map fun effort => .object [("effort", .string effort)]
  streamOptions : field out "stream_options" =
    (chat.streamOptions.bind (·.get "include_obfuscation")).map
      fun includeObfuscation => .object [("include_obfuscation", includeObfuscation)]
  tools : field out "tools" =
    if (convertToolsForResponses chat.tools).isEmpty then none
    else some (.array (convertToolsForResponses chat.tools))
  parallel : field out "parallel_tool_calls" =
    if (convertToolsForResponses chat.tools).isEmpty then none
    else field chat.extra "parallel_tool_calls"
  copied : ∀ name ∈ otherCopied, field out name = field chat.extra name
  fields : ∀ name, (field out name).isSome = true → name ∈ responsesFields

section Build

variable (model : String) (stream : Bool) (chat : ChatRequest)

/-- The names that are written before the copied ones. -/
def typedNames : List String :=
  ["model", "input", "instructions", "tools", "stream", "text", "max_output_tokens", "top_p",
    "tool_choice", "reasoning", "stream_options"]

theorem field_typedFields_none {name : String} (h : name ∉ typedNames) :
    field (typedFields model stream chat) name = none := by
  simp only [typedNames, List.mem_cons, List.not_mem_nil, or_false, not_or] at h
  obtain ⟨hmodel, hinput, hinstructions, htools, hstream, htext, htokens, htopP, hchoice, hreasoning,
    hoptions⟩ := h
  simp only [typedFields, field_append, field_optionalField, field_nonEmptyField, field_nonEmptyList,
    field_cons, field_nil, hmodel, hinput, hinstructions, htools, hstream, htext, htokens, htopP,
    hchoice, hreasoning, hoptions, false_and, if_false, Option.or_none]

theorem field_merged (name : String) :
    field (mergeKeys (typedFields model stream chat) (copiedFields chat.extra)) name =
      (field (typedFields model stream chat) name).or
        (if name ∈ copiedKeys then field chat.extra name else none) := by
  rw [field_mergeKeys]
  exact congrArg _ (field_copied copiedKeys chat.extra name)

/-- A typed name is not copied. -/
theorem field_merged_typed {name : String} (h : name ∉ copiedKeys) :
    field (mergeKeys (typedFields model stream chat) (copiedFields chat.extra)) name =
      field (typedFields model stream chat) name := by
  rw [field_merged, if_neg h, Option.or_none]

theorem field_merged_copied {name : String} (h : name ∉ typedNames) (hcopied : name ∈ copiedKeys) :
    field (mergeKeys (typedFields model stream chat) (copiedFields chat.extra)) name =
      field chat.extra name := by
  rw [field_merged, field_typedFields_none model stream chat h, if_pos hcopied, Option.none_or]

theorem field_typed_tools :
    field (typedFields model stream chat) "tools" =
      if (convertToolsForResponses chat.tools).isEmpty then none
      else some (.array (convertToolsForResponses chat.tools)) := by
  simp only [typedFields, field_append, field_optionalField, field_nonEmptyField, field_nonEmptyList,
    field_cons, field_nil]
  cases (convertToolsForResponses chat.tools).isEmpty <;> simp

end Build

/-- The last step takes at most the parallel calls away. -/
theorem field_out {body out : ExtensionMap} {name : String}
    (hout : (if (field body "tools").isNone then remove "parallel_tool_calls" body else body) = out)
    (h : name ≠ "parallel_tool_calls") : field out name = field body name := by
  rw [← hout]
  split
  · rw [field_remove, if_neg h]
  · rfl

theorem built {model : String} {stream : Bool} {chat : ChatRequest} {out : ExtensionMap}
    (h : buildChatResponsesRequestBody model stream chat = .ok out) : Built chat out := by
  unfold buildChatResponsesRequestBody at h
  by_cases hempty : chat.messages.isEmpty = true
  · rw [if_pos hempty] at h
    exact absurd h (by simp)
  rw [if_neg hempty] at h
  have hout := Except.ok.inj h
  have htyped : ∀ name, name ∉ copiedKeys → field out name = field (typedFields model stream chat) name := by
    intro name hname
    have hparallel : name ≠ "parallel_tool_calls" := fun heq => hname (by rw [heq]; decide)
    rw [field_out hout hparallel, field_merged_typed model stream chat hname]
  have htools := field_typed_tools model stream chat
  constructor
  case temperature => rw [htyped _ (by decide), field_typedFields_none model stream chat (by decide)]
  case topP | tokens | toolChoice | text | reasoning | streamOptions =>
    rw [htyped _ (by decide)]
    simp [typedFields, field_append, field_optionalField, field_nonEmptyField, field_nonEmptyList]
  case tools => rw [htyped _ (by decide), htools]
  case parallel =>
    rw [← hout, field_merged_typed model stream chat (by decide), htools]
    by_cases hnone : (convertToolsForResponses chat.tools).isEmpty = true
    · rw [if_pos hnone, if_pos (show (none : Option Json).isNone = true from rfl), if_pos hnone,
        field_remove, if_pos rfl]
    · rw [if_neg hnone, if_neg (by simp), if_neg hnone,
        field_merged_copied model stream chat (by decide) (by decide)]
  case copied =>
    intro name hname
    obtain ⟨hcopied, hparallel⟩ := List.mem_filter.mp hname
    have hne : name ≠ "parallel_tool_calls" := of_decide_eq_true hparallel
    have hnot : name ∉ typedNames := by
      intro hmem
      have hdisjoint : ∀ key ∈ copiedKeys, key ∉ typedNames := by decide
      exact hdisjoint name hcopied hmem
    rw [field_out hout hne, field_merged_copied model stream chat hnot hcopied]
  case fields =>
    intro name hname
    unfold responsesFields
    by_contra hnot
    rw [List.mem_append, not_or] at hnot
    rw [htyped name hnot.2, field_typedFields_none model stream chat hnot.1] at hname
    exact absurd hname (by simp)

/-! ## Choices -/

theorem chosenName_eq (fields : ExtensionMap) :
    ((field fields "name").bind asStr).or
      ((field fields "function").bind fun function => function.strField "name") = chosenName fields :=
  rfl

theorem convertToolChoice_object {fields : ExtensionMap} {type : String}
    (htype : typeOf fields = some type) :
    convertToolChoice (.object fields) =
      some ((chosenName fields).elim (.string type)
        fun name => .object [("type", .string type), ("name", .string name)]) := by
  unfold convertToolChoice
  dsimp only
  rw [chosenName_eq, show (field fields "type").bind asStr = some type from htype]
  cases chosenName fields <;> rfl

theorem responsesToolChoice_tool (type name : String) :
    responsesToolChoice (.object [("type", .string type), ("name", .string name)]) =
      .tool type name := by
  simp [responsesToolChoice, typeOf]

theorem chatToolChoice_object {fields : ExtensionMap} {type : String}
    (htype : typeOf fields = some type) :
    chatToolChoice (.object fields) =
      ((chosenName fields).or ((field fields type).bind (·.strField "name"))).elim
        (if fields.all (·.1 = "type") then .mode type else .other (.object fields))
        (.tool type ·) := by
  unfold chatToolChoice
  dsimp only
  rw [htype]
  dsimp only
  cases (chosenName fields).or ((field fields type).bind (·.strField "name")) <;> rfl

/-- Only a type: there is nothing below it. -/
theorem field_type_none {fields : ExtensionMap} {type : String} (htype : typeOf fields = some type)
    (hall : fields.all (·.1 = "type") = true) :
    (field fields type).bind (·.strField "name") = none := by
  by_cases heq : type = "type"
  · have hfield : (field fields "type").bind asStr = some type := htype
    rw [heq]
    cases hvalue : field fields "type" with
    | none => rfl
    | some value =>
        rw [hvalue] at hfield
        cases value with
        | string text => rfl
        | _ => exact absurd hfield (by simp [asStr])
  · have hnone : field fields type = none := by
      rw [field_eq_none]
      intro hmem
      obtain ⟨entry, hentry, hkey⟩ := List.mem_map.mp hmem
      have hall' := List.all_eq_true.mp hall entry hentry
      exact heq (hkey ▸ of_decide_eq_true hall')
    rw [hnone]
    rfl

/-- A choice is carried exactly if it is kept. -/
theorem choice_iff (value : Json) :
    (nonNull (convertToolChoice value)).map responsesToolChoice = some (chatToolChoice value) ↔
      ChoiceKept value := by
  cases value with
  | string mode => exact iff_of_true rfl (.inl ⟨mode, rfl⟩)
  | object fields =>
      cases htype : typeOf fields with
      | none =>
          refine iff_of_false ?_ ?_
          · have hconvert : convertToolChoice (.object fields) = none := by
              unfold convertToolChoice
              dsimp only
              rw [show (field fields "type").bind asStr = none from htype]
              rfl
            rw [hconvert]
            exact fun h => absurd h (by simp [nonNull])
          · rintro (⟨mode, hmode⟩ | ⟨fields', type, hfields, hsome, -⟩)
            · exact absurd hmode (by simp)
            · rw [← Json.object.inj hfields, htype] at hsome
              exact absurd hsome (by simp)
      | some type =>
          have hkept : ChoiceKept (.object fields) ↔
              (chosenName fields).isSome = true ∨ fields.all (·.1 = "type") = true := by
            constructor
            · rintro (⟨mode, hmode⟩ | ⟨fields', type', hfields, -, hor⟩)
              · exact absurd hmode (by simp)
              · rwa [← Json.object.inj hfields] at hor
            · exact fun hor => .inr ⟨fields, type, rfl, htype, hor⟩
          rw [hkept, convertToolChoice_object htype, chatToolChoice_object htype]
          cases hname : chosenName fields with
          | some name =>
              refine iff_of_true ?_ (.inl rfl)
              rw [Option.elim_some, Option.some_or, Option.elim_some]
              exact congrArg some (responsesToolChoice_tool type name)
          | none =>
              rw [Option.elim_none, Option.none_or]
              have hmode : (nonNull (some (.string type))).map responsesToolChoice =
                  some (.mode type) := rfl
              rw [hmode, Option.some_inj]
              by_cases hall : fields.all (·.1 = "type") = true
              · rw [field_type_none htype hall, Option.elim_none, if_pos hall]
                exact iff_of_true rfl (.inr hall)
              · refine iff_of_false ?_ (fun hor => hor.elim (fun h => absurd h (by simp)) hall)
                rw [if_neg hall]
                cases (field fields type).bind (·.strField "name") with
                | none => exact fun h => absurd h (by simp)
                | some name => exact fun h => absurd h (by simp)
  | _ =>
      refine iff_of_false (fun h => absurd h (by simp [convertToolChoice, nonNull])) ?_
      rintro (⟨mode, hmode⟩ | ⟨fields, type, hfields, -⟩)
      · exact absurd hmode (by simp)
      · exact absurd hfields (by simp)

/-! ## Formats -/

theorem responsesFormat_textFormat (format : ExtensionMap) :
    responsesFormat (buildTextOptions (.object format)) =
      some (if (typeOf format).getD "text" = "json_schema" then
        { type := (typeOf format).getD "text"
          name := ((field format "name").bind asStr).map .string
          description := ((field format "description").bind asStr).map .string
          schema := setting format "schema"
          strict := ((field format "strict").bind asBool).map .bool }
      else { type := (typeOf format).getD "text" }) := by
  have htext : (buildTextOptions (.object format)).get "format" = some (textFormat format) := by
    simp [buildTextOptions, asObject, optionalField]
  unfold responsesFormat
  rw [htext, Option.bind_some]
  unfold textFormat
  rw [show (field format "type").bind asStr = typeOf format from rfl]
  by_cases hschema : (typeOf format).getD "text" = "json_schema"
  · rw [if_pos hschema]
    simp only [asObject, Option.map_some]
    rw [if_pos hschema]
    simp only [typeOf, setting, field_append, field_optionalField, field_cons, field_nil]
    generalize (field format "name").bind asStr = name
    generalize (field format "description").bind asStr = description
    generalize (field format "strict").bind asBool = strict
    simp [nonNull_string, nonNull_bool]
  · rw [if_neg hschema]
    simp only [asObject, Option.map_some]
    rw [if_neg hschema]
    simp only [typeOf, setting, field_append, field_cons, field_nil]
    simp [nonNull]

theorem format_iff (value : Json) :
    responsesFormat (buildTextOptions value) = chatFormat value ↔ FormatKept value := by
  cases value with
  | object format =>
      rw [responsesFormat_textFormat]
      unfold chatFormat
      simp only [asObject, Option.map_some, Option.some_inj]
      by_cases hschema : (typeOf format).getD "text" = "json_schema"
      · rw [if_pos hschema, if_pos hschema, FormatSetting.mk.injEq]
        have htype : typeOf format = some "json_schema" := by
          cases htype : typeOf format with
          | none =>
              rw [htype] at hschema
              exact absurd hschema (by decide)
          | some type =>
              rw [htype, Option.getD_some] at hschema
              rw [hschema]
        constructor
        · rintro ⟨-, hname, hdescription, hschema', hstrict⟩ format' hformat -
          rw [← Json.object.inj hformat]
          exact ⟨hname, hdescription, hschema', hstrict⟩
        · intro hkept
          obtain ⟨hname, hdescription, hschema', hstrict⟩ := hkept format rfl htype
          exact ⟨rfl, hname, hdescription, hschema', hstrict⟩
      · rw [if_neg hschema, if_neg hschema]
        refine iff_of_true rfl fun format' hformat htype => absurd ?_ hschema
        rw [← Json.object.inj hformat] at htype
        rw [htype, Option.getD_some]
  | _ => exact iff_of_true rfl fun format hformat => absurd hformat (by simp)

/-! ## Tools -/

theorem get_eq_field {item : Json} {fields : ExtensionMap} (h : item.asObject = some fields)
    (name : String) : item.get name = field fields name := by
  cases item with
  | object other =>
      rw [Option.some.inj h]
      rfl
  | _ => exact absurd h (by simp [asObject])

theorem field_functionExtra (fields : ExtensionMap) {name : String} (h : name ≠ "function") :
    field (functionExtra fields) name = (field fields "function").bind (·.get name) := by
  unfold functionExtra
  cases field fields "function" with
  | none => rfl
  | some function =>
      cases function with
      | object inner =>
          dsimp only
          rw [field_mergeKeys, field_nil, Option.none_or]
          rfl
      | _ =>
          dsimp only
          rw [field_cons, if_neg h]
          rfl

/-- Where the parts of a unified tool come from. -/
structure Unifies (item : Json) (tool : UnifiedTool) : Prop where
  type : tool.toolType = (item.strField "type").getD ""
  untyped : tool.name = none ∧ tool.description = none ∧ tool.parameters = none
  extra : ∀ name, name ≠ "type" → name ≠ "function" → field tool.extra name = toolField item name

theorem unifies {item : Json} {tool : UnifiedTool} (h : buildUnifiedTool item = .ok tool) :
    Unifies item tool := by
  unfold buildUnifiedTool at h
  cases hobject : item.asObject with
  | none =>
      rw [hobject] at h
      exact absurd h (by simp)
  | some fields =>
      rw [hobject] at h
      dsimp only at h
      cases htype : fieldOr "" asStr fields "type" with
      | none =>
          rw [htype] at h
          exact absurd h (by simp)
      | some toolType =>
          rw [htype] at h
          rw [← Except.ok.inj h]
          refine ⟨?_, ⟨rfl, rfl, rfl⟩, fun name hname hfunction => ?_⟩
          · unfold fieldOr at htype
            rw [Json.strField, get_eq_field hobject]
            cases hfield : field fields "type" with
            | none =>
                rw [hfield] at htype
                exact (Option.some.inj htype).symm
            | some value =>
                rw [hfield, Option.elim_some] at htype
                rw [Option.bind_some, htype]
                rfl
          · dsimp only
            rw [field_mergeKeys, field_functionExtra fields hfunction, field_remove,
              if_neg hfunction, field_remove, if_neg hname]
            unfold toolField
            rw [get_eq_field hobject, get_eq_field hobject]

theorem toolType_eq {item : Json} {type : String} (h : type ≠ "") :
    (item.strField "type").getD "" = type ↔ item.strField "type" = some type := by
  cases item.strField "type" with
  | none => exact iff_of_false (Ne.symm h) (by simp)
  | some other => rw [Option.getD_some, Option.some_inj]

/-- What is written comes first, then the extra fields but `strict`. -/
theorem field_withExtra (written extra : ExtensionMap) (name : String) :
    field (written ++ otherExtra written extra) name =
      (field written name).or (if name = "strict" then none else field extra name) := by
  have hfilter := field_filter
    (fun key => decide ((field written key).isNone = true ∧ key ≠ "strict")) extra name
  unfold otherExtra
  rw [field_append, hfilter]
  cases field written name with
  | some value => rfl
  | none =>
      rw [Option.none_or, Option.none_or]
      by_cases hname : name = "strict"
      · rw [if_neg (by simp [hname]), if_pos hname]
      · rw [if_pos (by simp [hname]), if_neg hname]

/-- The fields a function tool is written with. -/
theorem get_functionTool {item : Json} {tool : UnifiedTool} (h : Unifies item tool) {name : String}
    (hname : name = "name" ∨ name = "description" ∨ name = "parameters") :
    (convertFunctionTool tool).get name = toolField item name := by
  unfold convertFunctionTool
  dsimp only
  rw [get_object, field_withExtra, h.untyped.1, h.untyped.2.1, h.untyped.2.2]
  simp only [field_append, field_optionalField, field_cons, field_nil]
  rw [h.extra name (by rcases hname with rfl | rfl | rfl <;> decide)
    (by rcases hname with rfl | rfl | rfl <;> decide)]
  rcases hname with rfl | rfl | rfl <;> simp

theorem type_functionTool (tool : UnifiedTool) :
    (convertFunctionTool tool).strField "type" = some "function" := by
  unfold convertFunctionTool
  dsimp only
  rw [Json.strField, get_object, field_withExtra]
  simp

theorem strict_functionTool {item : Json} {tool : UnifiedTool} (h : Unifies item tool) :
    (convertFunctionTool tool).get "strict" =
      ((toolField item "strict").bind asBool).map .bool := by
  unfold convertFunctionTool
  dsimp only
  rw [get_object, field_withExtra, h.untyped.1, h.untyped.2.1, h.untyped.2.2,
    h.extra "strict" (by decide) (by decide), if_pos rfl]
  simp only [field_append, field_optionalField, field_cons, field_nil]
  simp

/-- A flag is carried exactly if it is a boolean. -/
theorem strict_iff (value : Option Json) :
    nonNull ((value.bind asBool).map .bool) = nonNull value ↔
      ∀ v, nonNull value = some v → ∃ b, v = .bool b := by
  rw [nonNull_bool]
  cases value with
  | none => exact iff_of_true rfl (by simp [nonNull])
  | some value =>
      cases value with
      | null => exact iff_of_true rfl (by simp [nonNull, isNull])
      | bool b => exact iff_of_true rfl fun v hv => ⟨b, (Option.some.inj hv).symm⟩
      | _ =>
          refine iff_of_false (fun h => Option.some_ne_none _ h.symm) fun h => ?_
          obtain ⟨b, hb⟩ := h _ rfl
          exact absurd hb (by simp)

/-- Entries written over others: the last of a name stays. -/
theorem field_foldl_insert (config init : ExtensionMap) (name : String) :
    field (config.foldl (fun fields entry => insert entry.1 entry.2 fields) init) name =
      (field config.reverse name).or (field init name) := by
  induction config generalizing init with
  | nil => rfl
  | cons entry config ih =>
      obtain ⟨key, value⟩ := entry
      rw [List.foldl_cons, ih, field_insert, List.reverse_cons, field_append, field_cons, field_nil,
        Option.or_assoc]
      by_cases hname : name = key
      · rw [if_pos hname, if_pos hname]
        rfl
      · rw [if_neg hname, if_neg hname]
        rfl

theorem type_imageTool (tool : UnifiedTool) :
    (convertImageGenerationTool tool).strField "type" = some "function" ↔
      ∃ config, field tool.extra "image_generation" = some (.object config) ∧
        field config.reverse "type" = some (.string "function") := by
  unfold convertImageGenerationTool
  dsimp only
  rw [Json.strField, get_object, field_foldl_insert, field_cons, if_pos rfl]
  have hother : ((field [] "type").or (some (.string "image_generation"))).bind asStr ≠
      some "function" := by
    simp [asStr]
  cases hextra : field tool.extra "image_generation" with
  | none => exact iff_of_false hother (by simp)
  | some value =>
      cases value with
      | object config =>
          show ((field config.reverse "type").or (some (.string "image_generation"))).bind asStr = _ ↔ _
          constructor
          · intro h
            refine ⟨config, rfl, ?_⟩
            cases htype : field config.reverse "type" with
            | none =>
                rw [htype] at h
                exact absurd h (by simp [asStr])
            | some type =>
                rw [htype, Option.some_or, Option.bind_some] at h
                rw [asStr_eq type "function" h]
          · rintro ⟨config', hconfig, htype⟩
            rw [← Json.object.inj (Option.some.inj hconfig)] at htype
            rw [htype]
            rfl
      | _ =>
          refine iff_of_false hother ?_
          rintro ⟨config, hconfig, -⟩
          exact absurd (Option.some.inj hconfig) (by simp)

theorem type_webSearchTool (tool : UnifiedTool) :
    (convertWebSearchTool tool).strField "type" = some "web_search" := by
  unfold convertWebSearchTool
  dsimp only
  rw [Json.strField, get_object, field_append, field_append, field_cons, if_pos rfl]
  rfl

theorem type_customTool (tool : UnifiedTool) :
    (convertCustomTool tool).strField "type" = some "custom" := by
  unfold convertCustomTool
  rw [Json.strField, get_object, field_append, field_append, field_append, field_cons, if_pos rfl]
  rfl

/-- A tool reaches the request as it is exactly if it is kept. -/
theorem tool_iff {item : Json} {tool : UnifiedTool} (h : Unifies item tool) :
    ((convertToolForResponses tool).map responsesTool).isSome = (chatTool item).isSome ∧
      ((convertToolForResponses tool).map responsesTool = chatTool item ↔ ToolKept item) := by
  have htype : ∀ type, type ≠ "" → (tool.toolType = type ↔ item.strField "type" = some type) := by
    intro type hne
    rw [h.type]
    exact toolType_eq hne
  unfold convertToolForResponses chatTool
  by_cases hfunction : item.strField "type" = some "function"
  · have hkept : ToolKept item ↔
        ∀ v, nonNull (toolField item "strict") = some v → ∃ b, v = .bool b := by
      constructor
      · exact fun hkept => hkept.strict hfunction
      · intro hstrict
        refine ⟨fun _ => hstrict, fun himage => ?_⟩
        rw [hfunction] at himage
        exact absurd (Option.some.inj himage) (by decide)
    rw [if_pos ((htype "function" (by decide)).mpr hfunction), if_pos hfunction, hkept]
    refine ⟨rfl, ?_⟩
    rw [Option.map_some, Option.some_inj]
    unfold responsesTool
    rw [if_pos (type_functionTool tool), get_functionTool h (.inl rfl),
      get_functionTool h (.inr (.inl rfl)), get_functionTool h (.inr (.inr rfl)),
      strict_functionTool h, ToolSetting.function.injEq, strict_iff]
    exact ⟨fun hall => hall.2.2.2, fun hstrict => ⟨rfl, rfl, rfl, hstrict⟩⟩
  · rw [if_neg (fun htool => hfunction ((htype "function" (by decide)).mp htool)), if_neg hfunction]
    -- a tool of the provider's stays one unless its type is overwritten
    have hhosted : ∀ written : Json, written.strField "type" ≠ some "function" →
        responsesTool written = .hosted := fun written hne => if_neg hne
    by_cases hsearch : tool.toolType = "web_search" ∨ tool.toolType = "web_search_preview"
    · have hraw : item.strField "type" = some "web_search" ∨
          item.strField "type" = some "web_search_preview" :=
        hsearch.imp (htype _ (by decide)).mp (htype _ (by decide)).mp
      have hkind : ∃ type ∈ hostedTypes, item.strField "type" = some type :=
        hraw.elim (fun heq => ⟨_, by decide, heq⟩) (fun heq => ⟨_, by decide, heq⟩)
      rw [if_pos hsearch, if_pos hkind, Option.map_some, hhosted _ (by
        rw [type_webSearchTool]
        decide)]
      refine ⟨rfl, iff_of_true rfl ⟨fun heq => absurd heq hfunction, fun heq => ?_⟩⟩
      rw [heq] at hraw
      exact absurd hraw (by decide)
    rw [if_neg hsearch]
    by_cases himage : tool.toolType = "image_generation"
    · have hraw : item.strField "type" = some "image_generation" := (htype _ (by decide)).mp himage
      have hkept : ToolKept item ↔ ∀ config,
          toolField item "image_generation" = some (.object config) →
            field config.reverse "type" ≠ some (.string "function") := by
        constructor
        · exact fun hkept => hkept.image hraw
        · exact fun hconfig => ⟨fun heq => absurd heq hfunction, fun _ => hconfig⟩
      rw [if_pos himage, if_pos ⟨_, by decide, hraw⟩, hkept, Option.map_some]
      refine ⟨rfl, ?_⟩
      rw [Option.some_inj, ← h.extra "image_generation" (by decide) (by decide)]
      unfold responsesTool
      by_cases hover : (convertImageGenerationTool tool).strField "type" = some "function"
      · obtain ⟨config, hconfig, hconfigType⟩ := (type_imageTool tool).mp hover
        rw [if_pos hover]
        exact iff_of_false (by simp) fun hall => hall config hconfig hconfigType
      · rw [if_neg hover]
        exact iff_of_true rfl fun config hconfig hconfigType =>
          hover ((type_imageTool tool).mpr ⟨config, hconfig, hconfigType⟩)
    rw [if_neg himage]
    have hkept : ToolKept item := ⟨fun heq => absurd heq hfunction, fun heq =>
      absurd ((htype _ (by decide)).mpr heq) himage⟩
    by_cases hcustom : tool.toolType = "responses_custom_tool"
    · have hraw : item.strField "type" = some "responses_custom_tool" :=
        (htype _ (by decide)).mp hcustom
      rw [if_pos hcustom, if_pos ⟨_, by decide, hraw⟩, Option.map_some, hhosted _ (by
        rw [type_customTool]
        decide)]
      exact ⟨rfl, iff_of_true rfl hkept⟩
    · have hnone : ¬∃ type ∈ hostedTypes, item.strField "type" = some type := by
        rintro ⟨type, hmem, heq⟩
        simp only [hostedTypes, List.mem_cons, List.not_mem_nil, or_false] at hmem
        rcases hmem with rfl | rfl | rfl | rfl
        · exact hsearch (.inl ((htype _ (by decide)).mpr heq))
        · exact hsearch (.inr ((htype _ (by decide)).mpr heq))
        · exact himage ((htype _ (by decide)).mpr heq)
        · exact hcustom ((htype _ (by decide)).mpr heq)
      rw [if_neg hcustom, if_neg hnone]
      exact ⟨rfl, iff_of_true rfl hkept⟩

theorem length_toList {a b : Option ToolSetting} (h : a.isSome = b.isSome) :
    a.toList.length = b.toList.length := by
  cases a with
  | none =>
      cases b with
      | none => rfl
      | some b => exact absurd h (by simp)
  | some a =>
      cases b with
      | none => exact absurd h (by simp)
      | some b => rfl

theorem filterMap_cons_toList {α : Type} (f : α → Option ToolSetting) (a : α) (list : List α) :
    (a :: list).filterMap f = (f a).toList ++ list.filterMap f := by
  rw [List.filterMap_cons]
  cases f a <;> rfl

theorem toList_append_iff {a b : Option ToolSetting} {l m : List ToolSetting}
    (h : a.isSome = b.isSome) : a.toList ++ l = b.toList ++ m ↔ a = b ∧ l = m := by
  constructor
  · intro heq
    obtain ⟨hhead, htail⟩ := List.append_inj heq (length_toList h)
    refine ⟨?_, htail⟩
    cases a <;> cases b <;> simp_all
  · rintro ⟨rfl, rfl⟩
    rfl

/-- The setting a unified tool is written as. -/
def writtenTool (tool : UnifiedTool) : Option ToolSetting :=
  (convertToolForResponses tool).map responsesTool

theorem map_convertTools (tools : List UnifiedTool) :
    (convertToolsForResponses tools).map responsesTool = tools.filterMap writtenTool :=
  List.map_filterMap

/-- The tools of a list, one by one. -/
theorem tools_iff (items : List Json) (tools : List UnifiedTool)
    (h : items.mapM buildUnifiedTool = .ok tools) :
    (tools.filterMap writtenTool).length = (items.filterMap chatTool).length ∧
      (tools.filterMap writtenTool = items.filterMap chatTool ↔ ∀ item ∈ items, ToolKept item) := by
  induction items generalizing tools with
  | nil =>
      rw [← Except.ok.inj h]
      exact ⟨rfl, iff_of_true rfl (by simp)⟩
  | cons item items ih =>
      rw [List.mapM_cons] at h
      cases hitem : buildUnifiedTool item with
      | error e =>
          rw [hitem] at h
          exact absurd h (by simp [bind, Except.bind])
      | ok tool =>
          cases hrest : items.mapM buildUnifiedTool with
          | error e =>
              rw [hitem, hrest] at h
              exact absurd h (by simp [bind, Except.bind])
          | ok rest =>
              rw [hitem, hrest] at h
              rw [← Except.ok.inj h]
              obtain ⟨hlength, hrestIff⟩ := ih rest hrest
              obtain ⟨hsome, htool⟩ := tool_iff (unifies hitem)
              rw [← writtenTool] at hsome htool
              rw [filterMap_cons_toList, filterMap_cons_toList, List.forall_mem_cons, ← hrestIff,
                ← htool]
              refine ⟨?_, toList_append_iff hsome⟩
              rw [List.length_append, List.length_append, length_toList hsome, hlength]

/-! ## The whole request -/

section Whole

variable {body out : ExtensionMap} {chat : ChatRequest} (holds : HoldsSettings body chat)
  (built : Built chat out)

include holds

theorem mapM_tools : (rawTools body).mapM buildUnifiedTool = .ok chat.tools := by
  have htools := holds.tools
  unfold rawTools
  unfold buildUnifiedTools at htools
  cases hraw : field body "tools" with
  | none =>
      rw [hraw] at htools
      rw [← Except.ok.inj htools]
      rfl
  | some raw =>
      rw [hraw] at htools
      cases raw with
      | array items => exact htools
      | _ => exact absurd htools (by simp)

/-- No setting of the tools is added or lost with them. -/
theorem isEmpty_tools :
    (convertToolsForResponses chat.tools).isEmpty = ((rawTools body).filterMap chatTool).isEmpty := by
  obtain ⟨hlength, -⟩ := tools_iff _ _ (mapM_tools holds)
  rw [← map_convertTools, List.length_map] at hlength
  rw [Bool.eq_iff_iff, List.isEmpty_iff_length_eq_zero, List.isEmpty_iff_length_eq_zero, hlength]

theorem field_extra {name : String} (h : name ∉ "model" :: "stream" :: ChatRequest.names) :
    nonNull (field chat.extra name) = setting body name := by
  rw [holds.extra name h]
  rfl

include built

theorem settings_tools :
    (rawTools out).map responsesTool = (rawTools body).filterMap chatTool ↔
      ∀ tool ∈ rawTools body, ToolKept tool := by
  have hraw : rawTools out = convertToolsForResponses chat.tools := by
    unfold rawTools
    rw [built.tools]
    by_cases hempty : (convertToolsForResponses chat.tools).isEmpty = true
    · rw [if_pos hempty, List.isEmpty_iff.mp hempty]
      rfl
    · rw [if_neg hempty]
      rfl
  rw [hraw, map_convertTools]
  exact (tools_iff _ _ (mapM_tools holds)).2

theorem settings_parallel :
    setting out "parallel_tool_calls" = setting body "parallel_tool_calls" ↔
      ((rawTools body).filterMap chatTool = [] → setting body "parallel_tool_calls" = none) := by
  have hout : setting out "parallel_tool_calls" =
      if ((rawTools body).filterMap chatTool).isEmpty then none
      else setting body "parallel_tool_calls" := by
    unfold setting
    rw [built.parallel, isEmpty_tools holds]
    split_ifs with hempty
    · rfl
    · exact field_extra holds (by decide)
  rw [hout]
  split_ifs with hempty
  · exact ⟨fun h _ => h.symm, fun h => (h (List.isEmpty_iff.mp hempty)).symm⟩
  · exact iff_of_true rfl fun hnil => absurd (List.isEmpty_iff.mpr hnil) hempty

theorem settings_tokens :
    setting out "max_output_tokens" =
        (setting body "max_completion_tokens").or (setting body "max_tokens") ↔
      (field body "max_completion_tokens" = some .null → setting body "max_tokens" = none) := by
  have hcompletion : field chat.extra "max_completion_tokens" = field body "max_completion_tokens" :=
    holds.extra _ (by decide)
  unfold setting at *
  rw [built.tokens]
  unfold maxOutputTokens
  rw [hcompletion, ← holds.maxTokens]
  cases field body "max_completion_tokens" with
  | none => exact iff_of_true (nonNull_nonNull _) (by simp)
  | some value =>
      rw [Option.some_or]
      by_cases hnull : value = .null
      · rw [hnull]
        exact ⟨fun h _ => h.symm, fun h => (h rfl).symm⟩
      · have hvalue : nonNull (some value) = some value := by
          cases value with
          | null => exact absurd rfl hnull
          | _ => rfl
        rw [hvalue]
        exact iff_of_true rfl fun h => absurd (Option.some.inj h) hnull

theorem settings_toolChoice :
    (setting out "tool_choice").map responsesToolChoice =
        (setting body "tool_choice").map chatToolChoice ↔
      ∀ value, setting body "tool_choice" = some value → ChoiceKept value := by
  rw [holds.toolChoice]
  unfold setting
  rw [built.toolChoice]
  cases chat.toolChoice with
  | none => exact iff_of_true rfl (by simp)
  | some value =>
      rw [Option.bind_some, Option.map_some, choice_iff]
      exact ⟨fun h _ hvalue => Option.some.inj hvalue ▸ h, fun h => h value rfl⟩

theorem settings_format :
    (setting out "text").bind responsesFormat = (setting body "response_format").bind chatFormat ↔
      ∀ value, setting body "response_format" = some value → FormatKept value := by
  rw [holds.responseFormat]
  unfold setting
  rw [built.text]
  cases chat.responseFormat with
  | none => exact iff_of_true rfl (by simp)
  | some value =>
      have hbound : (nonNull ((some value).map buildTextOptions)).bind responsesFormat =
          responsesFormat (buildTextOptions value) := rfl
      rw [hbound, Option.bind_some, format_iff]
      exact ⟨fun h _ hvalue => Option.some.inj hvalue ▸ h, fun h => h value rfl⟩

theorem settings_effort :
    nonNull ((setting out "reasoning").bind (·.get "effort")) = setting body "reasoning_effort" := by
  rw [holds.reasoningEffort]
  unfold setting
  rw [built.reasoning]
  cases chat.reasoningEffort <;> rfl

theorem settings_obfuscation :
    nonNull ((setting out "stream_options").bind (·.get "include_obfuscation")) =
      nonNull ((setting body "stream_options").bind (·.get "include_obfuscation")) := by
  rw [holds.streamOptions]
  unfold setting
  rw [built.streamOptions]
  cases chat.streamOptions.bind (·.get "include_obfuscation") <;> rfl

theorem settings_copied : otherCopied.map (setting out) = otherCopied.map (setting body) := by
  refine List.map_congr_left fun name hname => ?_
  have hother : ∀ key ∈ otherCopied, key ∉ "model" :: "stream" :: ChatRequest.names := by decide
  rw [← field_extra holds (hother name hname)]
  unfold setting
  rw [built.copied name hname]

/-- **What the built body holds is what was set, exactly if the settings are kept.** -/
theorem settings_eq_iff : responsesSettings out = chatSettings body ↔ SettingsKept body := by
  have htemperature : setting out "temperature" = none := by
    unfold setting
    rw [built.temperature]
    rfl
  have htopP : setting out "top_p" = setting body "top_p" := by
    rw [holds.topP, setting, built.topP, ← holds.topP]
    exact nonNull_nonNull _
  unfold responsesSettings chatSettings
  rw [Settings.mk.injEq, htemperature, settings_tokens holds built, settings_toolChoice holds built,
    settings_format holds built, settings_tools holds built, settings_parallel holds built]
  constructor
  · rintro ⟨hnone, -, htokens, hchoice, hformat, -, htools, -, hparallel, -⟩
    exact ⟨hnone.symm, htokens, hchoice, hformat, htools, hparallel⟩
  · intro h
    exact ⟨h.temperature.symm, htopP, h.tokens, h.toolChoice, h.format, settings_effort holds built,
      h.tools, settings_obfuscation holds built, h.parallel, settings_copied holds built⟩

end Whole

/-- **A chat keeps its settings on the way to the Responses API if and only if
it sets no temperature, nests no schema, sets parallel calls only with tools, and
its choice and its tools are of the kinds that are carried.** -/
theorem responses_settings_kept_iff (body : ExtensionMap) (request : LlmRequest) (chat : ChatRequest)
    (model : String) (stream : Bool) (out : ExtensionMap)
    (hrequest : normalizeChatCompletionsBody (.object body) = .ok request)
    (hchat : request.payload = .chat chat)
    (hout : buildChatResponsesRequestBody model stream chat = .ok out) :
    KeepsSettings body out ↔ SettingsKept body := by
  obtain ⟨body', chat', hbody, hpayload, hnormal⟩ := normalized_of_ok hrequest
  rw [hchat] at hpayload
  rw [← Json.object.inj hbody, ← LlmRequestPayload.chat.inj hpayload] at hnormal
  have hbuilt : Built chat out := built hout
  constructor
  · intro h
    exact (settings_eq_iff (holdsSettings hnormal) hbuilt).mp h.settings
  · intro h
    exact ⟨(settings_eq_iff (holdsSettings hnormal) hbuilt).mpr h, hbuilt.fields⟩

/-! ## Samples -/

def sampleBody (settings : ExtensionMap) : ExtensionMap :=
  [("model", .string "m"),
    ("messages", .array [.object [("role", .string "user"), ("content", .string "hi")]])] ++ settings

def sampleTool : Json :=
  .object [("type", .string "function"), ("function", .object [("name", .string "f"),
    ("parameters", .object [("type", .string "object")]), ("strict", .bool true)])]

/-- Settings that are kept. -/
def keptSettings : ExtensionMap :=
  [("top_p", .decimal "0.5"), ("max_tokens", .int 7), ("tool_choice", .string "auto"),
    ("reasoning_effort", .string "low"), ("tools", .array [sampleTool]),
    ("parallel_tool_calls", .bool false), ("user", .string "u")]

/-- The schema is lost with the object around it, and so is the temperature. -/
def lostSettings : ExtensionMap :=
  [("temperature", .int 1), ("response_format", .object [("type", .string "json_schema"),
    ("json_schema", .object [("name", .string "answer"), ("schema", .object []),
      ("strict", .bool true)])])]

theorem keptSettings_kept : SettingsKept (sampleBody keptSettings) := by
  refine ⟨rfl, fun h => absurd h (by simp [sampleBody, keptSettings]), fun value hvalue => ?_,
    fun value hvalue => absurd hvalue (by simp [setting, nonNull, sampleBody, keptSettings]),
    fun tool htool => ?_, fun hnil => absurd hnil (by simp [sampleBody, keptSettings, rawTools,
      asArray, sampleTool, chatTool, Json.strField])⟩
  · have hauto : setting (sampleBody keptSettings) "tool_choice" = some (.string "auto") := rfl
    rw [hauto] at hvalue
    exact .inl ⟨"auto", (Option.some.inj hvalue).symm⟩
  · have htools : rawTools (sampleBody keptSettings) = [sampleTool] := rfl
    rw [htools, List.mem_singleton] at htool
    rw [htool]
    refine ⟨fun _ value hvalue => ?_, fun htype => absurd htype (by simp [sampleTool, Json.strField])⟩
    have hstrict : nonNull (toolField sampleTool "strict") = some (.bool true) := rfl
    rw [hstrict] at hvalue
    exact ⟨true, (Option.some.inj hvalue).symm⟩

theorem responses_settings_kept_sample :
    ∃ request chat out, normalizeChatCompletionsBody (.object (sampleBody keptSettings)) = .ok request ∧
      request.payload = .chat chat ∧ buildChatResponsesRequestBody "m" false chat = .ok out ∧
        KeepsSettings (sampleBody keptSettings) out :=
  ⟨_, _, _, rfl, rfl, rfl,
    (responses_settings_kept_iff (sampleBody keptSettings) _ _ "m" false _ rfl rfl rfl).mpr
      keptSettings_kept⟩

/-- Neither the temperature nor the schema of the client is in the request. -/
theorem temperature_and_schema_lost :
    ∃ request chat out, normalizeChatCompletionsBody (.object (sampleBody lostSettings)) = .ok request ∧
      request.payload = .chat chat ∧ buildChatResponsesRequestBody "m" false chat = .ok out ∧
        (responsesSettings out).temperature = none ∧
          (chatSettings (sampleBody lostSettings)).temperature = some (.int 1) ∧
            (responsesSettings out).format = some { type := "json_schema" } ∧
              ¬KeepsSettings (sampleBody lostSettings) out := by
  refine ⟨_, _, _, rfl, rfl, rfl, rfl, rfl, rfl, fun h => ?_⟩
  have htemperature : (none : Option Json) = some (.int 1) :=
    congrArg Settings.temperature h.settings
  exact Option.some_ne_none _ htemperature.symm

end Conduit.Transformers.ChatSettings
