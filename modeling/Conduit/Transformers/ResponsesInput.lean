import Conduit.Transformers.Unified

/-!
# The input of the Responses API

`input` is a string or a list of items, which become unified messages. An item
becomes a message of its own, except after a reasoning item: this one takes the
calls and the assistant messages that follow it into its own message.
-/

namespace Conduit.Transformers

open Base Base.Json

/-- The unified message with the slots of a tool's answer. -/
structure InputMessage extends LlmMessage where
  toolCallId : Option String := none
  toolCallName : Option String := none

namespace ResponsesInput

/-! ## Content -/

def typeOf (item : Json) : String := (item.strField "type").getD ""

/-- A string that is not empty. -/
def nonEmptyStr (item : Json) (name : String) : Option String :=
  (item.strField name).filter (· ≠ "")

def contentPartIdExtra (item : Json) : ExtensionMap :=
  optionalField "id" ((item.strField "id").map .string)

def compactContentPartExtra (item : Json) : ExtensionMap :=
  [("compact", .object
    (optionalField "id" ((item.strField "id").map .string) ++
      optionalField "encrypted_content" ((item.strField "encrypted_content").map .string) ++
      optionalField "created_by" ((item.strField "created_by").map .string)))]

/-- The `image_url` of a part: `url` and `detail`. -/
def imageUrlOf (item : Json) : Option Json :=
  (item.strField "image_url").map fun url =>
    .object ([("url", .string url)] ++ optionalField "detail" ((nonEmptyStr item "detail").map .string))

def convertContentItemToPart (item : Json) : Option ContentPart :=
  let itemType := typeOf item
  if itemType = "input_text" ∨ itemType = "text" ∨ itemType = "output_text" then
    (item.strField "text").map fun text =>
      { partType := "text", text := some text, extra := contentPartIdExtra item }
  else if itemType = "input_image" then
    (imageUrlOf item).map fun url =>
      { partType := "image_url", imageUrl := some url, extra := contentPartIdExtra item }
  else if itemType = "compaction" ∨ itemType = "compaction_summary" then
    some { partType := itemType, extra := compactContentPartExtra item }
  else none

/-- A single text part is its text. -/
def collapse : List ContentPart → Option MessageContent
  | [] => none
  | [part] =>
      if part.partType = "text" ∨ part.partType = "input_text" then
        some (part.text.elim (.parts [part]) .text)
      else some (.parts [part])
  | parts => some (.parts parts)

def convertItemContentToMessageContent (item : Json) : Option MessageContent :=
  match item.strField "text" with
  | some text => some (.text text)
  | none =>
      (item.get "content").bind fun content =>
        match content.asStr with
        | some text => some (.text text)
        | none =>
            match content.asArray with
            | some parts => collapse (parts.filterMap convertContentItemToPart)
            | none => some (.json content)

/-! ## Calls -/

def convertFunctionCallToToolCall (item : Json) : Option ToolCall :=
  (item.strField "call_id").map fun callId =>
    { id := some callId
      callType := "function"
      function := .object
        ([("name", .string ((item.strField "name").getD "")),
          ("arguments", .string ((item.strField "arguments").getD ""))] ++
          optionalField "namespace" ((nonEmptyStr item "namespace").map .string)) }

def convertCustomToolCallToToolCall (item : Json) : Option ToolCall :=
  (item.strField "call_id").map fun callId =>
    { id := some callId
      callType := "responses_custom_tool"
      function := .object []
      extra := [("response_custom_tool_call", .object
        [("call_id", .string callId), ("name", .string ((item.strField "name").getD "")),
          ("input", .string ((item.strField "input").getD ""))])] }

/-! ## Items -/

def convertToolCallOutputMessage (item : Json) : Except String InputMessage :=
  match item.get "output" with
  | none => .error ((item.strField "type").getD "tool_call_output" ++ " item must have non-nil Output")
  | some output =>
      .ok {
        role := some "tool"
        content := convertItemContentToMessageContent (.object [("content", output)])
        toolCallId := item.strField "call_id"
        toolCallName := nonEmptyStr item "name" }

def isMessageType (itemType : String) : Bool :=
  itemType = "message" ∨ itemType = "input_text" ∨ itemType = ""

def isOutputType (itemType : String) : Bool :=
  itemType = "function_call_output" ∨ itemType = "custom_tool_call_output"

def isCompactionType (itemType : String) : Bool :=
  itemType = "compaction" ∨ itemType = "compaction_summary"

def assistantCall (toolCall : ToolCall) : InputMessage :=
  { role := some "assistant", toolCalls := [toolCall] }

def convertItemToMessage (item : Json) : Except String (Option InputMessage) :=
  let itemType := typeOf item
  if isMessageType itemType then
    .ok (some {
      id := item.strField "id"
      role := item.strField "role"
      content := convertItemContentToMessageContent item })
  else if itemType = "input_image" then
    .ok ((imageUrlOf item).map fun url => {
      role := some ((nonEmptyStr item "role").getD "user")
      content := some (.parts [{ partType := "image_url", imageUrl := some url }]) })
  else if itemType = "function_call" then
    .ok ((convertFunctionCallToToolCall item).map assistantCall)
  else if itemType = "custom_tool_call" then
    .ok ((convertCustomToolCallToToolCall item).map assistantCall)
  else if isOutputType itemType then (convertToolCallOutputMessage item).map some
  else if isCompactionType itemType then
    .ok (some {
      id := item.strField "id"
      role := some "assistant"
      content := some (.parts [{ partType := itemType, extra := compactContentPartExtra item }]) })
  else .ok none

/-! ## Reasoning -/

/-- The texts of the summary, one after the other. -/
def summaryText (item : Json) : String :=
  match item.get "summary" with
  | some (.array summaries) => String.join (summaries.filterMap fun summary => summary.strField "text")
  | _ => ""

/-- The message a reasoning item starts. -/
def reasoningMessage (item : Json) : InputMessage :=
  { role := some "assistant"
    reasoningSignature := item.strField "encrypted_content"
    reasoningContent := if summaryText item = "" then none else some (summaryText item) }

def addCall (message : InputMessage) (toolCall : Option ToolCall) : InputMessage :=
  { message with toolCalls := message.toolCalls ++ toolCall.toList }

/-- An assistant message on top: its id and its content, if it has them. -/
def overlay (message : InputMessage) (item : Json) : InputMessage :=
  { message with
    id := (item.strField "id").or message.id
    content := (convertItemContentToMessageContent item).or message.content }

/-- The look-ahead, with the items it has taken. -/
def mergeFollowing (message : InputMessage) (consumed : Nat) : List Json → InputMessage × Nat
  | [] => (message, consumed)
  | next :: items =>
      let nextType := typeOf next
      if nextType = "function_call" then
        mergeFollowing (addCall message (convertFunctionCallToToolCall next)) (consumed + 1) items
      else if nextType = "custom_tool_call" then
        mergeFollowing (addCall message (convertCustomToolCallToToolCall next)) (consumed + 1) items
      else if isMessageType nextType then
        if next.strField "role" = some "assistant" then
          mergeFollowing (overlay message next) (consumed + 1) items
        else (message, consumed)
      else (message, consumed)

def convertReasoningWithFollowing (item : Json) (following : List Json) : InputMessage × Nat :=
  mergeFollowing (reasoningMessage item) 1 following

theorem le_mergeFollowing (message : InputMessage) (consumed : Nat) (items : List Json) :
    consumed ≤ (mergeFollowing message consumed items).2 := by
  induction items generalizing message consumed with
  | nil => exact Nat.le_refl _
  | cons next items ih =>
      unfold mergeFollowing
      dsimp only
      split_ifs
      · exact Nat.le_trans (Nat.le_succ consumed) (ih _ _)
      · exact Nat.le_trans (Nat.le_succ consumed) (ih _ _)
      · exact Nat.le_trans (Nat.le_succ consumed) (ih _ _)
      · exact Nat.le_refl _
      · exact Nat.le_refl _

theorem drop_reasoning_lt (item : Json) (items : List Json) :
    ((item :: items).drop (convertReasoningWithFollowing item items).2).length <
      (item :: items).length := by
  have hconsumed : 1 ≤ (convertReasoningWithFollowing item items).2 := le_mergeFollowing _ _ _
  rw [List.length_drop, List.length_cons]
  omega

def convertResponsesInputItems : List Json → Except String (List InputMessage)
  | [] => .ok []
  | item :: items =>
      if typeOf item = "reasoning" then
        (convertResponsesInputItems
          ((item :: items).drop (convertReasoningWithFollowing item items).2)).map
            ((convertReasoningWithFollowing item items).1 :: ·)
      else
        match convertItemToMessage item with
        | .error e => .error e
        | .ok message => (convertResponsesInputItems items).map (message.toList ++ ·)
termination_by items => items.length
decreasing_by
  · exact drop_reasoning_lt item items
  · exact Nat.lt_succ_self _

def convertResponsesInputToMessages (input : Json) : Except String (List InputMessage) :=
  match input with
  | .null => .ok []
  | .string text => .ok [{ role := some "user", content := some (.text text) }]
  | .array items => convertResponsesInputItems items
  | other =>
      .error ("OpenAI Responses \x60input\x60 must be a string or array of items (got " ++ other.render ++ ")")

end ResponsesInput

end Conduit.Transformers
