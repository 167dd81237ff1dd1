import Conduit.Transformers.OpenAiCodec
import Conduit.Transformers.Request

/-!
# The body of a chat completion

A chat request as the client sends it: `model`, `stream` and the tools are taken
out of the body, and the rest is decoded. The fields of a tool's `function` go
to the tool itself, where the fields already there come second.
-/

namespace Conduit.Transformers

open Base Base.Json

/-! ## Messages -/

namespace ChatMessage

def names : List String := ["role", "name", "content", "tool_calls", "tool_call_id"]

def decode (value : Json) : Option ChatMessage := do
  let fields ← value.asObject
  guard (namesOnce names fields)
  return {
    role := ← fieldRequired asStr fields "role"
    name := ← fieldOption asStr fields "name"
    content := ← fieldOption (fun content => some (MessageContent.decode content)) fields "content"
    toolCalls := ← fieldOr [] (decodeList ToolCall.decode) fields "tool_calls"
    toolCallId := ← fieldOption asStr fields "tool_call_id"
    extra := otherFields names fields }

end ChatMessage

/-! ## Tools -/

/-- `merge_keys`: the first write wins. -/
def mergeKeys (dst : ExtensionMap) : ExtensionMap → ExtensionMap
  | [] => dst
  | (key, value) :: src =>
      mergeKeys (if (field dst key).isSome then dst else dst ++ [(key, value)]) src

namespace UnifiedTool

def names : List String := ["type", "name", "description", "parameters"]

def decode (value : Json) : Option UnifiedTool := do
  let fields ← value.asObject
  guard (namesOnce names fields)
  return {
    toolType := ← fieldRequired asStr fields "type"
    name := ← fieldOption asStr fields "name"
    description := ← fieldOption asStr fields "description"
    parameters := ← fieldOption some fields "parameters"
    extra := otherFields names fields }

end UnifiedTool

/-- The fields of `function`, or a field of that name if it is no object. -/
def functionExtra (fields : ExtensionMap) : ExtensionMap :=
  match field fields "function" with
  | some (.object function) => mergeKeys [] function
  | some other => [("function", other)]
  | none => []

def buildUnifiedTool (item : Json) : Except String UnifiedTool :=
  match item.asObject with
  | none => .error "OpenAI inbound field \x60tools[*]\x60 must be an object"
  | some fields =>
      match fieldOr "" asStr fields "type" with
      | none => .error "OpenAI inbound field \x60tools[*].type\x60 must be a string"
      | some toolType =>
          .ok {
            toolType := toolType
            extra := mergeKeys (functionExtra fields) (remove "function" (remove "type" fields)) }

def buildUnifiedTools (raw : Option Json) : Except String (List UnifiedTool) :=
  match raw with
  | none => .ok []
  | some (.array items) => items.mapM buildUnifiedTool
  | some _ => .error "OpenAI inbound field \x60tools\x60 must be an array"

/-! ## Requests -/

namespace ChatRequest

def names : List String :=
  ["messages", "tools", "functions", "tool_choice", "response_format", "stream_options",
    "reasoning_effort", "temperature", "top_p", "max_tokens", "stop"]

/-- A floating-point number: every JSON number is one. -/
def asNumber : Json → Option Json
  | .int value => some (.int value)
  | .decimal text => some (.decimal text)
  | _ => none

def asU32 : Json → Option UInt32
  | .int (.ofNat n) => if n < UInt32.size then some (UInt32.ofNat n) else none
  | _ => none

def decode (fields : ExtensionMap) : Option ChatRequest := do
  guard (namesOnce names fields)
  return {
    messages := ← fieldOr [] (decodeList ChatMessage.decode) fields "messages"
    tools := ← fieldOr [] (decodeList UnifiedTool.decode) fields "tools"
    functions := ← fieldOr [] asArray fields "functions"
    toolChoice := ← fieldOption some fields "tool_choice"
    responseFormat := ← fieldOption some fields "response_format"
    streamOptions := ← fieldOption some fields "stream_options"
    reasoningEffort := ← fieldOption asStr fields "reasoning_effort"
    temperature := ← fieldOption asNumber fields "temperature"
    topP := ← fieldOption asNumber fields "top_p"
    maxTokens := ← fieldOption asU32 fields "max_tokens"
    stop := ← fieldOption some fields "stop"
    extra := otherFields names fields }

end ChatRequest

/-! ## Normalization -/

def bodyObject (body : Json) : Except String ExtensionMap :=
  body.asObject.elim (.error "OpenAI inbound request body must be a JSON object") .ok

/-- `take_optional_string`, `take_optional_bool`: a field of one type. -/
def takeOptional {α : Type} (decode : Json → Option α) (expected : String) (object : ExtensionMap)
    (key : String) : Except String (Option α) :=
  match field object key with
  | none => .ok none
  | some value =>
      match decode value with
      | some a => .ok (some a)
      | none => .error ("OpenAI inbound field \x60" ++ key ++ "\x60 must be " ++ expected)

def validateMessagesPresent (messages : Option Json) : Except String Unit :=
  match messages with
  | none => .error "messages are required"
  | some .null => .error "messages are required"
  | some (.array []) => .error "messages are required"
  | some _ => .ok ()

def validateStreamOptions (streamOptions : Option Json) : Except String Unit :=
  match streamOptions with
  | none => .ok ()
  | some (.object fields) =>
      match field fields "include_usage" with
      | none => .ok ()
      | some (.bool _) => .ok ()
      | some _ =>
          .error "OpenAI inbound field \x60stream_options.include_usage\x60 must be a boolean"
  | some _ => .error "OpenAI inbound field \x60stream_options\x60 must be an object"

/-- The body without what is taken out of it. -/
def chatObject (object : ExtensionMap) : ExtensionMap :=
  remove "tools" (remove "stream" (remove "model" object))

def normalizeChatCompletionsBody (body : Json) : Except String LlmRequest := do
  let object ← bodyObject body
  let model ← takeOptional asStr "a string" object "model"
  let model ← model.elim (.error "model is required") .ok
  validateMessagesPresent (field object "messages")
  let stream ← takeOptional asBool "a boolean" object "stream"
  validateStreamOptions (field object "stream_options")
  let payload ←
    (ChatRequest.decode (chatObject object)).elim (.error "invalid OpenAI inbound request body") .ok
  let tools ← buildUnifiedTools (field object "tools")
  return {
    requestType := .chat
    apiFormat := .openAiChatCompletions
    model := some model
    stream := stream.getD false
    payload := .chat { payload with tools := tools } }

/-! ## What is normalized -/

theorem field_mergeKeys (dst src : ExtensionMap) (name : String) :
    field (mergeKeys dst src) name = (field dst name).or (field src name) := by
  induction src generalizing dst with
  | nil => exact (Option.or_none).symm
  | cons entry src ih =>
      obtain ⟨key, value⟩ := entry
      rw [mergeKeys, ih, field_cons]
      by_cases hdst : (field dst key).isSome = true
      · rw [if_pos hdst]
        by_cases hname : name = key
        · obtain ⟨found, hfound⟩ := Option.isSome_iff_exists.mp hdst
          rw [if_pos hname, hname, hfound]
          rfl
        · rw [if_neg hname]
      · rw [if_neg hdst, field_append, field_cons, field_nil]
        by_cases hname : name = key
        · rw [if_pos hname, if_pos hname, Option.or_assoc]
          rfl
        · rw [if_neg hname, if_neg hname, Option.or_none]

/-- Where the chat of a normalized body comes from. -/
structure Normalized (object : ExtensionMap) (chat : ChatRequest) : Prop where
  decoded : ∃ payload tools, ChatRequest.decode (chatObject object) = some payload ∧
    buildUnifiedTools (field object "tools") = .ok tools ∧ chat = { payload with tools := tools }

theorem normalized_of_ok {body : Json} {request : LlmRequest}
    (h : normalizeChatCompletionsBody body = .ok request) :
    ∃ object chat, body = .object object ∧ request.payload = .chat chat ∧ Normalized object chat := by
  unfold normalizeChatCompletionsBody at h
  simp only [bind, Except.bind, pure, Except.pure] at h
  cases body with
  | object object =>
      simp only [bodyObject, asObject, Option.elim_some] at h
      split at h
      · exact absurd h (by simp)
      split at h
      · exact absurd h (by simp)
      split at h
      · exact absurd h (by simp)
      split at h
      · exact absurd h (by simp)
      split at h
      · exact absurd h (by simp)
      cases hpayload : ChatRequest.decode (chatObject object) with
      | none =>
          rw [hpayload] at h
          exact absurd h (by simp)
      | some payload =>
          rw [hpayload] at h
          simp only [Option.elim_some] at h
          cases htools : buildUnifiedTools (field object "tools") with
          | error e =>
              rw [htools] at h
              exact absurd h (by simp)
          | ok tools =>
              rw [htools] at h
              rw [← Except.ok.inj h]
              exact ⟨object, _, rfl, rfl, payload, tools, hpayload, htools, rfl⟩
  | _ => exact absurd h (by simp [bodyObject, asObject])

end Conduit.Transformers
