import Conduit.Pipeline.Http
import Conduit.Transformers.Unified

/-!
# Unified requests

The request every client format is converted into and every provider's
request is produced from. A floating-point setting is its JSON number; the
payloads that are no chat are their JSON value.
-/

namespace Conduit.Transformers

open Base Pipeline

/-! ## Chats -/

structure ChatMessage where
  role : String
  name : Option String := none
  content : Option MessageContent := none
  toolCalls : List ToolCall := []
  toolCallId : Option String := none
  extra : ExtensionMap := []

structure UnifiedTool where
  toolType : String
  name : Option String := none
  description : Option String := none
  parameters : Option Json := none
  extra : ExtensionMap := []

structure ChatRequest where
  messages : List ChatMessage := []
  tools : List UnifiedTool := []
  functions : List Json := []
  toolChoice : Option Json := none
  responseFormat : Option Json := none
  streamOptions : Option Json := none
  reasoningEffort : Option String := none
  temperature : Option Json := none
  topP : Option Json := none
  maxTokens : Option UInt32 := none
  stop : Option Json := none
  extra : ExtensionMap := []

/-! ## Requests -/

inductive RequestType
  | chat
  | embedding
  | rerank
  | image
  | video
  | compact
  | completion
  | speech
  | transcription
  | translation
deriving DecidableEq, Repr

inductive LlmRequestPayload
  | chat (request : ChatRequest)
  | completion (request : Json)
  | responses (request : Json)
  | embedding (request : Json)
  | rerank (request : Json)
  | image (request : Json)
  | video (request : Json)
  | audio (request : Json)

structure LlmRequest where
  requestType : RequestType
  apiFormat : ApiFormat
  model : Option String := none
  stream : Bool := false
  payload : LlmRequestPayload
  extraBody : ExtensionMap := []
  extraHeaders : List (String × String) := []
  metadata : ExtensionMap := []
  extra : ExtensionMap := []

end Conduit.Transformers
