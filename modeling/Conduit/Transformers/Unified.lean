import Conduit.Base.Json
import Conduit.Base.Text

/-!
# Unified responses

The response shape every provider is converted into and every client format
is produced from; a stream is a list of them. Left out are annotations, audio,
log probabilities, the provider-typed sub-responses and the flattened maps no
modelled function reads.
-/

namespace Conduit.Transformers

open Base

/-- `ExtensionMap`. -/
abbrev ExtensionMap := List (String × Json)

/-! ## Usage -/

structure TokenDetails where
  cachedTokens : UInt64 := 0
  writeCachedTokens : UInt64 := 0
  writeCachedTokens5m : UInt64 := 0
  writeCachedTokens1h : UInt64 := 0
  audioTokens : UInt64 := 0
  reasoningTokens : UInt64 := 0
  acceptedPredictionTokens : UInt64 := 0
  rejectedPredictionTokens : UInt64 := 0
deriving DecidableEq, Repr

structure Usage where
  promptTokens : UInt64 := 0
  completionTokens : UInt64 := 0
  totalTokens : UInt64 := 0
  promptDetails : TokenDetails := {}
  completionDetails : TokenDetails := {}
deriving DecidableEq, Repr

/-- `u64::saturating_sub`. -/
def saturatingSub (a b : UInt64) : UInt64 := if b ≤ a then a - b else 0

/-- `u64::saturating_add`. -/
def saturatingAdd (a b : UInt64) : UInt64 :=
  if a.toNat + b.toNat < UInt64.size then a + b else UInt64.ofNat (UInt64.size - 1)

/-! ## Messages -/

structure ContentPart where
  partType : String
  text : Option String := none
  imageUrl : Option Json := none
  extra : ExtensionMap := []

inductive MessageContent
  | text (value : String)
  | parts (values : List ContentPart)
  | json (value : Json)

structure ToolCall where
  id : Option String := none
  callType : String
  function : Json
  extra : ExtensionMap := []

/-- A tool result inside the assistant's turn. -/
structure InlineToolResult where
  toolCallId : Option String := none
  output : Option String := none
  isError : Bool := false
  transformerMetadata : ExtensionMap := []

structure LlmMessage where
  id : Option String := none
  role : Option String := none
  content : Option MessageContent := none
  refusal : Option String := none
  toolCalls : List ToolCall := []
  reasoningContent : Option String := none
  reasoningSignature : Option String := none
  redactedReasoningContent : Option String := none
  inlineToolResults : List InlineToolResult := []

/-! ## Responses -/

structure ErrorDetail where
  code : String := ""
  message : String := ""
  detailType : String := ""
  param : String := ""
  requestId : String := ""
deriving DecidableEq, Repr

structure ResponseError where
  statusCode : Nat := 0
  detail : ErrorDetail := {}
deriving DecidableEq, Repr

/-- A choice: `message` in a whole response, `delta` in a chunk of a stream. -/
structure Choice where
  index : Int := 0
  message : Option LlmMessage := none
  delta : Option LlmMessage := none
  finishReason : Option String := none

structure LlmResponse where
  id : String := ""
  choices : List Choice := []
  object : String := ""
  created : Int := 0
  model : String := ""
  previousResponseId : Option String := none
  usage : Option Usage := none
  error : Option ResponseError := none
  transformerMetadata : ExtensionMap := []

/-! ## Tool calls -/

namespace ToolCall

/-- `tool_call_index`. -/
def index (toolCall : ToolCall) : Int := ((Json.field toolCall.extra "index").bind Json.asI64).getD 0

/-- `function_name`. -/
def functionName (toolCall : ToolCall) : String :=
  ((toolCall.function.get "name").bind Json.asStr).getD ""

/-- `function_arguments`. -/
def functionArguments (toolCall : ToolCall) : String :=
  ((toolCall.function.get "arguments").bind Json.asStr).getD ""

/-- A field of the transformer metadata that streamed tool calls carry. -/
def metadata (toolCall : ToolCall) (name : String) : Option Json :=
  (Json.field toolCall.extra "transformer_metadata").bind fun metadata => metadata.get name

end ToolCall

end Conduit.Transformers
