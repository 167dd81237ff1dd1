import Conduit.Transformers.ResponsesInput
import Conduit.Transformers.ResponsesRequest

/-!
# Chats as Responses input and back

The messages of a chat become items: one for the reasoning, one for the texts
and one for each call of an assistant message. Decoded, the items are messages
again. A conversation is its turns: what the assistant says in a row is one.

The conversation survives exactly if each run of assistant messages does.
-/

namespace Conduit.Transformers.ChatTurns

open Base Base.Json ResponsesRequest ResponsesInput

/-! ## Turns -/

inductive SaidCall
  | function (id : Option String) (name arguments : String)
  | custom (id : Option String) (name input : String)
deriving DecidableEq, Repr

/-- A call as its readers read it: they look a custom payload up as `response_custom_tool`. -/
def saidCall (toolCall : ToolCall) : SaidCall :=
  if toolCall.callType = "responses_custom_tool" then
    let part := fun (name : String) =>
      ((field toolCall.extra "response_custom_tool").bind
        fun custom => custom.strField name).getD ""
    .custom toolCall.id (part "name") (part "input")
  else .function toolCall.id toolCall.functionName toolCall.functionArguments

def textsOf (content : Option MessageContent) : List String :=
  match content with
  | some (.text text) => [text]
  | some (.parts parts) => partTexts parts
  | _ => []

inductive Turn
  | said (role : String) (texts : List String)
  | assistant (texts : List String) (calls : List SaidCall)
  | answer (callId : Option String) (texts : List String)
deriving DecidableEq, Repr

def turnOf (role : String) (content : Option MessageContent) (toolCalls : List ToolCall)
    (toolCallId : Option String) : Turn :=
  if role = "assistant" then .assistant (textsOf content) (toolCalls.map saidCall)
  else if role = "tool" then .answer toolCallId (textsOf content)
  else .said role (textsOf content)

def chatTurn (message : ChatMessage) : Turn :=
  turnOf message.role message.content message.toolCalls message.toolCallId

def inputTurn (message : InputMessage) : Turn :=
  turnOf (message.role.getD "") message.content message.toolCalls message.toolCallId

/-- The assistant goes on. -/
def addTurn : Turn → List Turn → List Turn
  | .assistant texts calls, .assistant texts' calls' :: turns =>
      .assistant (texts ++ texts') (calls ++ calls') :: turns
  | turn, turns => turn :: turns

def mergeTurns (turns : List Turn) : List Turn := turns.foldr addTurn []

/-! ## Chats -/

/-- A call as `convert_output_to_message` makes it. -/
inductive UnifiedCall : ToolCall → Prop
  | function (id name arguments : String) :
      UnifiedCall {
        id := some id
        callType := "function"
        function := .object [("name", .string name), ("arguments", .string arguments)] }
  | custom (id name input : String) :
      UnifiedCall {
        id := some id
        callType := "responses_custom_tool"
        function := .object []
        extra := [("response_custom_tool", .object
          [("call_id", .string id), ("name", .string name), ("input", .string input)])] }

inductive TextContent : MessageContent → Prop
  | text (value : String) : TextContent (.text value)
  | parts (parts : List ContentPart)
      (h : ∀ part ∈ parts, part.partType = "text" ∧ part.text.isSome = true) :
      TextContent (.parts parts)

/-- Only an assistant may have nothing to say, and only a tool answers a call. -/
structure WellFormed (message : ChatMessage) : Prop where
  role : message.role ∈ ["system", "developer", "user", "assistant", "tool"]
  content : ∀ content ∈ message.content, TextContent content
  present : message.role ≠ "assistant" → message.content.isSome = true
  calls : ∀ toolCall ∈ message.toolCalls, UnifiedCall toolCall
  answered : message.role = "tool" → message.toolCallId.isSome = true

/-- The messages that are no instructions. -/
def spoken (chat : ChatRequest) : List ChatMessage :=
  chat.messages.filter fun message => message.role ≠ "system"

/-- The system prompt outside of the messages, and the text of each system message. -/
def systemTexts (chat : ChatRequest) : List String :=
  (field chat.extra "system").elim [] collectInstructionValue ++
    ((chat.messages.filter fun message => message.role = "system").map fun message =>
      "\n".intercalate (textsOf message.content)).filter (· ≠ "")

/-- The chat reads the same after encoding and decoding, and its instructions
are the system texts, each once and in order. -/
structure Survives (chat : ChatRequest) : Prop where
  conversation : ∃ messages : List InputMessage,
    convertResponsesInputToMessages (convertChatMessagesToResponsesInput chat) = .ok messages ∧
      mergeTurns (messages.map inputTurn) = mergeTurns ((spoken chat).map chatTurn)
  instructions : convertChatInstructions chat = "\n".intercalate (systemTexts chat)

/-! ## What survives -/

def isAssistant (message : ChatMessage) : Bool := message.role = "assistant"

def hasReasoning (message : ChatMessage) : Bool := (reasoningItem message).isSome

def hasTexts (message : ChatMessage) : Bool := !(textsOf message.content).isEmpty

/-- Nothing is written for the message. -/
def Silent (message : ChatMessage) : Prop :=
  hasReasoning message = false ∧ hasTexts message = false ∧ message.toolCalls = []

/-- From a message with reasoning to the next such, one message has texts at most. -/
def OneText : List ChatMessage → Prop
  | [] => True
  | message :: messages =>
      (hasReasoning message = true →
        ((message :: messages.takeWhile (!hasReasoning ·)).filter hasTexts).length ≤ 1) ∧
        OneText messages

/-- A custom call that says nothing, or a call of a function. -/
def Bare : SaidCall → Prop
  | .custom _ name input => name = "" ∧ input = ""
  | .function .. => True

/-- Of messages of the assistant in a row, one at least says something. -/
structure RunSurvives (run : List ChatMessage) : Prop where
  heard : ∃ message ∈ run, ¬Silent message
  oneText : OneText run
  bare : ∀ message ∈ run, ∀ toolCall ∈ message.toolCalls, Bare (saidCall toolCall)

theorem dropWhile_length_lt (message : ChatMessage) (messages : List ChatMessage) :
    (messages.dropWhile isAssistant).length < (message :: messages).length :=
  Nat.lt_succ_of_le (List.dropWhile_suffix _).length_le

/-- Each run of assistant messages survives. -/
def RunsSurvive : List ChatMessage → Prop
  | [] => True
  | message :: messages =>
      if isAssistant message then
        RunSurvives (message :: messages.takeWhile isAssistant) ∧
          RunsSurvive (messages.dropWhile isAssistant)
      else RunsSurvive messages
termination_by messages => messages.length
decreasing_by
  · exact dropWhile_length_lt message messages
  · exact Nat.lt_succ_self _

/-- A single text is sent as a string, which comes back as the user's. -/
def RoleKept (chat : ChatRequest) : Prop :=
  ∀ message text, chat.messages = [message] → message.content = some (.text text) →
    message.role = "user" ∨ message.role = "system"

end Conduit.Transformers.ChatTurns
