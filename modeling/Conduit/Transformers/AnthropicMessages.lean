import Conduit.Transformers.Request
import Mathlib

/-!
# Chat messages for Anthropic

Anthropic takes the results of an assistant message's tool calls in the user
turn right after it, so the converter pulls them forward from wherever they
are. It marks every message it has used; a user message may also be marked by
its message index. The turns are first lists of message positions, so that what
is kept, moved or lost can be said; their JSON comes last.
-/

namespace Conduit.Transformers.AnthropicMessages

open Base Base.Json

/-! ## Turns -/

/-- A block of a user turn with tool results: the result of a tool message, or
the text of a user message. -/
inductive Block
  | result (position : Nat)
  | text (position : Nat)
deriving DecidableEq, Repr

/-- A turn and the positions of the messages it is made of. -/
inductive Turn
  | assistant (position : Nat)
  | user (position : Nat)
  | results (blocks : List Block)
deriving DecidableEq, Repr

/-- `message_index_of`. -/
def messageIndexOf (message : ChatMessage) : Option Int :=
  (field message.extra "message_index").bind asI64

/-- What the conversion has used so far, and the turns it has made. -/
structure Conversion where
  processed : List Nat := []
  processedToolCallIds : List String := []
  out : List Turn := []

/-- The messages without those of the system prompt. -/
def nonSystem (messages : List ChatMessage) : List ChatMessage :=
  messages.filter fun message => message.role ≠ "system" ∧ message.role ≠ "developer"

section Convert

variable (messages : List ChatMessage)

/-- The user messages that are not used yet and share one of the indexes. -/
def relatedUsers (processed : List Nat) (indexes : List Int) : List Nat :=
  (List.range messages.length).filter fun j =>
    j ∉ processed ∧ (messages[j]?).any fun message =>
      message.role = "user" ∧ (messageIndexOf message).any fun index => index ∈ indexes

/-- Blocks in the making, with the message indexes of their results. -/
structure Blocks where
  blocks : List Block := []
  indexes : List Int := []
  processed : List Nat
  processedToolCallIds : List String

/-- Takes the result at a position. -/
def Blocks.take (b : Blocks) (position : Nat) (message : ChatMessage) : Blocks where
  blocks := b.blocks ++ [.result position]
  indexes := b.indexes ++ (messageIndexOf message).toList
  processed := position :: b.processed
  processedToolCallIds :=
    match message.toolCallId with
    | some id => if id = "" then b.processedToolCallIds else id :: b.processedToolCallIds
    | none => b.processedToolCallIds

/-- Folds in the user messages that share an index with a result. -/
def Blocks.withRelated (b : Blocks) : Blocks :=
  let related := relatedUsers messages b.processed b.indexes
  { b with blocks := b.blocks ++ related.map .text, processed := related ++ b.processed }

/-- The run of tool messages from a position on. -/
def groupRun : List ChatMessage → Nat → Blocks → Blocks × Nat
  | [], position, b => (b, position)
  | message :: rest, position, b =>
      if message.role = "tool" then
        if message.toolCallId.any fun id => id ≠ "" ∧ id ∈ b.processedToolCallIds then
          groupRun rest (position + 1) b
        else groupRun rest (position + 1) (b.take position message)
      else (b, position)

/-- `group_consecutive_tool_results`. -/
def groupConsecutiveToolResults (start : Nat) (s : Conversion) : Blocks × Nat :=
  let (b, next) := groupRun (messages.drop start) start
    { processed := s.processed, processedToolCallIds := s.processedToolCallIds }
  (b.withRelated messages, next)

/-- The position of the first result of a call. -/
def resultPosition (id : String) : Option Nat :=
  (List.range messages.length).find? fun k =>
    (messages[k]?).any fun message => message.role = "tool" ∧ message.toolCallId = some id

def pairCall (b : Blocks) (toolCall : ToolCall) : Blocks :=
  match toolCall.id with
  | none => b
  | some id =>
      if id = "" ∨ id ∈ b.processedToolCallIds then b
      else
        match resultPosition messages id with
        | none => b
        | some position =>
            { blocks := b.blocks ++ [.result position]
              indexes := b.indexes ++ ((messages[position]?).bind messageIndexOf).toList
              processed := position :: b.processed
              processedToolCallIds := id :: b.processedToolCallIds }

/-- `find_tool_results_for_assistant`. -/
def findToolResultsForAssistant (toolCalls : List ToolCall) (s : Conversion) : Blocks :=
  (toolCalls.foldl (pairCall messages)
    { processed := s.processed, processedToolCallIds := s.processedToolCallIds }).withRelated messages

/-- The conversion after the blocks, which are a turn unless there are none. -/
def Conversion.withBlocks (s : Conversion) (b : Blocks) : Conversion where
  processed := b.processed
  processedToolCallIds := b.processedToolCallIds
  out := if b.blocks.isEmpty then s.out else s.out ++ [.results b.blocks]

def Conversion.push (s : Conversion) (position : Nat) (turn : Turn) : Conversion :=
  { s with processed := position :: s.processed, out := s.out ++ [turn] }

/-- One turn of the loop: the state after it and the position it goes on with. -/
def visit (i : Nat) (message : ChatMessage) (s : Conversion) : Conversion × Nat :=
  if i ∈ s.processed then (s, i + 1)
  else if message.role = "tool" then
    let (b, next) := groupConsecutiveToolResults messages i s
    (s.withBlocks b, next)
  else if message.role = "user" then
    if (messageIndexOf message).any fun index => 0 ≤ index ∧ index.toNat ∈ s.processed then
      (s, i + 1)
    else (s.push i (.user i), i + 1)
  else if message.role = "assistant" then
    let s := s.push i (.assistant i)
    if message.toolCalls.isEmpty then (s, i + 1)
    else
      let b := findToolResultsForAssistant messages message.toolCalls s
      let s := s.withBlocks b
      if ¬ b.blocks.isEmpty then (s, i + 1)
      else if (messages[i + 1]?).any fun next => next.role = "tool" then
        let (group, next) := groupConsecutiveToolResults messages (i + 1) s
        let s := s.withBlocks group
        if group.blocks.isEmpty then (s, i + 1) else (s, next)
      else (s, i + 1)
  else (s.push i (.user i), i + 1)

def loop : Nat → Nat → Conversion → Conversion
  | 0, _, s => s
  | fuel + 1, i, s =>
      match messages[i]? with
      | none => s
      | some message =>
          let (s, next) := visit messages i message s
          loop fuel next s

/-- The turns of `convert_anthropic_messages`. Each turn of the loop goes on. -/
def convertedTurns : List Turn := (loop messages messages.length 0 {}).out

end Convert

/-! ## Their JSON -/

def textBlock (text : String) : Json := .object [("type", .string "text"), ("text", .string text)]

/-- The texts of the text parts. -/
def partTexts (parts : List ContentPart) : List String :=
  parts.filterMap fun part => if part.partType = "text" then part.text else none

/-- `extract_user_content_blocks`. -/
def extractUserContentBlocks (message : ChatMessage) : List Json :=
  match message.content with
  | some (.text text) => if text = "" then [] else [textBlock text]
  | some (.parts parts) => ((partTexts parts).filter fun text => text ≠ "").map textBlock
  | _ => []

/-- `user_message_value`. -/
def userMessageValue (message : ChatMessage) : Json :=
  .object [("role", .string message.role),
    ("content",
      match message.content with
      | some (.text text) => .string text
      | some (.parts parts) => .array ((partTexts parts).map textBlock)
      | some (.json value) => value
      | none => .string "")]

section Value

-- `serde_json::from_str`
variable (fromStr : String → Option Json)

def toolUseBlock (toolCall : ToolCall) : Json :=
  .object [("type", .string "tool_use"), ("id", .string (toolCall.id.getD "")),
    ("name", .string toolCall.functionName),
    ("input",
      (fromStr (((toolCall.function.get "arguments").bind asStr).getD "\x7b\x7d")).getD (.object []))]

/-- `assistant_message_value`. -/
def assistantMessageValue (message : ChatMessage) : Json :=
  let blocks := extractUserContentBlocks message ++ message.toolCalls.map (toolUseBlock fromStr)
  .object [("role", .string "assistant"),
    ("content", .array (if blocks.isEmpty then [textBlock ""] else blocks))]

/-- `tool_result_block`. -/
def toolResultBlock (message : ChatMessage) : Json :=
  let text :=
    match message.content with
    | some (.text text) => text
    | some (.parts parts) => String.join (partTexts parts)
    | some (.json value) => value.render
    | none => ""
  .object
    ([("type", .string "tool_result"), ("tool_use_id", .string (message.toolCallId.getD "")),
      ("content", .string text)] ++
      if (field message.extra "tool_call_is_error").bind asBool = some true then
        [("is_error", .bool true)]
      else [])

def Block.values (messages : List ChatMessage) : Block → List Json
  | result position => (messages[position]?).toList.map toolResultBlock
  | text position => (messages[position]?).toList.flatMap extractUserContentBlocks

def Turn.values (messages : List ChatMessage) : Turn → List Json
  | assistant position => (messages[position]?).toList.map (assistantMessageValue fromStr)
  | user position => (messages[position]?).toList.map userMessageValue
  | results blocks =>
      [.object [("role", .string "user"), ("content", .array (blocks.flatMap (Block.values messages)))]]

/-- `convert_anthropic_messages`. -/
def convertAnthropicMessages (messages : List ChatMessage) : List Json :=
  (convertedTurns (nonSystem messages)).flatMap (Turn.values fromStr (nonSystem messages))

variable (messages : List ChatMessage)

/-- The blocks a message becomes in a turn with results. -/
inductive Block.Renders : Block → List Json → Prop
  | result {position : Nat} {message : ChatMessage} (hmessage : messages[position]? = some message) :
      Block.Renders (.result position) [toolResultBlock message]
  | text {position : Nat} {message : ChatMessage} (hmessage : messages[position]? = some message) :
      Block.Renders (.text position) (extractUserContentBlocks message)

/-- The value that is sent for a turn. -/
inductive Turn.Renders : Turn → Json → Prop
  | assistant {position : Nat} {message : ChatMessage}
      (hmessage : messages[position]? = some message) :
      Turn.Renders (.assistant position) (assistantMessageValue fromStr message)
  | user {position : Nat} {message : ChatMessage} (hmessage : messages[position]? = some message) :
      Turn.Renders (.user position) (userMessageValue message)
  | results {blocks : List Block} {contents : List (List Json)}
      (hcontents : List.Forall₂ (Block.Renders messages) blocks contents) :
      Turn.Renders (.results blocks)
        (.object [("role", .string "user"), ("content", .array contents.flatten)])

end Value

/-! ## Dialogues with tools -/

section Dialogue

variable (messages : List ChatMessage)

def isTool (k : Nat) : Bool := (messages[k]?).any fun message => message.role = "tool"

def isUser (k : Nat) : Bool := (messages[k]?).any fun message => message.role = "user"

def messageIndexAt (k : Nat) : Option Int := (messages[k]?).bind messageIndexOf

def toolCallIdAt (k : Nat) : Option String := (messages[k]?).bind ChatMessage.toolCallId

/-- The tool calls of the assistant message at a position. -/
def callsAt (i : Nat) : List ToolCall :=
  match messages[i]? with
  | some message => if message.role = "assistant" then message.toolCalls else []
  | none => []

/-- The results of the answered calls of an assistant message, in call order. -/
def answers (i : Nat) : List Nat :=
  (callsAt messages i).filterMap fun toolCall => toolCall.id.bind (resultPosition messages)

/-- Calls have ids of their own, and each tool message answers an earlier call. -/
structure ToolDialogue : Prop where
  ids : ∀ i : Nat, ∀ toolCall ∈ callsAt messages i, ∃ id : String, toolCall.id = some id ∧ id ≠ ""
  distinct : ((List.range messages.length).flatMap (callsAt messages)).Pairwise
    fun a b => a.id ≠ b.id
  answered : ∀ k : Nat, isTool messages k = true →
    ∃ i < k, ∃ toolCall ∈ callsAt messages i, toolCall.id = toolCallIdAt messages k

def Block.spoken : Block → Option Nat
  | result _ => none
  | text position => some position

def Block.resulted : Block → Option Nat
  | result position => some position
  | text _ => none

/-- The messages that speak in a turn, which are all but the tool messages. -/
def Turn.spoken : Turn → List Nat
  | assistant position => [position]
  | user position => [position]
  | results blocks => blocks.filterMap Block.spoken

/-- The tool messages whose results are in a turn. -/
def Turn.resulted : Turn → List Nat
  | assistant _ => []
  | user _ => []
  | results blocks => blocks.filterMap Block.resulted

/-- The positions of the messages that are no tool messages, in order. -/
def speakers : List Nat := (List.range messages.length).filter fun k => isTool messages k = false

/-- Nothing is lost, doubled or moved, and the results stand after their calls. -/
structure Kept (turns : List Turn) : Prop where
  spoken : turns.flatMap Turn.spoken = speakers messages
  results : (turns.flatMap Turn.resulted).Perm
    ((List.range messages.length).filter fun k => isTool messages k = true)
  answered : ∀ i : Nat, answers messages i ≠ [] →
    ∃ (before after : List Turn) (blocks : List Block),
      turns = before ++ .assistant i :: .results blocks :: after ∧
        blocks.filterMap Block.resulted = answers messages i

/-! ## When they are kept -/

/-- The user message at `u` has the message index of a result of the assistant message at `a`. -/
def shares (u a : Nat) : Bool :=
  isUser messages u && (answers messages a).any fun r =>
    (messageIndexAt messages u).isSome && messageIndexAt messages r = messageIndexAt messages u

/-- The first assistant message before a user message with whose results it shares its index. -/
def host (u : Nat) : Option Nat := (List.range u).find? fun a => shares messages u a

structure Orderly : Prop where
  /-- No call is answered twice. -/
  once : ∀ k k' : Nat, isTool messages k = true → isTool messages k' = true →
    toolCallIdAt messages k = toolCallIdAt messages k' → k = k'
  /-- Between an assistant message and a user message that joins its results, only such
  user messages speak. -/
  adjacent : ∀ u a : Nat, host messages u = some a → ∀ k : Nat, a < k → k < u →
    isTool messages k = false → host messages k = some a
  /-- The index of any other user message is no position of a message that is used
  before it: it lies outside, is its own, or that of a later message which no earlier
  assistant message pulls forward. -/
  unskipped : ∀ u k : Nat, isUser messages u = true → host messages u = none →
    messageIndexAt messages u = some (k : Int) → k < messages.length →
    k = u ∨ u < k ∧ ∀ a < u, k ∉ answers messages a ∧ host messages k ≠ some a

end Dialogue

end Conduit.Transformers.AnthropicMessages
