import Conduit.Transformers.AnthropicInboundStream

/-!
# Outlines of Anthropic client streams

What a stream of chunks asks for, part by part, and which order of parts can
be written as one message. An outline knows the kind of the open block but no
text; it gives up where the parts force the client stream out of shape.
-/

namespace Conduit.Transformers.Anthropic

open Base InboundStream

/-! ## The parts of a chunk -/

inductive Part
  | start
  | thinking
  | signature
  | redacted
  | text
  | toolCalls
  | fragment (index : Int) (blockType : String) (hasArguments : Bool)
  | toolResults
  | toolResult
  | finish
  | usage
deriving DecidableEq, Repr

def fragmentPart (toolCall : ToolCall) : Part :=
  .fragment toolCall.index (toolBlockType toolCall) (toolCall.functionArguments ≠ "")

def deltaParts (delta : LlmMessage) : List Part :=
  (nonEmpty delta.reasoningContent).toList.map (fun _ => .thinking) ++
    (nonEmpty delta.reasoningSignature).toList.map (fun _ => .signature) ++
    (nonEmpty delta.redactedReasoningContent).toList.map (fun _ => .redacted) ++
    (nonEmpty (contentText delta.content)).toList.map (fun _ => .text) ++
    (if delta.toolCalls.isEmpty then [] else .toolCalls :: delta.toolCalls.map fragmentPart) ++
    (if delta.inlineToolResults.isEmpty then []
      else .toolResults ::
        (delta.inlineToolResults.filterMap toolResultBlockFromInline).map fun _ => .toolResult)

def choiceParts (choice : Choice) : List Part :=
  choice.delta.toList.flatMap deltaParts ++ choice.finishReason.toList.map fun _ => .finish

def chunkParts (chunk : LlmResponse) : List Part :=
  if chunk.object = "[DONE]" then []
  else
    [.start] ++ chunk.choices.head?.toList.flatMap choiceParts ++
      chunk.usage.toList.map fun _ => .usage

/-! ## Outlines -/

inductive OpenBlock
  | text
  | thinking
  | tool (blockType : String)
deriving DecidableEq, Repr

def OpenBlock.kind : OpenBlock → String
  | text => "text"
  | thinking => "thinking"
  | tool blockType => blockType

def OpenBlock.isTool : OpenBlock → Bool
  | tool _ => true
  | _ => false

structure Outline where
  started : Bool := false
  block : Option OpenBlock := none
  pendingSignature : Bool := false
  toolCalls : List Int := []
  finished : Bool := false
  stopped : Bool := false
deriving DecidableEq, Repr

namespace Outline

/-- Blocks may be written between the first event and the last. -/
def writable (o : Outline) : Bool := o.started && !o.stopped

/-- What precedes anything but thinking: an open thinking block is closed, and
a signature without one gets a block of its own, after the open one. -/
def flush (o : Outline) : Option Outline :=
  if o.block = some .thinking then some { o with block := none, pendingSignature := false }
  else if !o.pendingSignature then some o
  else if o.writable then some { o with block := none, pendingSignature := false }
  else none

def closeText (o : Outline) : Outline :=
  if o.block = some .text then { o with block := none } else o

def openTool (index : Int) (blockType : String) (o : Outline) : Outline :=
  { o with block := some (.tool blockType), toolCalls := o.toolCalls ++ [index] }

def fragment (index : Int) (blockType : String) (hasArguments : Bool) (o : Outline) :
    Option Outline :=
  if index ∈ o.toolCalls then
    -- Arguments go to the open block, whichever call it belongs to.
    if !hasArguments then some o
    else if o.block.any fun block => isAnthropicToolUseLike block.kind then some o
    else none
  else
    if o.writable ∧ (o.block = none ∨ 0 < index ∧ o.block.any OpenBlock.isTool) ∧
        (!hasArguments || isAnthropicToolUseLike blockType) then
      some (o.openTool index blockType)
    else none

def next (o : Outline) : Part → Option Outline
  | .start => some { o with started := true }
  | .signature => some { o with pendingSignature := true }
  | .thinking => if o.writable then some { o with block := some .thinking } else none
  | .redacted => if o.writable then some { o with block := none, pendingSignature := false } else none
  | .text =>
      if o.writable then some { o with block := some .text, pendingSignature := false } else none
  | .toolCalls =>
      o.flush.map closeText
  | .fragment index blockType hasArguments => o.fragment index blockType hasArguments
  | .toolResults => o.flush.map fun o => { o with block := none }
  | .toolResult => if o.writable ∧ o.block = none then some o else none
  | .finish =>
      if o.finished then some o
      else (flush { o with finished := true }).map fun o => { o with block := none }
  | .usage =>
      if o.finished && !o.stopped then
        if o.writable ∧ o.block = none then some { o with stopped := true } else none
      else some o

end Outline

def outline : Monitor Outline Part := ⟨Outline.next⟩

/-- The chunks can be written as one message, and the message is stopped: no
part gives up, and usage comes with or after the finish reason. -/
def Orderly (chunks : List LlmResponse) : Prop :=
  ∃ o, outline.run {} (chunks.flatMap chunkParts) = some o ∧ o.stopped

end Conduit.Transformers.Anthropic
