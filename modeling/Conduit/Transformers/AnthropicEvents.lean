import Conduit.Base.Emitter
import Conduit.Transformers.Unified

/-!
# Anthropic stream events

The events of an Anthropic message stream, with what makes a list of them one
well-formed message: a start, then blocks numbered from zero, each started,
extended by deltas of its kind and stopped, then one message delta and one
stop.
-/

namespace Conduit.Transformers.Anthropic

open Base

/-! ## Events -/

inductive BlockDelta
  | text (text : String)
  | thinking (thinking : String)
  | signature (signature : String)
  | inputJson (partialJson : String)
deriving DecidableEq, Repr

inductive Event
  | messageStart (id model : String) (usage : Json)
  | contentBlockStart (index : Nat) (contentBlock : Json)
  | contentBlockDelta (index : Nat) (delta : BlockDelta)
  | contentBlockStop (index : Nat)
  | messageDelta (stopReason : Option String) (usage : Json)
  | messageStop

namespace Event

def eventType : Event → String
  | messageStart .. => "message_start"
  | contentBlockStart .. => "content_block_start"
  | contentBlockDelta .. => "content_block_delta"
  | contentBlockStop .. => "content_block_stop"
  | messageDelta .. => "message_delta"
  | messageStop => "message_stop"

/-- An event about a content block. -/
def isBlock : Event → Bool
  | contentBlockStart .. | contentBlockDelta .. | contentBlockStop .. => true
  | _ => false

end Event

/-! ## Kinds of blocks -/

/-- `is_anthropic_tool_use_like`. -/
def isAnthropicToolUseLike (blockType : String) : Bool :=
  blockType = "tool_use" || Text.endsWith blockType "_tool_use"

/-- `is_anthropic_tool_result_like`. -/
def isAnthropicToolResultLike (blockType : String) : Bool :=
  blockType = "tool_result" || Text.endsWith blockType "_tool_result"

/-- The `type` of a content block. -/
def blockType (contentBlock : Json) : String := ((contentBlock.get "type").bind Json.asStr).getD ""

/-- The deltas a block of that type may carry. -/
def BlockDelta.legal (blockType : String) : BlockDelta → Bool
  | text _ => blockType = "text"
  | thinking _ => blockType = "thinking"
  | signature _ => blockType = "thinking"
  | inputJson _ => isAnthropicToolUseLike blockType

/-! ## Well-formed streams -/

/-- A content block as it is streamed. -/
structure Block where
  contentBlock : Json
  deltas : List BlockDelta

namespace Block

def events (index : Nat) (block : Block) : List Event :=
  .contentBlockStart index block.contentBlock ::
    block.deltas.map (.contentBlockDelta index) ++ [.contentBlockStop index]

def Legal (block : Block) : Prop := ∀ delta ∈ block.deltas, delta.legal (blockType block.contentBlock)

end Block

/-- The events of blocks that are numbered from `index` on. -/
def blockEvents : Nat → List Block → List Event
  | _, [] => []
  | index, block :: blocks => block.events index ++ blockEvents (index + 1) blocks

/-- One message from its start to its stop. -/
def WellFormed (events : List Event) : Prop :=
  ∃ (id model : String) (usage : Json) (blocks : List Block) (stopReason : Option String)
    (finalUsage : Json),
    events = .messageStart id model usage ::
      (blockEvents 0 blocks ++ [.messageDelta stopReason finalUsage, .messageStop]) ∧
    ∀ block ∈ blocks, block.Legal

/-! ## The reader of a stream -/

/-- How far a reader is: before the start, between two blocks or inside one
(with the index of the next or the current block), after the message delta, or
after the stop. -/
inductive Shape
  | start
  | between (index : Nat)
  | inside (index : Nat) (blockType : String)
  | closing
  | done
deriving DecidableEq, Repr

def Shape.next : Shape → Event → Option Shape
  | start, .messageStart .. => some (between 0)
  | between index, .contentBlockStart i contentBlock =>
      if i = index then some (inside index (blockType contentBlock)) else none
  | inside index kind, .contentBlockDelta i delta =>
      if i = index ∧ delta.legal kind then some (inside index kind) else none
  | inside index _, .contentBlockStop i => if i = index then some (between (index + 1)) else none
  | between _, .messageDelta .. => some closing
  | closing, .messageStop => some done
  | _, _ => none

def reader : Monitor Shape Event := ⟨Shape.next⟩

end Conduit.Transformers.Anthropic
