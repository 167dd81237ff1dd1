import Conduit.Transformers.AnthropicEvents
import Conduit.Transformers.Wire

/-!
# The wire format of Anthropic stream events
-/

namespace Conduit.Transformers.Anthropic

open Base Base.Json

namespace BlockDelta

def encode : BlockDelta → Json
  | text value => .object [("type", .string "text_delta"), ("text", .string value)]
  | thinking value => .object [("type", .string "thinking_delta"), ("thinking", .string value)]
  | signature value => .object [("type", .string "signature_delta"), ("signature", .string value)]
  | inputJson value => .object [("type", .string "input_json_delta"), ("partial_json", .string value)]

end BlockDelta

namespace Event

/-- The fields below the type. -/
def fields : Event → List (String × Json)
  | messageStart id model usage =>
      [("message", .object
        [("id", .string id), ("type", .string "message"), ("role", .string "assistant"),
          ("model", .string model), ("content", .array []), ("usage", usage)])]
  | contentBlockStart index contentBlock =>
      [("index", .int index), ("content_block", contentBlock)]
  | contentBlockDelta index delta => [("index", .int index), ("delta", delta.encode)]
  | contentBlockStop index => [("index", .int index)]
  | messageDelta stopReason usage =>
      (stopReason.toList.map fun reason =>
        ("delta", Json.object [("stop_reason", .string reason)])) ++ [("usage", usage)]
  | messageStop => []

def encode (event : Event) : Json := .object (("type", .string event.eventType) :: event.fields)

/-- The event as `enqueue_event` queues it. -/
def toWireEvent (event : Event) : WireEvent :=
  { eventType := some event.eventType, data := some (.json event.encode) }

end Event

end Conduit.Transformers.Anthropic
