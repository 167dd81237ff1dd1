import Conduit.Transformers.AnthropicInboundStream
import Conduit.Transformers.AnthropicOutboundStream
import Conduit.Transformers.AnthropicWire
import Conduit.Transformers.OpenAiChat
import Conduit.Transformers.ResponsesClientStream
import Conduit.Transformers.ResponsesOutboundStream

/-!
# Stream formats

The three protocols a stream is spoken in, each with the transformer that
reads it from a provider and the one that writes it to a client, over the
events the pipeline handles. A provider may have another format than these: to
the pipeline it is an adapter.
-/

namespace Conduit.Transformers

open Base Pipeline

inductive StreamFormat
  | openAiChat
  | anthropicMessages
  | openAiResponses
deriving DecidableEq, Repr

/-- What the transformers take from outside: the JSON parser, placeholder
signatures, fresh identifiers and the clock. -/
structure Environment where
  parse : String → Option Json
  generateSignature : Nat → String
  surroundings : Responses.Surroundings

/-- The event with its data parsed. -/
def WireEvent.ofStreamEvent (parse : String → Option Json) (event : StreamEvent) : WireEvent :=
  { eventType := event.eventType
    data := event.data.map fun text => (parse text).elim (.text text) .json
    done := event.done }

namespace StreamFormat

/-! ## Providers -/

abbrev ProviderState : StreamFormat → Type
  | openAiChat => Unit
  | anthropicMessages => Anthropic.AnthropicStreamReducer
  | openAiResponses => Responses.ResponsesStreamState

/-- The `transform_stream` of the provider's adapter, over parsed events. -/
def providerStream (env : Environment) :
    (format : StreamFormat) → Transducer format.ProviderState WireEvent LlmResponse
  | openAiChat => OpenAi.transformStream
  | anthropicMessages => Anthropic.providerStream
  | openAiResponses => Responses.ResponsesStreamState.providerStream env.parse

def outbound (env : Environment) (format : StreamFormat) :
    Transducer format.ProviderState StreamEvent LlmResponse :=
  (format.providerStream env).premap (WireEvent.ofStreamEvent env.parse)

theorem outbound_total (env : Environment) (format : StreamFormat) : (format.outbound env).Total := by
  refine Transducer.Total.premap ?_ _
  cases format <;> exact fun _ _ => rfl

/-! ## Clients -/

abbrev ClientState : StreamFormat → Type
  | openAiChat => OpenAi.ChatClientStream
  | anthropicMessages => Anthropic.InboundStream
  | openAiResponses => Responses.ResponsesClientStream

/-- The `transform_stream` of the client's transformer. -/
def clientStream (env : Environment) :
    (format : StreamFormat) → Transducer format.ClientState LlmResponse WireEvent
  | openAiChat => OpenAi.ChatClientStream.transducer
  | anthropicMessages =>
      (Anthropic.InboundStream.iterator env.generateSignature).map Anthropic.Event.toWireEvent
  | openAiResponses => Responses.ResponsesClientStream.transducer env.surroundings

def inbound (env : Environment) (format : StreamFormat) :
    Transducer format.ClientState LlmResponse StreamEvent :=
  (format.clientStream env).map WireEvent.toStreamEvent

/-- The terminal events of a format. -/
def ownTerminal (format : StreamFormat) (event : StreamEvent) : Bool :=
  match format with
  | openAiChat => event.done || event.data.any fun data => Text.trimmed data = "[DONE]".toList
  | anthropicMessages => event.eventType = some "message_stop"
  | openAiResponses => event.eventType.any (Responses.ResponsesStreamState.terminalEvents.contains ·)

end StreamFormat

/-! ## Adapters -/

/-- The `transform_stream` of a provider's adapter, which reads every event. -/
structure ProviderAdapter where
  State : Type
  stream : Transducer State StreamEvent LlmResponse
  total : stream.Total

def StreamFormat.adapter (env : Environment) (format : StreamFormat) : ProviderAdapter where
  State := format.ProviderState
  stream := format.outbound env
  total := format.outbound_total env

/-- `GeminiStreamIter` over a parser of events, which is given the index of the
next tool call and returns it: events that hold no chunk and events that do not
parse are skipped. -/
def geminiStreamIter (parseEvent : StreamEvent → Int → Except ConduitError (Option LlmResponse × Int)) :
    Transducer Int StreamEvent LlmResponse where
  start := 0
  read toolCallIndex event :=
    match parseEvent event toolCallIndex with
    | .ok (response, next) => (response.toList, some next)
    | .error _ => ([], some toolCallIndex)
  finish _ := []

def geminiAdapter (parseEvent : StreamEvent → Int → Except ConduitError (Option LlmResponse × Int)) :
    ProviderAdapter where
  State := Int
  stream := geminiStreamIter parseEvent
  total toolCallIndex event := by
    unfold geminiStreamIter
    dsimp only
    split <;> rfl

end Conduit.Transformers
