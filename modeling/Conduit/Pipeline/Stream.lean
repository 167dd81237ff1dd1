import Conduit.Base.Text
import Conduit.Base.Transducer
import Conduit.Pipeline.Context

/-!
# Client streams

Provider events go through the outbound and the inbound stream transformer
and out to the client. The buffered path collects them first, the live path
sends each frame as it appears; both re-emit a terminal event of the provider
that the transformers dropped. There are no stream middlewares here, and the
client of the live path keeps reading.
-/

namespace Conduit.Pipeline

open Base

/-! ## Events -/

/-- An event with the fields that are not parsed JSON. -/
structure StreamEvent where
  lastEventId : Option String
  eventType : Option String
  data : Option String
  binary : Option (List UInt8)
  done : Bool
deriving DecidableEq, Repr

def terminalEventTypes : List String :=
  ["response.completed", "response.failed", "response.incomplete", "response.cancelled",
    "response.canceled", "message_stop", "speech.audio.done", "transcript.text.done", "binary.done"]

def isClientStreamTerminal (event : StreamEvent) : Bool :=
  event.done || event.data.any (fun data => Text.trimmed data = "[DONE]".toList)
    || event.eventType.any (terminalEventTypes.contains ·)

/-! ## The two paths -/

section Paths

variable {σ τ LlmResponse : Type}

/-- `finish_stream_events`. Each missing terminal is pushed only while the list
is shorter than the raw one and has no terminal yet. -/
def restoreTerminals (rawEventCount : Nat) : List StreamEvent → List StreamEvent →
    List StreamEvent
  | events, [] => events
  | events, terminal :: terminals =>
      let alreadyPresent := rawEventCount ≤ events.length || events.any isClientStreamTerminal
      restoreTerminals rawEventCount (if alreadyPresent then events else events ++ [terminal])
        terminals

def finishStreamEvents (outbound : Except ConduitError (Transducer σ StreamEvent LlmResponse))
    (inbound : Except ConduitError (Transducer τ LlmResponse StreamEvent))
    (rawEvents : List StreamEvent) : Except ConduitError (List StreamEvent) :=
  match outbound with
  | .error err => .error (wrapUpstreamError err)
  | .ok outbound =>
      match inbound with
      | .error err => .error err
      | .ok inbound =>
          .ok (restoreTerminals rawEvents.length (inbound.run (outbound.run rawEvents))
            (rawEvents.filter isClientStreamTerminal))

/-- After the last frame: the stashed terminal unless one survived or an error
is pending, then the error. -/
def closeLive (terminalSlot : Option StreamEvent) (terminalSurvived : Bool)
    (errSlot : Option ConduitError) : List (Except ConduitError StreamEvent) :=
  (if terminalSurvived || errSlot.isSome then [] else terminalSlot.toList.map .ok) ++
    errSlot.toList.map .error

/-- The frames sent while the transformers pull from the upstream. What they
emit at the end of their input comes after a pending error is known, and its
terminals are then suppressed. -/
def liveFrames (chain : Transducer σ StreamEvent StreamEvent) :
    σ → Option StreamEvent → Bool → List (Except ConduitError StreamEvent) →
      List (Except ConduitError StreamEvent)
  | s, terminalSlot, terminalSurvived, [] =>
      let frames := chain.finish s
      frames.map .ok ++
        closeLive terminalSlot (terminalSurvived || frames.any isClientStreamTerminal) none
  | s, terminalSlot, terminalSurvived, .error err :: _ =>
      let frames := (chain.finish s).filter fun frame => !isClientStreamTerminal frame
      frames.map .ok ++ closeLive terminalSlot terminalSurvived (some err)
  | s, terminalSlot, terminalSurvived, .ok event :: upstream =>
      let terminalSlot := if isClientStreamTerminal event then some event else terminalSlot
      let frames := (chain.read s event).1
      let terminalSurvived := terminalSurvived || frames.any isClientStreamTerminal
      frames.map .ok ++
        match (chain.read s event).2 with
        | none => closeLive terminalSlot terminalSurvived none
        | some s => liveFrames chain s terminalSlot terminalSurvived upstream

def transformLiveStream (outbound : Except ConduitError (Transducer σ StreamEvent LlmResponse))
    (inbound : Except ConduitError (Transducer τ LlmResponse StreamEvent))
    (upstream : List (Except ConduitError StreamEvent)) : List (Except ConduitError StreamEvent) :=
  match outbound with
  | .error err => [.error (wrapUpstreamError err)]
  | .ok outbound =>
      match inbound with
      | .error err => [.error err]
      | .ok inbound =>
          let chain := outbound.comp inbound
          liveFrames chain chain.start none false upstream

end Paths

end Conduit.Pipeline
