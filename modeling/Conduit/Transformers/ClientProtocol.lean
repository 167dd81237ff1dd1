import Conduit.Transformers.AnthropicOutline
import Conduit.Transformers.Formats

/-!
# What a client may be sent

A client of one format gets frames of its own transformer and terminals of its
own format, and nothing after a terminal. Beside it, when the chunks of a
provider end an answer in each format, when they go on after that, and how many
frames they make of an answer without an end. For Anthropic messages this is
read off the parts of the chunks.
-/

namespace Conduit.Transformers

open Base Pipeline

/-! ## The law -/

/-- `own` is what the client's transformer wrote. -/
structure SpeaksOwnProtocol (format : StreamFormat) (own frames : List StreamEvent) : Prop where
  onlyOwn : ∀ frame ∈ frames, frame ∈ own ∨ format.ownTerminal frame = true
  terminalLast : ∀ frame ∈ frames.dropLast, isClientStreamTerminal frame = false

/-! ## Anthropic messages -/

namespace Anthropic.InboundStream

/-- The finish reason of the choice that is read. -/
def readFinish (chunk : LlmResponse) : Option String := chunk.choices.head?.bind Choice.finishReason

/-- A chunk with usage comes with or after a finish reason. -/
def closes (finished : Bool) : List LlmResponse → Bool
  | [] => false
  | chunk :: chunks =>
      if chunk.object = "[DONE]" then closes finished chunks
      else
        ((finished || (readFinish chunk).isSome) && chunk.usage.isSome) ||
          closes (finished || (readFinish chunk).isSome) chunks

end Anthropic.InboundStream

/-- What the parts of a stream leave open. -/
structure Anthropic.Sketch where
  started : Bool := false
  text : Bool := false
  thinking : Bool := false
  tool : Bool := false
  pendingSignature : Bool := false
  toolCalls : List Int := []
  finished : Bool := false
  stopped : Bool := false
  lastEventType : String := ""
deriving DecidableEq, Repr

namespace Anthropic.Sketch

open Emitter

/-- A part is answered with events of these types. -/
abbrev Step := Emitter Sketch String

def event (eventType : String) : Step := fun s =>
  if s.lastEventType = "content_block_stop" ∧ eventType = "content_block_stop" then ([], s)
  else ([eventType], { s with lastEventType := eventType })

def startBlock : Step := event "content_block_start"

def writeDelta : Step := event "content_block_delta"

def stopBlock : Step := event "content_block_stop"

def closeText : Step :=
  whenever text ((update fun s => { s with text := false }).seq stopBlock)

def closeTool : Step :=
  whenever tool ((update fun s => { s with tool := false }).seq stopBlock)

/-- A signature without thinking gets a block of its own. -/
def closeThinking : Step := fun s =>
  if s.thinking then
    (writeDelta.seq stopBlock) { s with pendingSignature := false, thinking := false }
  else if s.pendingSignature then
    (closeText.seq <| closeTool.seq <| startBlock.seq <| writeDelta.seq stopBlock)
      { s with pendingSignature := false }
  else ([], s)

def arguments (hasArguments : Bool) : Step := if hasArguments then writeDelta else skip

def fragment (index : Int) (hasArguments : Bool) : Step := fun s =>
  if index ∈ s.toolCalls then arguments hasArguments s
  else
    ((if 0 < index then closeTool else skip).seq <|
      (update fun s => { s with tool := true, toolCalls := s.toolCalls ++ [index] }).seq <|
      startBlock.seq (arguments hasArguments)) s

def read : Part → Step
  | .start =>
      whenever (fun s => !s.started)
        ((update fun s => { s with started := true }).seq (event "message_start"))
  | .thinking =>
      closeText.seq <| closeTool.seq <|
        (whenever (fun s => !s.thinking)
          ((update fun s => { s with thinking := true }).seq startBlock)).seq writeDelta
  | .signature => update fun s => { s with pendingSignature := true }
  | .redacted =>
      closeThinking.seq <| closeTool.seq <| closeText.seq <| startBlock.seq stopBlock
  | .text =>
      closeThinking.seq <| closeTool.seq <|
        (whenever (fun s => !s.text)
          ((update fun s => { s with text := true }).seq startBlock)).seq writeDelta
  | .toolCalls => closeThinking.seq closeText
  | .fragment index _ hasArguments => fragment index hasArguments
  | .toolResults => closeThinking.seq <| closeTool.seq closeText
  | .toolResult => startBlock.seq stopBlock
  | .finish =>
      whenever (fun s => !s.finished)
        ((update fun s => { s with finished := true }).seq <|
          closeThinking.seq <| closeText.seq closeTool)
  | .usage =>
      whenever (fun s => s.finished && !s.stopped)
        ((event "message_delta").seq <| (event "message_stop").seq
          (update fun s => { s with stopped := true }))

/-- The types of the events for a list of parts. -/
def eventTypes (parts : List Part) : List String := (forEach read parts {}).1

/-- No text, no thinking and no signature is waiting to be closed. -/
def settled (s : Sketch) : Bool := !s.text && !s.thinking && !s.pendingSignature

/-- A part without content, for a message that is stopped: no text, no
thinking, no new tool call and no arguments, no tool result, and nothing that a
list of calls or results would close. -/
def Silent (s : Sketch) : Part → Bool
  | .start => s.started
  | .signature | .finish | .usage => true
  | .thinking | .redacted | .text | .toolResult => false
  | .toolCalls => s.settled
  | .fragment index _ hasArguments => s.toolCalls.contains index && !hasArguments
  | .toolResults => s.settled && !s.tool

/-- Every part that is read after the message was stopped is without content. -/
def QuietAfterStop : Sketch → List Part → Prop
  | _, [] => True
  | s, part :: parts =>
      (s.stopped = true → s.Silent part = true) ∧ QuietAfterStop (read part s).2 parts

end Anthropic.Sketch

/-! ## All formats -/

namespace StreamFormat

/-- The chunks end the answer for a client of that format. -/
def EndsAnswer (format : StreamFormat) (chunks : List LlmResponse) : Prop :=
  match format with
  | openAiChat => ∃ chunk ∈ chunks, chunk.object = OpenAi.doneSentinel ∨
      OpenAi.ChatClientStream.terminalChunk chunk = true
  | anthropicMessages => Anthropic.InboundStream.closes false chunks = true
  | openAiResponses => chunks ≠ []

/-- No chunk has anything to say after the answer has ended. -/
def NothingAfterEnd (format : StreamFormat) (chunks : List LlmResponse) : Prop :=
  match format with
  | openAiChat => ∀ chunk ∈ chunks.dropLast, chunk.object ≠ OpenAi.doneSentinel
  | anthropicMessages => Anthropic.Sketch.QuietAfterStop {} (chunks.flatMap Anthropic.chunkParts)
  | openAiResponses => True

/-- How many frames chunks that do not end the answer make. -/
def openFrames (format : StreamFormat) (chunks : List LlmResponse) : Nat :=
  match format with
  | openAiChat => chunks.length
  | anthropicMessages => (Anthropic.Sketch.eventTypes (chunks.flatMap Anthropic.chunkParts)).length
  | openAiResponses => 0

end StreamFormat

end Conduit.Transformers
