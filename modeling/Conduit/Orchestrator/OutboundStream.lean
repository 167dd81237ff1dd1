import Conduit.Transformers.AnthropicAggregate
import Conduit.Transformers.Formats
import Conduit.Transformers.ResponsesAggregate

/-!
# The persisted end of a stream

The events a client is sent are kept in a buffer. When the stream ends, a
terminal event among them, or their aggregate, decides whether the request is
recorded as a success. The size of an event is a parameter.
-/

namespace Conduit.Orchestrator.OutboundStream

open Base Transformers

/-! ## Aggregation -/

/-- What the aggregators return; none for an error. -/
abbrev Aggregated := OpenAi.AggregatedResponse

/-- The `aggregate_stream_chunks` of a client's transformer. -/
def aggregateStreamChunks (env : Environment) : StreamFormat → List WireEvent → Option Aggregated
  | .openAiChat => OpenAi.aggregateStreamChunks
  | .anthropicMessages => Anthropic.aggregateStreamChunks env.parse
  | .openAiResponses => Responses.aggregateStreamChunks

/-- Usage that is only in the body is lifted out of it. -/
def liftUsage (response : Aggregated) : Aggregated :=
  { response with
    usage := response.usage.or ((LlmResponse.decode response.body).bind LlmResponse.usage) }

/-- `TransformerStreamAggregator`. -/
def aggregate (env : Environment) (format : StreamFormat) (chunks : List WireEvent) :
    Option Aggregated := (aggregateStreamChunks env format chunks).map liftUsage

/-- `is_completed_aggregated`. -/
def isCompletedAggregated (response : Aggregated) : Bool :=
  response.completed || response.usage.any fun usage => 0 < usage.completionTokens

/-! ## The buffer -/

def terminalStreamEventTypes : List String :=
  ["response.completed", "message_stop", "speech.audio.done", "transcript.text.done", "binary.done"]

/-- `is_terminal_stream_event`. -/
def isTerminalStreamEvent (event : WireEvent) : Bool :=
  (match event.data with
    | some (.text text) => decide (text = "[DONE]")
    | _ => false) ||
    event.eventType.any (terminalStreamEventTypes.contains ·)

structure StreamChunkBuffer where
  chunks : List WireEvent := []
  streamCompleted : Bool := false
  bufferedBytes : Nat := 0
  budgetExceeded : Bool := false

namespace StreamChunkBuffer

def maxChunks : Nat := 50000

def maxBytes : Nat := 64 * 1024 * 1024

/-- An event beyond the budget is not kept, though its size counts. -/
def push (size : WireEvent → Nat) (buffer : StreamChunkBuffer) (event : WireEvent) :
    StreamChunkBuffer :=
  let bufferedBytes := min (buffer.bufferedBytes + size event) (2 ^ 64 - 1)
  if maxChunks ≤ buffer.chunks.length ∨ maxBytes < bufferedBytes then
    { buffer with
      bufferedBytes := bufferedBytes
      budgetExceeded := true }
  else
    { buffer with
      bufferedBytes := bufferedBytes
      chunks := buffer.chunks ++ [event]
      streamCompleted := buffer.streamCompleted || isTerminalStreamEvent event }

def pushAll (size : WireEvent → Nat) (events : List WireEvent) : StreamChunkBuffer :=
  events.foldl (push size) {}

/-- As long as the budget was not exceeded the buffer holds every event. -/
theorem pushAll_kept (size : WireEvent → Nat) (events : List WireEvent) :
    ∀ buffer : StreamChunkBuffer, (events.foldl (push size) buffer).budgetExceeded = false →
      (events.foldl (push size) buffer).chunks = buffer.chunks ++ events ∧
      (events.foldl (push size) buffer).streamCompleted =
        (buffer.streamCompleted || events.any isTerminalStreamEvent) := by
  have hexceeded : ∀ (events : List WireEvent) (buffer : StreamChunkBuffer),
      buffer.budgetExceeded = true → (events.foldl (push size) buffer).budgetExceeded = true := by
    intro events
    induction events with
    | nil => exact fun _ h => h
    | cons event events ih =>
        intro buffer h
        refine ih _ ?_
        unfold push
        dsimp only
        split
        · rfl
        · exact h
  induction events with
  | nil => simp
  | cons event events ih =>
      intro buffer h
      rw [List.foldl_cons] at h ⊢
      have hstep : (push size buffer event).budgetExceeded = false := by
        by_contra hne
        exact absurd h (by rw [hexceeded events _ (by simpa using hne)]; simp)
      obtain ⟨hchunks, hcompleted⟩ := ih _ h
      rw [hchunks, hcompleted]
      unfold push at hstep ⊢
      dsimp only at hstep ⊢
      split at hstep
      · exact absurd hstep (by simp)
      · rw [if_neg (by assumption)]
        simp [Bool.or_assoc]

end StreamChunkBuffer

/-! ## Closing -/

structure ObservedStreamState where
  clientDisconnected : Bool := false
  streamError : Option String := none

/-- What `close` asks the recorder for, or that it returns an error before. -/
inductive CloseDecision
  | recordSuccess (response : Option Aggregated)
  | recordFailure (message : String)
  | recordCancellation (message : String)
  | aggregationFailed

def noTerminalEventMessage : String := "stream ended without terminal event or completed response"

/-- `stream_final_plan` and the recorder call of each plan. -/
def finalPlan (completedNormally : Bool) (observed : ObservedStreamState)
    (aggregated : Option Aggregated) : CloseDecision :=
  if completedNormally then .recordSuccess aggregated
  else if observed.clientDisconnected then
    .recordCancellation (observed.streamError.getD "context canceled")
  else .recordFailure (observed.streamError.getD noTerminalEventMessage)

/-- `PersistentStreamFinalizer::close` up to the recorder. -/
def close (aggregate : List WireEvent → Option Aggregated) (buffer : StreamChunkBuffer)
    (observed : ObservedStreamState) : CloseDecision :=
  if buffer.streamCompleted && observed.streamError.isNone then
    if buffer.chunks.isEmpty then finalPlan true observed none
    else
      match aggregate buffer.chunks with
      | none => .aggregationFailed
      | some response => finalPlan true observed (some response)
  else if (observed.streamError.isSome && !observed.clientDisconnected) || buffer.chunks.isEmpty then
    finalPlan false observed none
  else
    match aggregate buffer.chunks with
    | none => finalPlan false observed none
    | some response => finalPlan (isCompletedAggregated response) observed (some response)

end Conduit.Orchestrator.OutboundStream
