import Conduit.Orchestrator.OutboundStream
import Conduit.Transformers.AnthropicUsage
import Conduit.Transformers.Logic.AnthropicTerminals

/-!
# Which streams are metered

A stream without errors whose events were all kept is recorded as a success if
an event of it is terminal and its aggregate exists, or if the aggregate says
that it is complete. For each client format, this comes down to a condition on
the unified chunks.
-/

namespace Conduit.Orchestrator.OutboundStream

open Base Pipeline Transformers

/-! ## Answers -/

def finishReasons : List String := ["stop", "tool_calls", "length", "content_filter"]

/-- The finish reasons of all choices, in order. -/
def finishes (chunks : List LlmResponse) : List String :=
  (chunks.flatMap LlmResponse.choices).filterMap Choice.finishReason

/-- An answer that ends, reports its usage and is no error. -/
structure Answered (chunks : List LlmResponse) : Prop where
  usage : ∃ chunk ∈ chunks, chunk.usage.isSome = true
  finished : finishes chunks ≠ []
  reasons : ∀ reason ∈ finishes chunks, reason ∈ finishReasons
  noError : ∀ chunk ∈ chunks, chunk.error = none

/-- The events for a client of that format. -/
def clientEvents (env : Environment) (format : StreamFormat) (chunks : List LlmResponse) :
    List WireEvent := (format.clientStream env).run chunks

/-- `close` records a success, the stream having ended without an error. -/
def RecordedAsSuccess (env : Environment) (format : StreamFormat) (size : WireEvent → Nat)
    (chunks : List LlmResponse) : Prop :=
  ∃ response, close (aggregate env format)
    (StreamChunkBuffer.pushAll size (clientEvents env format chunks)) {} = .recordSuccess response

/-- The first chunk that an Anthropic client's message starts with. -/
def firstRead (chunks : List LlmResponse) : Option LlmResponse :=
  chunks.find? fun chunk => chunk.object ≠ "[DONE]"

/-- What the accounting of each format asks of the chunks. -/
def Metered (format : StreamFormat) (chunks : List LlmResponse) : Prop :=
  match format with
  | .openAiChat => True
  | .anthropicMessages =>
      Anthropic.InboundStream.closes false chunks = true ∨
        ∃ first, firstRead chunks = some first ∧ ∀ usage ∈ first.usage, 0 < usage.completionTokens
  | .openAiResponses =>
      ∀ reason ∈ (finishes chunks).getLast?, reason ≠ "length" ∧ reason ≠ "content_filter"

/-! ## Closing a kept stream -/

section Close

variable {aggregate : List WireEvent → Option Aggregated} {buffer : StreamChunkBuffer}
  {events : List WireEvent}

theorem close_aggregated {response : Aggregated} (hempty : aggregate [] = none)
    (hchunks : buffer.chunks = events)
    (hcompleted : buffer.streamCompleted = events.any isTerminalStreamEvent)
    (haggregate : aggregate events = some response) :
    close aggregate buffer {} =
      if (events.any isTerminalStreamEvent || isCompletedAggregated response) = true then
        .recordSuccess (some response)
      else .recordFailure noTerminalEventMessage := by
  have hne : events.isEmpty = false := by
    cases events with
    | nil =>
        rw [hempty] at haggregate
        cases haggregate
    | cons event events => rfl
  unfold close
  rw [hcompleted, hchunks, haggregate, hne]
  cases events.any isTerminalStreamEvent with
  | true => rfl
  | false => cases hcomplete : isCompletedAggregated response <;> simp [finalPlan, hcomplete]

theorem close_unaggregated (hchunks : buffer.chunks = events)
    (hcompleted : buffer.streamCompleted = events.any isTerminalStreamEvent)
    (haggregate : aggregate events = none) (response : Option Aggregated) :
    close aggregate buffer {} ≠ .recordSuccess response := by
  unfold close
  rw [hcompleted, hchunks, haggregate]
  cases events with
  | nil => simp [finalPlan]
  | cons event events =>
      cases (event :: events).any isTerminalStreamEvent <;> simp [finalPlan]

theorem recorded_iff (hempty : aggregate [] = none) (hchunks : buffer.chunks = events)
    (hcompleted : buffer.streamCompleted = events.any isTerminalStreamEvent) :
    (∃ response, close aggregate buffer {} = .recordSuccess response) ↔
      ∃ response, aggregate events = some response ∧
        (events.any isTerminalStreamEvent = true ∨ isCompletedAggregated response = true) := by
  cases haggregate : aggregate events with
  | none =>
      refine iff_of_false ?_ ?_
      · rintro ⟨response, hclose⟩
        exact close_unaggregated hchunks hcompleted haggregate response hclose
      · rintro ⟨response, hresponse, -⟩
        cases hresponse
  | some response =>
      rw [close_aggregated hempty hchunks hcompleted haggregate]
      simp only [Option.some.injEq, exists_eq_left', ← Bool.or_eq_true]
      split
      · next h => exact iff_of_true ⟨_, rfl⟩ h
      · next h =>
          refine iff_of_false ?_ h
          rintro ⟨other, hother⟩
          cases hother

end Close

theorem aggregate_empty (env : Environment) (format : StreamFormat) : aggregate env format [] =
    none := by
  cases format <;> rfl

/-- For a stream that was kept as a whole. -/
theorem recordedAsSuccess_iff {env : Environment} {format : StreamFormat} {size : WireEvent → Nat}
    {chunks : List LlmResponse}
    (hkept : (StreamChunkBuffer.pushAll size (clientEvents env format chunks)).budgetExceeded =
      false) :
    RecordedAsSuccess env format size chunks ↔
      ∃ response, aggregate env format (clientEvents env format chunks) = some response ∧
        ((clientEvents env format chunks).any isTerminalStreamEvent = true ∨
          isCompletedAggregated response = true) := by
  obtain ⟨hchunks, hcompleted⟩ :=
    StreamChunkBuffer.pushAll_kept size (clientEvents env format chunks) {} hkept
  exact recorded_iff (aggregate_empty env format) hchunks hcompleted

/-! ## OpenAI chat -/

section Chat

open OpenAi OpenAi.ChatClientStream

theorem chat_events (env : Environment) (chunks : List LlmResponse) :
    clientEvents env .openAiChat chunks =
      chunks.map frame ++ (({} : ChatClientStream).after chunks).finish :=
  runFrom_eq chunks {}

theorem terminal_chatFrame (chunk : LlmResponse) :
    isTerminalStreamEvent (frame chunk) = decide (chunk.object = doneSentinel) := by
  unfold frame
  by_cases h : chunk.object = doneSentinel
  · rw [if_pos h, decide_eq_true h]
    rfl
  · rw [if_neg h, decide_eq_false h]
    rfl

/-- A finish reason makes the stream end with its marker. -/
theorem chat_terminal (env : Environment) {chunks : List LlmResponse} (h : finishes chunks ≠ []) :
    (clientEvents env .openAiChat chunks).any isTerminalStreamEvent = true := by
  obtain ⟨reason, hreason⟩ := List.exists_mem_of_ne_nil _ h
  obtain ⟨choice, hchoice, hfinish⟩ := List.mem_filterMap.mp hreason
  obtain ⟨chunk, hchunk, hmem⟩ := List.mem_flatMap.mp hchoice
  have hterminal : terminalChunk chunk = true := by
    unfold terminalChunk
    rw [Bool.or_eq_true]
    exact .inr (List.any_eq_true.mpr ⟨choice, hmem, by rw [hfinish]; rfl⟩)
  rw [chat_events, List.any_append, List.any_map, Bool.or_eq_true]
  by_cases hdone : chunks.any (fun chunk => decide (chunk.object = doneSentinel)) = true
  · refine .inl ?_
    rw [← hdone]
    exact congrArg chunks.any (funext terminal_chatFrame)
  · -- the marker is sent at the end
    have hafter : (({} : ChatClientStream).after chunks) = ⟨true, false⟩ := by
      unfold after
      rw [Bool.false_or, Bool.false_or, Bool.eq_false_iff.mpr hdone]
      congr 1
      refine List.any_eq_true.mpr ⟨chunk, hchunk, ?_⟩
      have hobject : ¬ chunk.object = doneSentinel := fun hobject =>
        hdone (List.any_eq_true.mpr ⟨chunk, hchunk, decide_eq_true hobject⟩)
      rw [decide_eq_true hobject, hterminal]
      rfl
    rw [hafter]
    exact .inr rfl

theorem chat_metered {env : Environment} {chunks : List LlmResponse} (h : finishes chunks ≠ []) :
    ∃ response, aggregate env .openAiChat (clientEvents env .openAiChat chunks) = some response ∧
      ((clientEvents env .openAiChat chunks).any isTerminalStreamEvent = true ∨
        isCompletedAggregated response = true) := by
  have hterminal := chat_terminal env h
  cases hevents : clientEvents env .openAiChat chunks with
  | nil =>
      rw [hevents] at hterminal
      cases hterminal
  | cons event events =>
      rw [hevents] at hterminal
      exact ⟨_, rfl, .inl hterminal⟩

end Chat

/-! ## Anthropic messages -/

section Messages

open Anthropic Anthropic.InboundStream Emitter

theorem messages_events (env : Environment) (chunks : List LlmResponse) :
    clientEvents env .anthropicMessages chunks =
      (forEach (processChunk env.generateSignature) chunks {}).1.map Event.toWireEvent := by
  have hwire : clientEvents env .anthropicMessages chunks =
      ((iterator env.generateSignature).run chunks).map Event.toWireEvent :=
      Transducer.run_map _ _ _
  rw [hwire]
  unfold iterator
  rw [run_transducer]

theorem terminal_messageEvent (event : Event) :
    isTerminalStreamEvent event.toWireEvent = true ↔ event = .messageStop := by
  cases event <;>
    simp [isTerminalStreamEvent, Event.toWireEvent, Event.eventType, terminalStreamEventTypes]

/-- The message is stopped exactly if usage comes with or after a finish reason. -/
theorem messages_terminal (env : Environment) (chunks : List LlmResponse) :
    (clientEvents env .anthropicMessages chunks).any isTerminalStreamEvent = true ↔
      closes false chunks = true := by
  refine Iff.trans ?_ (unstopped_run env.generateSignature chunks {} rfl)
  rw [messages_events, List.any_map, List.any_eq_true]
  constructor
  · rintro ⟨event, hmem, hterminal⟩
    rwa [← (terminal_messageEvent event).mp hterminal]
  · intro hmem
    exact ⟨_, hmem, (terminal_messageEvent _).mpr rfl⟩

variable (generateSignature : Nat → String)

/-- A message that has started and is not stopped goes on with blocks. -/
theorem blocks_run (chunks : List LlmResponse) : ∀ s : InboundStream, s.hasStarted = true →
    s.messageStopped = false → closes s.hasFinished chunks = false →
      ∀ event ∈ (forEach (processChunk generateSignature) chunks s).1, event.isBlock = true := by
  induction chunks with
  | nil => exact fun _ _ _ _ _ hmem => absurd hmem List.not_mem_nil
  | cons chunk chunks ih =>
      intro s hstarted hstopped hcloses
      unfold closes at hcloses
      show ∀ event ∈ (processChunk generateSignature chunk s).1 ++
        (forEach (processChunk generateSignature) chunks
          (processChunk generateSignature chunk s).2).1, event.isBlock = true
      rcases processChunk_cases generateSignature hstopped chunk with
        ⟨hobject, hskip⟩ | ⟨hobject, blocks, hblocks, ⟨usage, husage, hfinished, -⟩ |
          ⟨hopen, hwritten, hprogress⟩⟩
      · rw [if_pos hobject] at hcloses
        rw [hskip]
        exact ih s hstarted hstopped hcloses
      · rw [if_neg hobject, husage, hfinished] at hcloses
        cases hcloses
      · have hopening : opening chunk s = [] := if_pos hstarted
        have hfinished := congrArg Progress.finished hprogress
        rw [Progress.finished_finish] at hfinished
        rw [if_neg hobject, hopen, Bool.false_or] at hcloses
        have hrest := ih (processChunk generateSignature chunk s).2
          ((congrArg Progress.started hprogress).trans (by rw [Progress.started_finish]; rfl))
          ((congrArg Progress.stopped hprogress).trans
            (by rw [Progress.stopped_finish]; exact hstopped))
          (by rw [show (processChunk generateSignature chunk s).2.hasFinished = _ from hfinished]
              exact hcloses)
        rw [hwritten, hopening, List.nil_append]
        exact List.forall_mem_append.mpr ⟨hblocks, hrest⟩

/-- The usage that a message starts with. -/
def openingUsage (chunk : LlmResponse) : Json :=
  (chunk.usage.map convertLlmUsageToAnthropic).getD placeholderUsage

/-- A message that is never stopped. -/
theorem unclosed_run (chunks : List LlmResponse) (hcloses : closes false chunks = false) :
    ((forEach (processChunk generateSignature) chunks {}).1 = [] ∧ firstRead chunks = none) ∨
      ∃ (first : LlmResponse) (id model : String) (blocks : List Event),
        firstRead chunks = some first ∧ (∀ event ∈ blocks, event.isBlock = true) ∧
          (forEach (processChunk generateSignature) chunks {}).1 =
            .messageStart id model (openingUsage first) :: blocks := by
  induction chunks with
  | nil => exact .inl ⟨rfl, rfl⟩
  | cons chunk chunks ih =>
      have hrun : (forEach (processChunk generateSignature) (chunk :: chunks) {}).1 =
          (processChunk generateSignature chunk {}).1 ++
            (forEach (processChunk generateSignature) chunks
              (processChunk generateSignature chunk {}).2).1 := rfl
      unfold closes at hcloses
      rcases processChunk_cases generateSignature (show ({} : InboundStream).messageStopped = false
        from rfl) chunk with
        ⟨hobject, hskip⟩ | ⟨hobject, blocks, hblocks, ⟨usage, husage, hfinished, -⟩ |
          ⟨hopen, hwritten, hprogress⟩⟩
      · rw [if_pos hobject] at hcloses
        have hfirst : firstRead (chunk :: chunks) = firstRead chunks :=
          List.find?_cons_of_neg (by simp [hobject])
        rw [hrun, hskip, hfirst]
        exact ih hcloses
      · have hfinished : (false || (readFinish chunk).isSome) = true := hfinished
        rw [if_neg hobject, husage, hfinished] at hcloses
        cases hcloses
      · have hfirst : firstRead (chunk :: chunks) = some chunk :=
          List.find?_cons_of_pos (by simp [hobject])
        have hfinished := congrArg Progress.finished hprogress
        rw [Progress.finished_finish] at hfinished
        have hopen : ((false || (readFinish chunk).isSome) && chunk.usage.isSome) = false := hopen
        rw [if_neg hobject, hopen, Bool.false_or] at hcloses
        have hrest := blocks_run generateSignature chunks
          (processChunk generateSignature chunk {}).2
          ((congrArg Progress.started hprogress).trans (by rw [Progress.started_finish]; rfl))
          ((congrArg Progress.stopped hprogress).trans (by rw [Progress.stopped_finish]; rfl))
          (by rw [show (processChunk generateSignature chunk {}).2.hasFinished = _ from hfinished]
              exact hcloses)
        refine .inr ⟨chunk, (initMessage chunk {}).messageId, (initMessage chunk {}).model,
          blocks ++ _, hfirst, List.forall_mem_append.mpr ⟨hblocks, hrest⟩, ?_⟩
        rw [hrun, hwritten]
        rfl

/-- Blocks leave the usage and the stop reason as they are. -/
theorem add_block (parse : String → Option Json) {event : Event} (h : event.isBlock = true)
    (s : MessageAggregator) :
    (MessageAggregator.add parse s event.encode).usage = s.usage ∧
      (MessageAggregator.add parse s event.encode).stopReason = s.stopReason := by
  have htype : Json.strField event.encode "type" = some event.eventType := rfl
  unfold MessageAggregator.add
  rw [htype]
  cases event with
  | messageStart id model usage => cases h
  | contentBlockStart index contentBlock => exact ⟨rfl, rfl⟩
  | contentBlockDelta index delta =>
      simp only [Event.eventType, Option.getD_some, String.reduceEq, if_false, if_true]
      split
      · exact ⟨rfl, rfl⟩
      · split <;> exact ⟨rfl, rfl⟩
  | contentBlockStop index =>
      simp only [Event.eventType, Option.getD_some, String.reduceEq, if_false, if_true]
      split <;> exact ⟨rfl, rfl⟩
  | messageDelta stopReason usage => cases h
  | messageStop => cases h

theorem add_blocks (parse : String → Option Json) {events : List Event}
    (h : ∀ event ∈ events, event.isBlock = true) : ∀ s : MessageAggregator,
    ((events.map Event.encode).foldl (MessageAggregator.add parse) s).usage = s.usage ∧
      ((events.map Event.encode).foldl (MessageAggregator.add parse) s).stopReason =
        s.stopReason := by
  induction events with
  | nil => exact fun s => ⟨rfl, rfl⟩
  | cons event events ih =>
      intro s
      obtain ⟨husage, hstop⟩ := add_block parse (h event List.mem_cons_self) s
      obtain ⟨hrest, hrest'⟩ := ih (fun other hmem => h other (List.mem_cons_of_mem _ hmem))
        (MessageAggregator.add parse s event.encode)
      exact ⟨hrest.trans husage, hrest'.trans hstop⟩

theorem values_messages (events : List Event) :
    ((events.map Event.toWireEvent).filterMap fun event => event.data.bind Payload.value) =
      events.map Event.encode := by
  induction events with
  | nil => rfl
  | cons event events ih => exact congrArg (event.encode :: ·) ih

/-- What an unstopped message counts as generated. -/
def openingTokens (chunk : LlmResponse) : UInt64 := chunk.usage.elim 1 Usage.completionTokens

theorem convert_openingUsage (chunk : LlmResponse) :
    ∃ usage, convertAnthropicUsage (openingUsage chunk) = some usage ∧
      usage.completionTokens = openingTokens chunk := by
  unfold openingUsage openingTokens
  cases husage : chunk.usage with
  | none => exact ⟨_, rfl, rfl⟩
  | some usage =>
      have hnull : (convertLlmUsageToAnthropic usage).isNull = false := rfl
      have hconvert := convertAnthropicUsage_eq hnull
      refine ⟨_, hconvert, ?_⟩
      rw [read_convertLlmUsageToAnthropic]
      rfl

/-- An unstopped message is aggregated without a stop reason, with its first usage. -/
theorem aggregate_unclosed (env : Environment) (first : LlmResponse) (id model : String)
    {blocks : List Event} (h : ∀ event ∈ blocks, event.isBlock = true) :
    ∃ response, aggregate env .anthropicMessages
        ((Event.messageStart id model (openingUsage first) :: blocks).map Event.toWireEvent) =
          some response ∧
      (isCompletedAggregated response = true ↔ 0 < openingTokens first) := by
  have hnull : (openingUsage first).isNull = false := by
    unfold openingUsage
    cases first.usage <;> rfl
  have hfold : ∃ s : MessageAggregator, MessageAggregator.fold env.parse
      ((Event.messageStart id model (openingUsage first) :: blocks).map Event.toWireEvent) = s ∧
        s.usage = some (openingUsage first) ∧ s.stopReason = none := by
    refine ⟨_, rfl, ?_⟩
    unfold MessageAggregator.fold
    rw [values_messages, List.map_cons, List.foldl_cons]
    obtain ⟨husage, hstop⟩ := add_blocks env.parse h (MessageAggregator.add env.parse {}
      (Event.messageStart id model (openingUsage first)).encode)
    refine ⟨husage.trans ?_, hstop.trans rfl⟩
    show ((some (openingUsage first)).filter fun usage => !usage.isNull).or none = _
    rw [Option.filter_some, hnull]
    rfl
  obtain ⟨s, hs, husage, hstop⟩ := hfold
  obtain ⟨usage, hconvert, htokens⟩ := convert_openingUsage first
  have hget : s.message.get "usage" = some (openingUsage first) := by
    unfold MessageAggregator.message
    rw [husage, hstop]
    rfl
  have hreason : s.message.get "stop_reason" = none := by
    unfold MessageAggregator.message
    rw [husage, hstop]
    rfl
  refine ⟨liftUsage
    { body := s.message
      usage := some usage }, ?_, ?_⟩
  · have haggregated : aggregateAnthropicStreamChunks env.parse
        ((Event.messageStart id model (openingUsage first) :: blocks).map Event.toWireEvent) =
          some s.message := by rw [← hs]; rfl
    show (Anthropic.aggregateStreamChunks env.parse _).map liftUsage = _
    unfold Anthropic.aggregateStreamChunks
    rw [haggregated, Option.map_some, Option.map_some, hget, hreason, Option.bind_some, hconvert]
    rfl
  · rw [← htokens]
    simp [isCompletedAggregated, liftUsage]

theorem messages_metered (env : Environment) (chunks : List LlmResponse) :
    (∃ response, aggregate env .anthropicMessages (clientEvents env .anthropicMessages chunks) =
        some response ∧
      ((clientEvents env .anthropicMessages chunks).any isTerminalStreamEvent = true ∨
        isCompletedAggregated response = true)) ↔ Metered .anthropicMessages chunks := by
  show _ ↔ closes false chunks = true ∨ _
  have hterminal := messages_terminal env chunks
  cases hcloses : closes false chunks with
  | true =>
      refine iff_of_true ?_ (.inl rfl)
      cases hevents : clientEvents env .anthropicMessages chunks with
      | nil =>
          rw [hevents, hcloses] at hterminal
          cases hterminal.mpr rfl
      | cons event events => exact ⟨_, rfl, .inl (hevents ▸ hterminal.mpr hcloses)⟩
  | false =>
      rw [messages_events] at hterminal ⊢
      rcases unclosed_run env.generateSignature chunks hcloses with
        ⟨hrun, hfirst⟩ | ⟨first, id, model, blocks, hfirst, hblocks, hrun⟩
      · -- no chunk was read: nothing was sent
        rw [hrun, hfirst]
        simp [aggregate_empty]
      · obtain ⟨response, hresponse, hcompleted⟩ := aggregate_unclosed env first id model hblocks
        rw [hrun] at hterminal ⊢
        rw [hresponse, hfirst]
        have hnot : ((Event.messageStart id model (openingUsage first) :: blocks).map
            Event.toWireEvent).any isTerminalStreamEvent = false := by
          rw [Bool.eq_false_iff]
          exact fun h => absurd (hterminal.mp h) (by rw [hcloses]; simp)
        simp only [Option.some.injEq, exists_eq_left', hnot, hcompleted, Bool.false_eq_true,
          false_or]
        unfold openingTokens
        cases first.usage <;> simp

end Messages

/-! ## Responses -/

section ResponsesClient

open Responses Responses.ResponsesClientStream

/-- The data of the frames before the end. -/
theorem written_type {event : WireEvent} (h : Written event) :
    ∃ value, event.data.bind Payload.value = some value ∧
      Json.strField value "type" ≠ some "response.completed" := by
  obtain ⟨eventType, fields, hterminal, htype, rfl⟩ := h
  refine ⟨.object fields, rfl, ?_⟩
  intro hcompleted
  have hvalue : Json.strField (.object fields) "type" = some eventType := by
    show (Json.field fields "type").bind Json.asStr = _
    rw [htype]
    rfl
  rw [hvalue] at hcompleted
  refine hterminal ?_
  rw [Option.some.inj hcompleted]
  simp [terminalEventTypes]

/-- The data of the terminal event. -/
theorem ending_eq (last : ResponsesClientStream) :
    ∃ value response, last.ending =
        [{ eventType := some last.status.eventType, data := some (.json value) }] ∧
      Json.strField value "type" = some last.status.eventType ∧
      value.get "response" = some response := by
  refine ⟨_, (closeItems last last).2.responseSnapshot last.status.text
    (inOrder (last.finishedItems last.status)), rfl, ?_, ?_⟩
  · show (Json.field _ "type").bind Json.asStr = _
    rw [Json.field_insert, if_neg (by decide), Json.field_insert, if_pos rfl]
    rfl
  · show Json.field _ "response" = _
    rw [Json.field_insert, if_neg (by decide), Json.field_insert, if_neg (by decide)]
    rfl

/-- The aggregator finds the terminal event of a completed response, and no other. -/
theorem aggregate_ending {progress : List WireEvent} (h : ∀ event ∈ progress, Written event)
    (last : ResponsesClientStream) :
    (Responses.aggregateStreamChunks (progress ++ last.ending)).isSome = true ↔ last.status =
    .completed := by
  obtain ⟨value, response, hending, htype, hresponse⟩ := ending_eq last
  have hvalues : ((progress ++ last.ending).filterMap fun event => event.data.bind Payload.value) =
      (progress.filterMap fun event => event.data.bind Payload.value) ++ [value] := by
    rw [hending, List.filterMap_append]
    rfl
  have hprogress : ((progress.filterMap fun event =>
      event.data.bind Payload.value).reverse.find? fun value =>
        decide (Json.strField value "type" = some "response.completed")) = none := by
    rw [List.find?_eq_none]
    intro other hmem
    obtain ⟨event, hevent, hdata⟩ := List.mem_filterMap.mp (List.mem_reverse.mp hmem)
    obtain ⟨written, hwritten, hother⟩ := written_type (h event hevent)
    rw [Option.some.inj (hdata.symm.trans hwritten)]
    simpa using hother
  unfold Responses.aggregateStreamChunks completedEvent
  rw [hvalues, List.reverse_append, List.reverse_singleton, List.singleton_append, List.find?_cons,
    htype, hprogress]
  cases last.status <;> simp [Status.eventType, hresponse]

theorem terminal_ending (last : ResponsesClientStream) :
    last.ending.any isTerminalStreamEvent = true ↔ last.status = .completed := by
  obtain ⟨value, response, hending, -, -⟩ := ending_eq last
  rw [hending]
  cases last.status <;>
    simp [isTerminalStreamEvent, Status.eventType, terminalStreamEventTypes]

/-! ### The status -/

theorem choose_all (choices : List Choice) : ∀ o : Outcome,
    choices.foldl Outcome.choose o =
      { o with
        finishReason := (choices.filterMap Choice.finishReason).getLast?.or o.finishReason } := by
  induction choices with
  | nil => exact fun o => rfl
  | cons choice choices ih =>
      intro o
      rw [List.foldl_cons, ih]
      unfold Outcome.choose
      cases hreason : choice.finishReason with
      | none => rw [List.filterMap_cons_none hreason]; rfl
      | some reason =>
          rw [List.filterMap_cons_some hreason, List.getLast?_cons]
          cases (choices.filterMap Choice.finishReason).getLast? <;> rfl

/-- Without errors, the last finish reason is what counts. -/
theorem outcome_answered (chunks : List LlmResponse)
    (hnoError : ∀ chunk ∈ chunks, chunk.error = none) :
    ∀ o : Outcome, (chunks.foldl Outcome.after o).error = o.error ∧
      (chunks.foldl Outcome.after o).finishReason = (finishes chunks).getLast?.or o.finishReason :=
      by
  induction chunks with
  | nil => exact fun o => ⟨rfl, rfl⟩
  | cons chunk chunks ih =>
      intro o
      obtain ⟨herror, hreason⟩ := ih
        (fun other hmem => hnoError other (List.mem_cons_of_mem _ hmem))
        (o.after chunk)
      have hfinishes : finishes (chunk :: chunks) =
          chunk.choices.filterMap Choice.finishReason ++ finishes chunks := by
        unfold finishes
        rw [List.flatMap_cons, List.filterMap_append]
      have hafter : o.after chunk = ⟨true,
          (chunk.choices.filterMap Choice.finishReason).getLast?.or o.finishReason, o.error⟩ := by
        unfold Outcome.after
        rw [choose_all, hnoError chunk List.mem_cons_self]
        rfl
      rw [List.foldl_cons, herror, hreason, hafter, hfinishes, List.getLast?_append,
        Option.or_assoc]
      exact ⟨rfl, rfl⟩

/-- The status an answered stream ends with. -/
theorem status_answered {chunks : List LlmResponse} (h : Answered chunks)
    {last : ResponsesClientStream}
    (hlast : last.outcome =
      (chunks.foldl Outcome.after ({} : ResponsesClientStream).outcome).close) :
    last.status = .completed ↔ Metered .openAiResponses chunks := by
  obtain ⟨herror, hreason⟩ := outcome_answered chunks h.noError ({} : ResponsesClientStream).outcome
  have hor : (finishes chunks).getLast?.or none = (finishes chunks).getLast? := Option.or_none
  cases hfinish : (finishes chunks).getLast? with
  | none => exact absurd (List.getLast?_eq_none_iff.mp hfinish) h.finished
  | some reason =>
      rw [hfinish] at hreason
      have hclose : (chunks.foldl Outcome.after ({} : ResponsesClientStream).outcome).close =
          chunks.foldl Outcome.after ({} : ResponsesClientStream).outcome := by
        unfold Outcome.close
        rw [hreason]
        rfl
      rw [hclose] at hlast
      have hlastReason : last.finishReason = some reason :=
        (congrArg Outcome.finishReason hlast).trans hreason
      have hlastError : last.error = none := (congrArg Outcome.error hlast).trans herror
      have hmetered : Metered .openAiResponses chunks ↔
          reason ≠ "length" ∧ reason ≠ "content_filter" := by
        unfold Metered
        rw [hfinish]
        simp
      have hmem := h.reasons reason (List.mem_of_getLast? hfinish)
      rw [hmetered]
      unfold status
      rw [hlastReason, hlastError]
      simp only [finishReasons, List.mem_cons, List.not_mem_nil, or_false] at hmem
      rcases hmem with rfl | rfl | rfl | rfl <;> simp [streamStatus]

theorem responses_metered (env : Environment) {chunks : List LlmResponse} (h : Answered chunks) :
    (∃ response, aggregate env .openAiResponses (clientEvents env .openAiResponses chunks) =
        some response ∧
      ((clientEvents env .openAiResponses chunks).any isTerminalStreamEvent = true ∨
        isCompletedAggregated response = true)) ↔ Metered .openAiResponses chunks := by
  have hne : chunks ≠ [] := by
    rintro rfl
    exact h.finished rfl
  obtain ⟨progress, last, hwritten, hlast, hrun⟩ := runFrom_started env.surroundings chunks {}
    (.inr hne)
  have hevents : clientEvents env .openAiResponses chunks = progress ++ last.ending := hrun
  have hsome := aggregate_ending hwritten last
  rw [hevents, ← status_answered h hlast]
  constructor
  · rintro ⟨response, hresponse, -⟩
    obtain ⟨inner, hinner, -⟩ := Option.map_eq_some_iff.mp hresponse
    exact hsome.mp (Option.isSome_iff_exists.mpr ⟨inner, hinner⟩)
  · intro hstatus
    obtain ⟨inner, hinner⟩ := Option.isSome_iff_exists.mp (hsome.mpr hstatus)
    refine ⟨liftUsage inner, congrArg (Option.map liftUsage) hinner, .inl ?_⟩
    rw [List.any_append, (terminal_ending last).mpr hstatus, Bool.or_true]

end ResponsesClient

/-! ## The accounting of answered streams -/

theorem metered (env : Environment) (format : StreamFormat) {chunks : List LlmResponse}
    (h : Answered chunks) :
    (∃ response, aggregate env format (clientEvents env format chunks) = some response ∧
      ((clientEvents env format chunks).any isTerminalStreamEvent = true ∨
        isCompletedAggregated response = true)) ↔ Metered format chunks := by
  cases format with
  | openAiChat => exact iff_of_true (chat_metered h.finished) trivial
  | anthropicMessages => exact messages_metered env chunks
  | openAiResponses => exact responses_metered env h

/-- An answered stream that was kept as a whole is recorded as a success exactly
if its format's accounting has what it asks for. -/
theorem answered_recorded_iff (env : Environment) (format : StreamFormat) (size : WireEvent → Nat)
    (chunks : List LlmResponse) (hanswered : Answered chunks)
    (hkept : (StreamChunkBuffer.pushAll size (clientEvents env format chunks)).budgetExceeded =
      false) :
    RecordedAsSuccess env format size chunks ↔ Metered format chunks :=
  (recordedAsSuccess_iff hkept).trans (metered env format hanswered)

/-! ## An answer that was cut -/

def plainEnvironment : Environment where
  parse _ := none
  generateSignature _ := ""
  surroundings :=
    { generatedId := fun kind _ => kind
      now := 0 }

/-- One chunk with text, a finish reason and usage. -/
def answer (reason : String) : List LlmResponse :=
  [{ id := "a"
     model := "m"
     choices :=
       [{ index := 0
          delta := some { content := some (.text "hi") }
          finishReason := some reason }]
     usage := some
       { promptTokens := 1
         completionTokens := 1 } }]

theorem answer_answered {reason : String} (h : reason ∈ finishReasons) : Answered
    (answer reason) where
  usage := ⟨_, List.mem_cons_self, rfl⟩
  finished := List.cons_ne_nil _ _
  reasons := by
    intro other hmem
    obtain rfl := List.mem_singleton.mp hmem
    exact h
  noError := by
    intro chunk hmem
    obtain rfl := List.mem_singleton.mp hmem
    rfl

theorem answer_kept : ∀ reason ∈ finishReasons,
    (StreamChunkBuffer.pushAll (fun _ => 1)
      (clientEvents plainEnvironment .openAiResponses (answer reason))).budgetExceeded = false := by
  decide

theorem answered_recorded_stop :
    Answered (answer "stop") ∧
      (StreamChunkBuffer.pushAll (fun _ => 1)
        (clientEvents plainEnvironment .openAiResponses (answer "stop"))).budgetExceeded = false ∧
      (RecordedAsSuccess plainEnvironment .openAiResponses (fun _ => 1) (answer "stop") ↔
        Metered .openAiResponses (answer "stop")) :=
  ⟨answer_answered (by simp [finishReasons]), answer_kept "stop" (by decide),
    answered_recorded_iff _ _ _ _ (answer_answered (by simp [finishReasons]))
      (answer_kept "stop" (by decide))⟩

/-- Cut at the token limit, a Responses stream is recorded as a failure. -/
theorem cut_answer_recorded_as_failure :
    Answered (answer "length") ∧
      (StreamChunkBuffer.pushAll (fun _ => 1)
        (clientEvents plainEnvironment .openAiResponses (answer "length"))).budgetExceeded = false ∧
      ¬ RecordedAsSuccess plainEnvironment .openAiResponses (fun _ => 1) (answer "length") := by
  have hanswered : Answered (answer "length") := answer_answered (by simp [finishReasons])
  refine ⟨hanswered, answer_kept "length" (by decide), fun hrecorded => ?_⟩
  have hmetered := (metered plainEnvironment .openAiResponses hanswered).mp
    ((recordedAsSuccess_iff (answer_kept "length" (by decide))).mp hrecorded)
  exact (hmetered "length" rfl).1 rfl

end Conduit.Orchestrator.OutboundStream
