import Conduit.Transformers.ClientProtocol
import Conduit.Transformers.Logic.AnthropicInboundStream
import Conduit.Transformers.Logic.ClientTerminals

/-!
# Where the Anthropic client stream ends

Everything but the last step of a chunk leaves `message_stop` alone. The types
of the events are read off the parts of the chunks; once the stop is among
them, a part adds none exactly if it has no content.
-/

namespace Conduit.Transformers.Anthropic.InboundStream

open Base Pipeline Emitter

/-! ## Everything but the stop -/

/-- How far the message is. -/
structure Progress where
  started : Bool := false
  finished : Bool := false
  stopReason : Option String := none
  stopped : Bool := false

namespace Progress

def start (p : Progress) : Progress := { p with started := true }

/-- Only the first finish reason counts. -/
def finish (finishReason : Option String) (p : Progress) : Progress :=
  if p.finished then p
  else
    { p with
      finished := finishReason.isSome
      stopReason := (finishReason.map convertFinishReason).or p.stopReason }

theorem finish_none (p : Progress) : p.finish none = p := by
  unfold finish
  cases hfinished : p.finished with
  | true => rfl
  | false =>
      cases p
      simp_all

@[simp] theorem started_finish (finishReason : Option String) (p : Progress) :
    (p.finish finishReason).started = p.started := by
  unfold finish
  split <;> rfl

@[simp] theorem stopped_finish (finishReason : Option String) (p : Progress) :
    (p.finish finishReason).stopped = p.stopped := by
  unfold finish
  split <;> rfl

@[simp] theorem finished_finish (finishReason : Option String) (p : Progress) :
    (p.finish finishReason).finished = (p.finished || finishReason.isSome) := by
  unfold finish
  cases hfinished : p.finished <;> simp [hfinished]

end Progress

def progress (s : InboundStream) : Progress :=
  ⟨s.hasStarted, s.hasFinished, s.stopReason, s.messageStopped⟩

def At (p : Progress) (s : InboundStream) : Prop := s.progress = p

/-- Only events about blocks are written and the flags stay. -/
abbrev Body (f : StreamStep) : Prop :=
  ∀ p, Emits (fun event => event.isBlock = true) (At p) (At p) f

theorem enqueueEvent_body {event : InboundStream → Event} (h : ∀ s, (event s).isBlock = true) :
    Body (enqueueEvent event) := by
  intro p s hs
  unfold enqueueEvent
  split
  · exact ⟨fun _ hmem => absurd hmem (by simp), hs⟩
  · refine ⟨fun e hmem => ?_, hs⟩
    obtain rfl := List.mem_singleton.mp hmem
    exact h s

theorem stopBlock_body : Body stopBlock := by
  intro p
  refine Emits.seq (enqueueEvent_body (fun _ => rfl) _) ?_
  exact Emits.update fun _ hs => hs

/-- A step behind a flag that it lowers first. -/
theorem closeBlock_body {flag : InboundStream → Bool} {lower : InboundStream → InboundStream}
    (hlower : ∀ s, (lower s).progress = s.progress) :
    Body (whenever flag ((update lower).seq stopBlock)) := by
  intro p
  refine Emits.whenever (Emits.seq (J := At p) ?_ (stopBlock_body _)) fun _ hs _ => hs
  exact Emits.update fun s hs => (hlower s).trans hs

theorem closeTextBlock_body : Body closeTextBlock := closeBlock_body fun _ => rfl

theorem closeToolBlock_body : Body closeToolBlock := closeBlock_body fun _ => rfl

theorem startBlock_body (contentBlock : Json) : Body (startBlock contentBlock) :=
  enqueueEvent_body fun _ => rfl

theorem writeDelta_body (delta : BlockDelta) : Body (writeDelta delta) :=
  enqueueEvent_body fun _ => rfl

theorem closeThinkingBlock_body (generateSignature : Nat → String) :
    Body (closeThinkingBlock generateSignature) := by
  intro p s hs
  unfold closeThinkingBlock
  split
  · exact ((closeTextBlock_body _).seq ((closeToolBlock_body _).seq
      ((startBlock_body _ _).seq ((writeDelta_body _ _).seq (stopBlock_body _))))) _ hs
  · exact ((writeDelta_body _ _).seq (stopBlock_body _)) _ hs
  · exact ⟨fun _ hmem => absurd hmem (by simp), hs⟩

theorem reasoningDelta_body (reasoning : String) : Body (reasoningDelta reasoning) := by
  intro p
  refine (closeTextBlock_body _).seq ((closeToolBlock_body _).seq
    (Emits.seq (J := At p) ?_ (writeDelta_body _ _)))
  refine Emits.whenever (Emits.seq (J := At p) ?_ (startBlock_body _ _))
    fun _ hs _ => hs
  exact Emits.update fun _ hs => hs

theorem argumentsDelta_body (toolCall : ToolCall) : Body (argumentsDelta toolCall) := by
  intro p
  unfold argumentsDelta
  split
  · exact Emits.skip
  · refine Emits.seq (J := At p) ?_ (writeDelta_body _ _)
    exact Emits.update fun _ hs => hs

theorem toolCallDelta_body (toolCall : ToolCall) : Body (toolCallDelta toolCall) := by
  intro p s hs
  unfold toolCallDelta
  split
  · exact argumentsDelta_body toolCall _ s hs
  · refine (Emits.seq (J := At p) ?_
      (Emits.seq (J := At p) ?_
        ((startBlock_body _ _).seq (argumentsDelta_body toolCall _)))) s hs
    · split
      · exact closeToolBlock_body _
      · exact Emits.skip
    · exact Emits.update fun _ hs => hs

section Signatures

variable (generateSignature : Nat → String)

theorem redactedDelta_body (redacted : String) : Body (redactedDelta generateSignature redacted) :=
  fun _ => (closeThinkingBlock_body _ _).seq ((closeToolBlock_body _).seq
    ((closeTextBlock_body _).seq ((startBlock_body _ _).seq (stopBlock_body _))))

theorem textDelta_body (text : String) : Body (textDelta generateSignature text) := by
  intro p
  refine (closeThinkingBlock_body _ _).seq ((closeToolBlock_body _).seq
    (Emits.seq (J := At p) ?_ (writeDelta_body _ _)))
  refine Emits.whenever (Emits.seq (J := At p) ?_ (startBlock_body _ _))
    fun _ hs _ => hs
  exact Emits.update fun _ hs => hs

theorem toolCallDeltas_body (toolCalls : List ToolCall) :
    Body (toolCallDeltas generateSignature toolCalls) := by
  intro p
  unfold toolCallDeltas
  split
  · exact Emits.skip
  · exact (closeThinkingBlock_body _ _).seq ((closeTextBlock_body _).seq
      (Emits.forEach fun toolCall _ => toolCallDelta_body toolCall _))

theorem inlineToolResults_body (results : List InlineToolResult) :
    Body (inlineToolResults generateSignature results) := by
  intro p
  unfold inlineToolResults
  split
  · exact Emits.skip
  · exact (closeThinkingBlock_body _ _).seq ((closeToolBlock_body _).seq
      ((closeTextBlock_body _).seq
        (Emits.forEach fun _ _ => (startBlock_body _ _).seq (stopBlock_body _))))

theorem messageDelta_body (delta : LlmMessage) : Body (messageDelta generateSignature delta) := by
  intro p
  refine (Emits.forEach fun _ _ => reasoningDelta_body _ _).seq
    (Emits.seq (J := At p) (Emits.forEach fun _ _ => ?_)
      ((Emits.forEach fun _ _ => redactedDelta_body generateSignature _ _).seq
        ((Emits.forEach fun _ _ => textDelta_body generateSignature _ _).seq
          ((toolCallDeltas_body generateSignature _ _).seq
            (inlineToolResults_body generateSignature _ _)))))
  exact Emits.update fun _ hs => hs

theorem finish_emits (finishReason : String) (p : Progress) :
    Emits (fun event => event.isBlock = true) (At p) (At (p.finish (some finishReason)))
      (finish generateSignature finishReason) := by
  intro s hs
  unfold At at hs
  subst hs
  unfold finish Progress.finish
  cases hfinished : s.hasFinished with
  | true =>
      rw [if_pos (show s.progress.finished = true from hfinished)]
      exact Emits.idle (whenever_false (c := fun s : InboundStream => !s.hasFinished)
        (by rw [hfinished]; rfl) _) rfl
  | false =>
      rw [if_neg (by rw [show s.progress.finished = false from hfinished]; simp),
        whenever_true (c := fun s : InboundStream => !s.hasFinished) (by rw [hfinished]; rfl)]
      -- the flag goes up first, the reason is noted when the blocks are closed
      refine (Emits.seq (I := At s.progress) (J := At { s.progress with finished := true }) ?_
        ((closeThinkingBlock_body _ _).seq ((closeTextBlock_body _).seq
          ((closeToolBlock_body _).seq ?_)))) s rfl
      · refine Emits.update fun s' hs' => ?_
        show ({ s'.progress with finished := true } : Progress) = _
        rw [show s'.progress = s.progress from hs']
      · refine Emits.update fun s' hs' => ?_
        show ({ s'.progress with stopReason := some (convertFinishReason finishReason) } : Progress) = _
        rw [show s'.progress = _ from hs']
        rfl

theorem choiceDelta_emits (choice : Choice) (p : Progress) :
    Emits (fun event => event.isBlock = true) (At p) (At (p.finish choice.finishReason))
      (choiceDelta generateSignature choice) := by
  unfold choiceDelta
  refine Emits.seq (Emits.forEach fun delta _ => messageDelta_body generateSignature delta _) ?_
  cases choice.finishReason with
  | none =>
      rw [Progress.finish_none]
      exact Emits.skip
  | some finishReason => exact (finish_emits generateSignature finishReason _).seq Emits.skip

/-! ## Chunks before the stop -/

/-- The choices of a chunk. -/
def chunkChoices (chunk : LlmResponse) : StreamStep :=
  forEach (choiceDelta generateSignature) chunk.choices.head?.toList

theorem chunkChoices_emits (chunk : LlmResponse) (p : Progress) :
    Emits (fun event => event.isBlock = true) (At p) (At (p.finish (readFinish chunk)))
      (chunkChoices generateSignature chunk) := by
  unfold chunkChoices readFinish
  cases chunk.choices.head? with
  | none =>
      rw [Option.bind_none, Progress.finish_none]
      exact Emits.skip
  | some choice => exact (choiceDelta_emits generateSignature choice p).seq Emits.skip

/-- The event that opens the message, with the first chunk. -/
def opening (chunk : LlmResponse) (s : InboundStream) : List Event :=
  if s.hasStarted then []
  else
    [.messageStart (initMessage chunk s).messageId (initMessage chunk s).model
      ((chunk.usage.map convertLlmUsageToAnthropic).getD placeholderUsage)]

theorem startMessage_written (chunk : LlmResponse) (s : InboundStream) :
    (startMessage chunk.usage (initMessage chunk s)).1 = opening chunk s ∧
      (startMessage chunk.usage (initMessage chunk s)).2.progress = s.progress.start := by
  unfold startMessage opening
  cases hstarted : s.hasStarted with
  | true =>
      rw [whenever_false (c := fun s : InboundStream => !s.hasStarted)
        (by rw [show (initMessage chunk s).hasStarted = true from hstarted]; rfl)]
      refine ⟨rfl, ?_⟩
      unfold Progress.start progress
      rw [← hstarted]
      rfl
  | false =>
      rw [whenever_true (c := fun s : InboundStream => !s.hasStarted)
        (by rw [show (initMessage chunk s).hasStarted = false from hstarted]; rfl)]
      unfold seq update
      dsimp only
      rw [enqueueEvent_apply fun _ => by simp [Event.eventType]]
      exact ⟨rfl, rfl⟩

/-- A chunk without its last step. -/
def chunkBody (chunk : LlmResponse) : StreamStep :=
  (update (initMessage chunk)).seq <| (startMessage chunk.usage).seq (chunkChoices generateSignature chunk)

theorem processChunk_eq {chunk : LlmResponse} (h : chunk.object ≠ "[DONE]") :
    processChunk generateSignature chunk =
      (chunkBody generateSignature chunk).seq (forEach stopMessage chunk.usage.toList) := by
  unfold processChunk chunkBody
  rw [if_neg h, seq_assoc, seq_assoc]
  rfl

theorem chunkBody_written (chunk : LlmResponse) (s : InboundStream) :
    ∃ blocks : List Event, (∀ event ∈ blocks, event.isBlock = true) ∧
      (chunkBody generateSignature chunk s).1 = opening chunk s ++ blocks ∧
      (chunkBody generateSignature chunk s).2.progress = s.progress.start.finish (readFinish chunk) := by
  obtain ⟨hopening, hstart⟩ := startMessage_written chunk s
  obtain ⟨hblocks, hprogress⟩ := chunkChoices_emits generateSignature chunk s.progress.start _ hstart
  exact ⟨_, hblocks, congrArg (· ++ _) hopening, hprogress⟩

end Signatures

/-! ## The stop -/

theorem stopMessage_idle {s : InboundStream} (h : (s.hasFinished && !s.messageStopped) = false)
    (usage : Usage) : stopMessage usage s = ([], s) := by
  unfold stopMessage
  exact whenever_false (c := fun s : InboundStream => s.hasFinished && !s.messageStopped) h _

theorem stopMessage_stops {s : InboundStream} (hfinished : s.hasFinished = true)
    (hstopped : s.messageStopped = false) (usage : Usage) :
    (stopMessage usage s).1 =
      [.messageDelta s.stopReason (convertLlmUsageToAnthropic usage), .messageStop] := by
  unfold stopMessage
  rw [whenever_true (c := fun s : InboundStream => s.hasFinished && !s.messageStopped) (by rw [hfinished, hstopped]; rfl)]
  unfold seq
  rw [enqueueEvent_apply fun _ => by simp [Event.eventType]]
  dsimp only
  rw [enqueueEvent_apply fun _ => by simp [Event.eventType]]
  rfl

section Runs

variable (generateSignature : Nat → String)

/-- What a chunk does before the stop: it is skipped, or stops the message with
its last event, or writes no stop. -/
theorem processChunk_cases {s : InboundStream} (h : s.messageStopped = false) (chunk : LlmResponse) :
    (chunk.object = "[DONE]" ∧ processChunk generateSignature chunk s = ([], s)) ∨
    (chunk.object ≠ "[DONE]" ∧ ∃ blocks : List Event, (∀ event ∈ blocks, event.isBlock = true) ∧
      ((∃ usage, chunk.usage = some usage ∧ (s.hasFinished || (readFinish chunk).isSome) = true ∧
        (processChunk generateSignature chunk s).1 = opening chunk s ++ blocks ++
          [.messageDelta (s.progress.start.finish (readFinish chunk)).stopReason
            (convertLlmUsageToAnthropic usage), .messageStop]) ∨
      (((s.hasFinished || (readFinish chunk).isSome) && chunk.usage.isSome) = false ∧
        (processChunk generateSignature chunk s).1 = opening chunk s ++ blocks ∧
        (processChunk generateSignature chunk s).2.progress =
          s.progress.start.finish (readFinish chunk)))) := by
  by_cases hobject : chunk.object = "[DONE]"
  · refine .inl ⟨hobject, ?_⟩
    unfold processChunk
    rw [if_pos hobject]
    rfl
  · obtain ⟨blocks, hblocks, hwritten, hprogress⟩ := chunkBody_written generateSignature chunk s
    refine .inr ⟨hobject, blocks, hblocks, ?_⟩
    have hfinished := congrArg Progress.finished hprogress
    have hstopped := congrArg Progress.stopped hprogress
    rw [Progress.finished_finish] at hfinished
    rw [Progress.stopped_finish] at hstopped
    rw [processChunk_eq generateSignature hobject]
    cases husage : chunk.usage with
    | none =>
        refine .inr ⟨by simp, ?_, hprogress⟩
        unfold seq
        rw [Option.toList_none, forEach_nil, List.append_nil]
        exact hwritten
    | some usage =>
        cases hdone : s.hasFinished || (readFinish chunk).isSome with
        | true =>
            have hlast := stopMessage_stops (hfinished.trans hdone) (hstopped.trans h) usage
            refine .inl ⟨usage, rfl, rfl, ?_⟩
            rw [Option.toList_some, forEach_cons, ← show (chunkBody generateSignature
              chunk s).2.stopReason = _ from congrArg Progress.stopReason hprogress]
            unfold seq
            dsimp only
            rw [hlast, hwritten]
            simp
        | false =>
            have hidle : forEach stopMessage (some usage).toList (chunkBody generateSignature chunk s).2 =
                ([], (chunkBody generateSignature chunk s).2) := by
              rw [Option.toList_some, forEach_cons, seq_idle (stopMessage_idle (by
                rw [show (chunkBody generateSignature chunk s).2.hasFinished = false from
                  hfinished.trans hdone]; rfl) usage)]
              rfl
            refine .inr ⟨rfl, ?_, ?_⟩
            · unfold seq
              dsimp only
              rw [hidle, List.append_nil]
              exact hwritten
            · unfold seq
              dsimp only
              rw [hidle]
              exact hprogress

/-- Opening and blocks hold no stop. -/
theorem messageStop_notMem_body (chunk : LlmResponse) (s : InboundStream) {blocks : List Event}
    (hblocks : ∀ event ∈ blocks, event.isBlock = true) :
    .messageStop ∉ opening chunk s ++ blocks := by
  intro hmem
  rcases List.mem_append.mp hmem with hopening | hblock
  · unfold opening at hopening
    split at hopening <;> simp at hopening
  · exact absurd (hblocks _ hblock) (by simp [Event.isBlock])

theorem unstopped_run (chunks : List LlmResponse) :
    ∀ s : InboundStream, s.messageStopped = false →
      (.messageStop ∈ (forEach (processChunk generateSignature) chunks s).1 ↔
        closes s.hasFinished chunks = true) := by
  induction chunks with
  | nil => exact fun _ _ => iff_of_false (by simp) (by simp [closes])
  | cons chunk chunks ih =>
      intro s hs
      have hrun : (forEach (processChunk generateSignature) (chunk :: chunks) s).1 =
          (processChunk generateSignature chunk s).1 ++
            (forEach (processChunk generateSignature) chunks
              (processChunk generateSignature chunk s).2).1 := rfl
      rw [hrun]
      unfold closes
      rcases processChunk_cases generateSignature hs chunk with
        ⟨hobject, hskip⟩ | ⟨hobject, blocks, hblocks, ⟨usage, husage, hcloses, hwritten⟩ |
          ⟨hopen, hwritten, hprogress⟩⟩
      · rw [if_pos hobject, hskip, List.nil_append]
        exact ih s hs
      · rw [if_neg hobject, husage, hcloses, hwritten, List.append_assoc]
        exact iff_of_true (by simp) rfl
      · have hnot := messageStop_notMem_body chunk s hblocks
        have hfinished := congrArg Progress.finished hprogress
        have hstopped := congrArg Progress.stopped hprogress
        rw [Progress.finished_finish] at hfinished
        rw [Progress.stopped_finish] at hstopped
        rw [if_neg hobject, hopen, hwritten, List.mem_append, or_iff_right hnot, Bool.false_or,
          ih _ (hstopped.trans hs)]
        rw [show (processChunk generateSignature chunk s).2.hasFinished =
          (s.hasFinished || (readFinish chunk).isSome) from hfinished]

end Runs

end Conduit.Transformers.Anthropic.InboundStream

/-! ## The sketch -/

namespace Conduit.Transformers.Anthropic

open Base Pipeline Emitter

/-- The state of the iterator without its texts. -/
def InboundStream.sketch (s : InboundStream) : Sketch where
  started := s.hasStarted
  text := s.hasTextContentStarted
  thinking := s.hasThinkingContentStarted
  tool := s.hasToolContentStarted
  pendingSignature := s.pendingSignature.isSome
  toolCalls := s.toolCalls.map (·.1)
  finished := s.hasFinished
  stopped := s.messageStopped
  lastEventType := s.lastEventType

namespace Sketch

/-- The step on the sketch is that of the iterator. -/
abbrev Sketches (f : StreamStep) (g : Step) : Prop :=
  Mirrors InboundStream.sketch Event.eventType f g

theorem sketches_event {event : InboundStream → Event} {eventType : String}
    (h : ∀ s, (event s).eventType = eventType) :
    Sketches (InboundStream.enqueueEvent event) (Sketch.event eventType) := by
  intro s
  unfold InboundStream.enqueueEvent Sketch.event
  rw [h, show s.sketch.lastEventType = s.lastEventType from rfl]
  split
  · exact ⟨rfl, rfl⟩
  · exact ⟨congrArg (fun eventType => [eventType]) (h s), rfl⟩

theorem sketches_startBlock (contentBlock : Json) :
    Sketches (InboundStream.startBlock contentBlock) startBlock := sketches_event fun _ => rfl

theorem sketches_writeDelta (delta : BlockDelta) :
    Sketches (InboundStream.writeDelta delta) writeDelta := sketches_event fun _ => rfl

theorem sketches_stopBlock : Sketches InboundStream.stopBlock stopBlock := by
  have hindex : Sketches (update fun s => { s with contentIndex := s.contentIndex + 1 }) skip :=
    fun _ => ⟨rfl, rfl⟩
  rw [← seq_skip stopBlock]
  exact Mirrors.seq (sketches_event fun _ => rfl) hindex

theorem sketches_closeTextBlock : Sketches InboundStream.closeTextBlock closeText :=
  .whenever (fun _ => rfl) (.seq (.update fun _ => rfl) sketches_stopBlock)

theorem sketches_closeToolBlock : Sketches InboundStream.closeToolBlock closeTool :=
  .whenever (fun _ => rfl) (.seq (.update fun _ => rfl) sketches_stopBlock)

theorem sketches_closeThinkingBlock (generateSignature : Nat → String) :
    Sketches (InboundStream.closeThinkingBlock generateSignature) closeThinking := by
  intro s
  unfold InboundStream.closeThinkingBlock closeThinking
  rw [show s.sketch.thinking = s.hasThinkingContentStarted from rfl,
    show s.sketch.pendingSignature = s.pendingSignature.isSome from rfl]
  cases s.hasThinkingContentStarted with
  | true => exact ((sketches_writeDelta _).seq sketches_stopBlock) _
  | false =>
      cases s.pendingSignature with
      | none => exact ⟨rfl, rfl⟩
      | some signature =>
          exact (sketches_closeTextBlock.seq (sketches_closeToolBlock.seq
            ((sketches_startBlock _).seq ((sketches_writeDelta _).seq sketches_stopBlock)))) _

theorem sketches_reasoningDelta (reasoning : String) :
    Sketches (InboundStream.reasoningDelta reasoning) (read .thinking) :=
  .seq sketches_closeTextBlock <| .seq sketches_closeToolBlock <|
    .seq (.whenever (fun _ => rfl) (.seq (.update fun _ => rfl) (sketches_startBlock _)))
      (sketches_writeDelta _)

theorem sketches_bufferSignature (signature : String) :
    Sketches (InboundStream.bufferSignature signature) (read .signature) := .update fun _ => rfl

theorem sketches_argumentsDelta (toolCall : ToolCall) :
    Sketches (InboundStream.argumentsDelta toolCall)
      (arguments (decide (toolCall.functionArguments ≠ ""))) := by
  have hpush : Sketches (update (InboundStream.pushArguments toolCall.index
      toolCall.functionArguments)) skip := by
    refine fun s => ⟨rfl, ?_⟩
    have hcalls : (s.toolCalls.map fun entry =>
        if entry.1 = toolCall.index then
          (entry.1, { entry.2 with arguments := entry.2.arguments ++ toolCall.functionArguments })
        else entry).map (·.1) = s.toolCalls.map (·.1) := by
      rw [List.map_map]
      refine List.map_congr_left fun entry _ => ?_
      dsimp only [Function.comp]
      split <;> rfl
    exact congrArg (fun toolCalls => ({ s.sketch with toolCalls } : Sketch)) hcalls
  unfold InboundStream.argumentsDelta arguments
  by_cases h : toolCall.functionArguments = ""
  · rw [if_pos h, if_neg (by simp [h])]
    exact .skip
  · rw [if_neg h, if_pos (by simp [h])]
    exact hpush.seq (sketches_writeDelta _)

theorem sketches_toolCallDelta (toolCall : ToolCall) :
    Sketches (InboundStream.toolCallDelta toolCall) (read (fragmentPart toolCall)) := by
  have hclose : Sketches (if 0 < toolCall.index then InboundStream.closeToolBlock else skip)
      (if 0 < toolCall.index then closeTool else skip) := by
    split
    · exact sketches_closeToolBlock
    · exact .skip
  have htrack : ∀ s : InboundStream, (InboundStream.trackToolCall toolCall s).sketch =
      { s.sketch with tool := true, toolCalls := s.sketch.toolCalls ++ [toolCall.index] } := by
    intro s
    unfold InboundStream.trackToolCall InboundStream.sketch
    simp
  intro s
  show _ = (fragment toolCall.index _ s.sketch).1 ∧ _ = (fragment toolCall.index _ s.sketch).2
  unfold InboundStream.toolCallDelta fragment
  rw [show s.sketch.toolCalls = s.toolCalls.map (·.1) from rfl]
  split
  · exact sketches_argumentsDelta toolCall s
  · exact (hclose.seq (.seq (.update htrack)
      ((sketches_startBlock _).seq (sketches_argumentsDelta toolCall)))) s

section Signatures

variable (generateSignature : Nat → String)

theorem sketches_redactedDelta (redacted : String) :
    Sketches (InboundStream.redactedDelta generateSignature redacted) (read .redacted) :=
  (sketches_closeThinkingBlock _).seq <| sketches_closeToolBlock.seq <|
    sketches_closeTextBlock.seq ((sketches_startBlock _).seq sketches_stopBlock)

theorem sketches_textDelta (text : String) :
    Sketches (InboundStream.textDelta generateSignature text) (read .text) :=
  .seq (sketches_closeThinkingBlock _) <| .seq sketches_closeToolBlock <|
    .seq (.whenever (fun _ => rfl) (.seq (.update fun _ => rfl) (sketches_startBlock _)))
      (sketches_writeDelta _)

theorem sketches_toolCallDeltas (toolCalls : List ToolCall) :
    Sketches (InboundStream.toolCallDeltas generateSignature toolCalls)
      (forEach read (if toolCalls.isEmpty then [] else .toolCalls :: toolCalls.map fragmentPart)) := by
  unfold InboundStream.toolCallDeltas
  cases toolCalls.isEmpty with
  | true => exact .skip
  | false =>
      have hseq := ((sketches_closeThinkingBlock generateSignature).seq sketches_closeTextBlock).seq
        (.forEach_map fragmentPart sketches_toolCallDelta toolCalls)
      rw [seq_assoc] at hseq
      exact hseq

theorem sketches_inlineToolResults (results : List InlineToolResult) :
    Sketches (InboundStream.inlineToolResults generateSignature results)
      (forEach read (if results.isEmpty then []
        else .toolResults ::
          (results.filterMap toolResultBlockFromInline).map fun _ => .toolResult)) := by
  unfold InboundStream.inlineToolResults
  cases results.isEmpty with
  | true => exact .skip
  | false =>
      have hblocks : ∀ block : Json, Sketches (InboundStream.toolResultBlock block)
          (read .toolResult) := fun _ => (sketches_startBlock _).seq sketches_stopBlock
      have hseq := ((sketches_closeThinkingBlock generateSignature).seq
        (sketches_closeToolBlock.seq sketches_closeTextBlock)).seq
        (.forEach_map (fun _ => Part.toolResult) hblocks (results.filterMap toolResultBlockFromInline))
      rw [seq_assoc, seq_assoc] at hseq
      exact hseq

theorem sketches_messageDelta (delta : LlmMessage) :
    Sketches (InboundStream.messageDelta generateSignature delta)
      (forEach read (deltaParts delta)) := by
  unfold deltaParts
  simp only [forEach_append, seq_assoc]
  exact .seq (.forEach_map _ sketches_reasoningDelta _) <|
    .seq (.forEach_map _ sketches_bufferSignature _) <|
    .seq (.forEach_map _ (sketches_redactedDelta generateSignature) _) <|
    .seq (.forEach_map _ (sketches_textDelta generateSignature) _) <|
    .seq (sketches_toolCallDeltas generateSignature _) (sketches_inlineToolResults generateSignature _)

theorem sketches_finish (finishReason : String) :
    Sketches (InboundStream.finish generateSignature finishReason) (read .finish) := by
  have hreason : Sketches (update fun s =>
      { s with stopReason := some (InboundStream.convertFinishReason finishReason) }) skip :=
    fun _ => ⟨rfl, rfl⟩
  refine .whenever (fun _ => rfl) (.seq (.update fun _ => rfl)
    (.seq (sketches_closeThinkingBlock _) (.seq sketches_closeTextBlock ?_)))
  rw [← seq_skip closeTool]
  exact sketches_closeToolBlock.seq hreason

theorem sketches_stopMessage (usage : Usage) :
    Sketches (InboundStream.stopMessage usage) (read .usage) :=
  .whenever (fun _ => rfl) (.seq (sketches_event fun _ => rfl)
    (.seq (sketches_event fun _ => rfl) (.update fun _ => rfl)))

theorem sketches_startMessage (usage : Option Usage) :
    Sketches (InboundStream.startMessage usage) (read .start) :=
  .whenever (fun _ => rfl) (.seq (.update fun _ => rfl) (sketches_event fun _ => rfl))

theorem sketches_choiceDelta (choice : Choice) :
    Sketches (InboundStream.choiceDelta generateSignature choice)
      (forEach read (choiceParts choice)) := by
  unfold choiceParts
  rw [forEach_append]
  exact .seq (.forEach (sketches_messageDelta generateSignature) _)
    (.forEach_map _ (sketches_finish generateSignature) _)

theorem sketches_processChunk (chunk : LlmResponse) :
    Sketches (InboundStream.processChunk generateSignature chunk)
      (forEach read (chunkParts chunk)) := by
  have hinit : Sketches (update (InboundStream.initMessage chunk)) skip := fun _ => ⟨rfl, rfl⟩
  unfold InboundStream.processChunk chunkParts
  split
  · exact .skip
  · rw [forEach_append, forEach_append, seq_assoc, forEach_cons, forEach, seq_skip]
    exact hinit.seq (.seq (sketches_startMessage chunk.usage)
      (.seq (.forEach (sketches_choiceDelta generateSignature) chunk.choices.head?.toList)
        (.forEach_map (fun _ => Part.usage) sketches_stopMessage chunk.usage.toList)))

/-- The types of the events a client gets are those of the parts. -/
theorem map_eventType_run (chunks : List LlmResponse) :
    (forEach (InboundStream.processChunk generateSignature) chunks {}).1.map Event.eventType =
      eventTypes (chunks.flatMap chunkParts) :=
  (Mirrors.forEach (sketches_processChunk generateSignature) chunks {}).1

end Signatures

/-! ### After the stop -/

/-- The message was stopped, and nothing was written since. -/
structure Over (s : Sketch) : Prop where
  finished : s.finished = true
  stopped : s.stopped = true
  last : s.lastEventType = "message_stop"

variable {s : Sketch}

theorem event_ne_nil {eventType : String} (h : eventType ≠ "content_block_stop") (s : Sketch) :
    (event eventType s).1 ≠ [] := by
  unfold event
  rw [if_neg fun hboth => h hboth.2]
  exact List.cons_ne_nil _ _

theorem startBlock_ne_nil (s : Sketch) : (startBlock s).1 ≠ [] := event_ne_nil (by simp) s

theorem writeDelta_ne_nil (s : Sketch) : (writeDelta s).1 ≠ [] := event_ne_nil (by simp) s

theorem stopBlock_ne_nil (h : s.lastEventType = "message_stop") : (stopBlock s).1 ≠ [] := by
  unfold stopBlock event
  rw [if_neg fun hboth => absurd (h.symm.trans hboth.1) (by simp)]
  exact List.cons_ne_nil _ _

theorem closeText_idle (h : s.text = false) : closeText s = ([], s) := whenever_false h _

theorem closeTool_idle (h : s.tool = false) : closeTool s = ([], s) := whenever_false h _

theorem closeThinking_idle (hthinking : s.thinking = false) (hpending : s.pendingSignature = false) :
    closeThinking s = ([], s) := by
  unfold closeThinking
  simp [hthinking, hpending]

theorem closeText_nil (hlast : s.lastEventType = "message_stop") :
    (closeText s).1 = [] ↔ s.text = false := by
  unfold closeText
  cases hflag : s.text with
  | false =>
      rw [whenever_false hflag]
      simp
  | true =>
      rw [whenever_true hflag]
      exact iff_of_false (fun h => stopBlock_ne_nil (s := { s with text := false }) hlast
        (seq_nil.mp h).2) (by simp)

theorem closeTool_nil (hlast : s.lastEventType = "message_stop") :
    (closeTool s).1 = [] ↔ s.tool = false := by
  unfold closeTool
  cases hflag : s.tool with
  | false =>
      rw [whenever_false hflag]
      simp
  | true =>
      rw [whenever_true hflag]
      exact iff_of_false (fun h => stopBlock_ne_nil (s := { s with tool := false }) hlast
        (seq_nil.mp h).2) (by simp)

theorem closeThinking_nil :
    (closeThinking s).1 = [] ↔ s.thinking = false ∧ s.pendingSignature = false := by
  constructor
  · intro h
    unfold closeThinking at h
    split_ifs at h with hthinking hpending
    · exact absurd (seq_nil.mp h).1 (writeDelta_ne_nil _)
    · exact absurd (seq_nil.mp (seq_nil.mp (seq_nil.mp h).2).2).1 (startBlock_ne_nil _)
    · exact ⟨by simpa using hthinking, by simpa using hpending⟩
  · rintro ⟨hthinking, hpending⟩
    rw [closeThinking_idle hthinking hpending]

theorem fragment_nil (index : Int) (hasArguments : Bool) :
    (fragment index hasArguments s).1 = [] ↔ index ∈ s.toolCalls ∧ hasArguments = false := by
  unfold fragment arguments
  by_cases hknown : index ∈ s.toolCalls
  · rw [if_pos hknown, and_iff_right hknown]
    cases hasArguments with
    | false => exact iff_of_true rfl rfl
    | true => exact iff_of_false (writeDelta_ne_nil _) (by simp)
  · rw [if_neg hknown]
    refine iff_of_false (fun h => ?_) fun h => hknown h.1
    exact absurd (seq_nil.mp (seq_nil.mp (seq_nil.mp h).2).2).1 (startBlock_ne_nil _)

theorem settled_iff : s.settled = true ↔
    (s.thinking = false ∧ s.pendingSignature = false) ∧ s.text = false := by
  unfold settled
  simp only [Bool.and_eq_true, Bool.not_eq_true']
  tauto

theorem start_idle (h : s.started = true) : read .start s = ([], s) :=
  whenever_false (c := fun s : Sketch => !s.started) (by simp [h]) _

theorem finish_idle (h : s.finished = true) : read .finish s = ([], s) :=
  whenever_false (c := fun s : Sketch => !s.finished) (by simp [h]) _

theorem usage_idle (h : s.stopped = true) : read .usage s = ([], s) :=
  whenever_false (c := fun s : Sketch => s.finished && !s.stopped) (by simp [h]) _

/-- Once the message is over, a part writes nothing exactly if it has no
content. -/
theorem Over.read_nil (h : s.Over) (part : Part) : (read part s).1 = [] ↔ s.Silent part = true := by
  cases part with
  | start =>
      cases hstarted : s.started with
      | true =>
          exact iff_of_true (congrArg Prod.fst (start_idle hstarted)) hstarted
      | false =>
          have hrun : Sketch.read .start s =
              ((update fun s => { s with started := true }).seq (event "message_start")) s :=
            whenever_true (c := fun s : Sketch => !s.started) (by simp [hstarted]) _
          rw [hrun]
          exact iff_of_false (fun hnil => event_ne_nil (by simp) _ (seq_nil.mp hnil).2)
            (Bool.eq_false_iff.mp hstarted)
  | signature => exact iff_of_true rfl rfl
  | finish => exact iff_of_true (congrArg Prod.fst (finish_idle h.finished)) rfl
  | usage => exact iff_of_true (congrArg Prod.fst (usage_idle h.stopped)) rfl
  | thinking =>
      exact iff_of_false (fun hnil => writeDelta_ne_nil _
        (seq_nil.mp (seq_nil.mp (seq_nil.mp hnil).2).2).2) Bool.false_ne_true
  | redacted =>
      exact iff_of_false (fun hnil => startBlock_ne_nil _
        (seq_nil.mp (seq_nil.mp (seq_nil.mp (seq_nil.mp hnil).2).2).2).1) Bool.false_ne_true
  | text =>
      exact iff_of_false (fun hnil => writeDelta_ne_nil _
        (seq_nil.mp (seq_nil.mp (seq_nil.mp hnil).2).2).2) Bool.false_ne_true
  | toolResult =>
      exact iff_of_false (fun hnil => startBlock_ne_nil _ (seq_nil.mp hnil).1) Bool.false_ne_true
  | fragment index blockType hasArguments =>
      unfold Silent
      rw [Bool.and_eq_true, List.contains_iff_mem, Bool.not_eq_true']
      exact fragment_nil index hasArguments
  | toolCalls =>
      show _ ↔ s.settled = true
      unfold Sketch.read
      rw [settled_iff, seq_nil, closeThinking_nil]
      refine and_congr_right fun hidle => ?_
      rw [closeThinking_idle hidle.1 hidle.2]
      exact closeText_nil h.last
  | toolResults =>
      show _ ↔ (s.settled && !s.tool) = true
      unfold Sketch.read
      rw [Bool.and_eq_true, settled_iff, Bool.not_eq_true', and_assoc, seq_nil, closeThinking_nil]
      refine and_congr_right fun hidle => ?_
      rw [closeThinking_idle hidle.1 hidle.2, seq_nil, closeTool_nil h.last, and_comm]
      refine and_congr_left fun htool => ?_
      rw [closeTool_idle htool]
      exact closeText_nil h.last

/-- A part without content changes nothing but a signature that is kept. -/
theorem Over.read (h : s.Over) {part : Part} (hsilent : s.Silent part = true) :
    (read part s).2.Over := by
  cases part with
  | start =>
      rw [start_idle hsilent]
      exact h
  | signature => exact ⟨h.finished, h.stopped, h.last⟩
  | finish =>
      rw [finish_idle h.finished]
      exact h
  | usage =>
      rw [usage_idle h.stopped]
      exact h
  | thinking | redacted | text | toolResult => exact absurd hsilent Bool.false_ne_true
  | fragment index blockType hasArguments =>
      obtain ⟨hknown, hnone⟩ := Bool.and_eq_true_iff.mp hsilent
      have hidle : Sketch.read (.fragment index blockType hasArguments) s = ([], s) := by
        show fragment index hasArguments s = _
        unfold fragment arguments
        rw [if_pos (by simpa using hknown), if_neg (by simpa using hnone)]
        rfl
      rwa [hidle]
  | toolCalls =>
      obtain ⟨⟨hthinking, hpending⟩, htext⟩ := settled_iff.mp hsilent
      have hidle : Sketch.read .toolCalls s = ([], s) :=
        (seq_idle (closeThinking_idle hthinking hpending) _).trans (closeText_idle htext)
      rwa [hidle]
  | toolResults =>
      obtain ⟨hsettled, htool⟩ := Bool.and_eq_true_iff.mp hsilent
      obtain ⟨⟨hthinking, hpending⟩, htext⟩ := settled_iff.mp hsettled
      have hidle : Sketch.read .toolResults s = ([], s) :=
        ((seq_idle (closeThinking_idle hthinking hpending) _).trans
          (seq_idle (closeTool_idle (by simpa using htool)) _)).trans (closeText_idle htext)
      rwa [hidle]

theorem Over.run (parts : List Part) : ∀ s : Sketch, s.Over →
    ((forEach Sketch.read parts s).1 = [] ↔ QuietAfterStop s parts) := by
  induction parts with
  | nil => exact fun _ _ => iff_of_true rfl trivial
  | cons part parts ih =>
      intro s hs
      rw [forEach_cons, seq_nil, hs.read_nil]
      unfold QuietAfterStop
      rw [forall_prop_of_true hs.stopped]
      exact and_congr_right fun hsilent => ih _ (hs.read hsilent)

/-! ### Before the stop -/

/-- The message is not stopped, and nothing that is written stops it. -/
abbrev Unstopped (f : Step) : Prop :=
  Emits (fun eventType => eventType ≠ "message_stop") (fun s => s.stopped = false)
    (fun s => s.stopped = false) f

theorem event_unstopped {eventType : String} (h : eventType ≠ "message_stop") :
    Unstopped (event eventType) := by
  intro s hs
  unfold event
  split
  · exact ⟨fun _ hmem => absurd hmem (by simp), hs⟩
  · refine ⟨fun e hmem => ?_, hs⟩
    obtain rfl := List.mem_singleton.mp hmem
    exact h

theorem startBlock_unstopped : Unstopped startBlock := event_unstopped (by simp)

theorem writeDelta_unstopped : Unstopped writeDelta := event_unstopped (by simp)

theorem stopBlock_unstopped : Unstopped stopBlock := event_unstopped (by simp)

theorem closeText_unstopped : Unstopped closeText :=
  .whenever (.seq (.update fun _ hs => hs) stopBlock_unstopped) fun _ hs _ => hs

theorem closeTool_unstopped : Unstopped closeTool :=
  .whenever (.seq (.update fun _ hs => hs) stopBlock_unstopped) fun _ hs _ => hs

theorem closeThinking_unstopped : Unstopped closeThinking := by
  intro s hs
  unfold closeThinking
  split_ifs
  · exact (writeDelta_unstopped.seq stopBlock_unstopped) _ hs
  · exact (closeText_unstopped.seq (closeTool_unstopped.seq
      (startBlock_unstopped.seq (writeDelta_unstopped.seq stopBlock_unstopped)))) _ hs
  · exact ⟨fun _ hmem => absurd hmem (by simp), hs⟩

theorem fragment_unstopped (index : Int) (hasArguments : Bool) :
    Unstopped (fragment index hasArguments) := by
  have harguments : Unstopped (arguments hasArguments) := by
    unfold arguments
    split
    · exact writeDelta_unstopped
    · exact .skip
  have hclose : Unstopped (if 0 < index then closeTool else skip) := by
    split
    · exact closeTool_unstopped
    · exact .skip
  intro s hs
  unfold fragment
  split
  · exact harguments s hs
  · exact (hclose.seq (.seq (.update fun _ hs => hs)
      (startBlock_unstopped.seq harguments))) s hs

/-- A part stops the message or leaves it open. -/
theorem read_cases (hs : s.stopped = false) (part : Part) :
    ((read part s).1 = ["message_delta", "message_stop"] ∧ (read part s).2.Over) ∨
    ("message_stop" ∉ (read part s).1 ∧ (read part s).2.stopped = false) := by
  have hunstopped : Unstopped (read part) → "message_stop" ∉ (read part s).1 ∧
      (read part s).2.stopped = false := fun h =>
    ⟨fun hmem => (h s hs).1 _ hmem rfl, (h s hs).2⟩
  cases part with
  | start =>
      exact .inr (hunstopped (.whenever (.seq (.update fun _ hs => hs) (event_unstopped (by simp)))
        fun _ hs _ => hs))
  | thinking =>
      exact .inr (hunstopped (closeText_unstopped.seq (closeTool_unstopped.seq
        (.seq (.whenever (.seq (.update fun _ hs => hs) startBlock_unstopped) fun _ hs _ => hs)
          writeDelta_unstopped))))
  | signature => exact .inr (hunstopped (.update fun _ hs => hs))
  | redacted =>
      exact .inr (hunstopped (closeThinking_unstopped.seq (closeTool_unstopped.seq
        (closeText_unstopped.seq (startBlock_unstopped.seq stopBlock_unstopped)))))
  | text =>
      exact .inr (hunstopped (closeThinking_unstopped.seq (closeTool_unstopped.seq
        (.seq (.whenever (.seq (.update fun _ hs => hs) startBlock_unstopped) fun _ hs _ => hs)
          writeDelta_unstopped))))
  | toolCalls => exact .inr (hunstopped (closeThinking_unstopped.seq closeText_unstopped))
  | fragment index _ hasArguments =>
      exact .inr (hunstopped (fragment_unstopped index hasArguments))
  | toolResults =>
      exact .inr (hunstopped (closeThinking_unstopped.seq
        (closeTool_unstopped.seq closeText_unstopped)))
  | toolResult => exact .inr (hunstopped (startBlock_unstopped.seq stopBlock_unstopped))
  | finish =>
      exact .inr (hunstopped (.whenever (.seq (.update fun _ hs => hs)
        (closeThinking_unstopped.seq (closeText_unstopped.seq closeTool_unstopped)))
        fun _ hs _ => hs))
  | usage =>
      cases hfinished : s.finished with
      | true =>
          have hrun : read .usage s = (["message_delta", "message_stop"],
              { s with stopped := true, lastEventType := "message_stop" }) := by
            show whenever (fun s : Sketch => s.finished && !s.stopped) _ s = _
            rw [whenever_true (by simp [hfinished, hs])]
            simp [seq, update, event]
          rw [hrun]
          exact .inl ⟨rfl, ⟨hfinished, rfl, rfl⟩⟩
      | false =>
          have hrun : read .usage s = ([], s) :=
            whenever_false (c := fun s : Sketch => s.finished && !s.stopped) (by simp [hfinished]) _
          rw [hrun]
          exact .inr ⟨List.not_mem_nil, hs⟩

theorem not_mem_dropLast_append {first rest : List String} (h : "message_stop" ∉ first) :
    "message_stop" ∉ (first ++ rest).dropLast ↔ "message_stop" ∉ rest.dropLast := by
  cases rest with
  | nil =>
      rw [List.append_nil]
      exact iff_of_true (fun hmem => h (List.mem_of_mem_dropLast hmem)) (by simp)
  | cons eventType rest =>
      rw [List.dropLast_append_of_ne_nil (List.cons_ne_nil _ _), List.mem_append]
      exact not_congr (or_iff_right h)

/-- A stop comes last only, exactly if no part behind it has content. -/
theorem clean_run (parts : List Part) : ∀ s : Sketch, s.stopped = false →
    ("message_stop" ∉ (forEach read parts s).1.dropLast ↔ QuietAfterStop s parts) := by
  induction parts with
  | nil => exact fun _ _ => iff_of_true (by simp) trivial
  | cons part parts ih =>
      intro s hs
      have hrun : (forEach read (part :: parts) s).1 =
          (read part s).1 ++ (forEach read parts (read part s).2).1 := rfl
      unfold QuietAfterStop
      rw [hrun, hs, forall_prop_of_false Bool.false_ne_true, true_and]
      rcases read_cases hs part with ⟨hwritten, hover⟩ | ⟨hnot, hopen⟩
      · rw [hwritten, ← hover.run]
        cases (forEach read parts (read part s).2).1 with
        | nil => simp
        | cons eventType rest => simp
      · rw [not_mem_dropLast_append hnot]
        exact ih _ hopen

end Sketch

end Conduit.Transformers.Anthropic

namespace Conduit.Transformers.Anthropic.InboundStream

open Base Pipeline Emitter

/-! ## Frames -/

theorem terminal_event (event : Event) :
    isClientStreamTerminal event.toWireEvent.toStreamEvent = true ↔ event = .messageStop := by
  rw [terminal_of_isObject ⟨rfl, _, rfl⟩]
  cases event <;> simp [Event.toWireEvent, Event.eventType, terminalEventTypes]

theorem run_eq (env : Environment) (chunks : List LlmResponse) :
    (StreamFormat.anthropicMessages.inbound env).run chunks =
      (forEach (processChunk env.generateSignature) chunks {}).1.map fun event =>
        event.toWireEvent.toStreamEvent := by
  have hwire : (StreamFormat.anthropicMessages.clientStream env).run chunks =
      ((iterator env.generateSignature).run chunks).map Event.toWireEvent := Transducer.run_map _ _ _
  unfold StreamFormat.inbound
  rw [Transducer.run_map, hwire, List.map_map]
  unfold iterator
  rw [run_transducer]
  rfl

theorem hasTerminal_run (env : Environment) (chunks : List LlmResponse) :
    hasTerminal ((StreamFormat.anthropicMessages.inbound env).run chunks) = closes false chunks := by
  have hmem := unstopped_run env.generateSignature chunks {} rfl
  rw [run_eq, Bool.eq_iff_iff]
  refine Iff.trans ?_ hmem
  unfold hasTerminal
  rw [List.any_map, List.any_eq_true]
  constructor
  · rintro ⟨event, hevent, hterminal⟩
    rw [(terminal_event event).mp hterminal] at hevent
    exact hevent
  · intro hevent
    exact ⟨_, hevent, (terminal_event _).mpr rfl⟩

theorem messageStop_mem (events : List Event) :
    "message_stop" ∈ events.map Event.eventType ↔ .messageStop ∈ events := by
  rw [List.mem_map]
  constructor
  · rintro ⟨event, hmem, htype⟩
    cases event <;> first | exact hmem | simp [Event.eventType] at htype
  · exact fun hmem => ⟨_, hmem, rfl⟩

theorem clean_run (env : Environment) (chunks : List LlmResponse) :
    CleanBeforeLast ((StreamFormat.anthropicMessages.inbound env).run chunks) ↔
      Sketch.QuietAfterStop {} (chunks.flatMap chunkParts) := by
  rw [run_eq, ← Sketch.clean_run _ _ rfl]
  show _ ↔ "message_stop" ∉ (Sketch.eventTypes _).dropLast
  rw [← Sketch.map_eventType_run env.generateSignature, ← List.map_dropLast, messageStop_mem]
  unfold CleanBeforeLast
  rw [← List.map_dropLast, List.forall_mem_map]
  constructor
  · intro h hmem
    exact absurd ((terminal_event _).mpr rfl) (Bool.eq_false_iff.mp (h _ hmem))
  · intro h event hmem
    refine Bool.eq_false_iff.mpr fun hterminal => h ?_
    rw [← (terminal_event event).mp hterminal]
    exact hmem

theorem length_run (env : Environment) (chunks : List LlmResponse) :
    ((StreamFormat.anthropicMessages.inbound env).run chunks).length =
      (Sketch.eventTypes (chunks.flatMap chunkParts)).length := by
  rw [run_eq, List.length_map, ← Sketch.map_eventType_run env.generateSignature, List.length_map]

end Conduit.Transformers.Anthropic.InboundStream
