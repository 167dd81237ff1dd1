import Conduit.Pipeline.Logic.Stream
import Conduit.Transformers.Formats

/-!
# Where the client streams end

For each client format: when its transformer sends a terminal event, and what
it sends after one. A frame whose data is a JSON object is a terminal by its
event type only.
-/

namespace Conduit.Transformers

open Base Pipeline

/-! ## Frames with JSON data -/

/-- Data that is a JSON object, and no end marker. -/
def WireEvent.IsObject (event : WireEvent) : Prop :=
  event.done = false ∧ ∃ fields, event.data = some (.json (.object fields))

theorem trimmed_render_object (fields : List (String × Json)) :
    Text.trimmed (Json.object fields).render ≠ "[DONE]".toList := by
  have hchars : (Json.object fields).render.toList =
      '\x7b' :: (Json.charsOfFields fields ++ ['\x7d']) := by
    unfold Json.render Json.chars
    rw [String.toList_ofList]
    rfl
  rw [Text.trimmed_cons (by decide) hchars]
  intro h
  exact absurd (List.cons.inj h).1 (by decide)

theorem terminal_of_isObject {event : WireEvent} (h : event.IsObject) :
    isClientStreamTerminal event.toStreamEvent =
      event.eventType.any (terminalEventTypes.contains ·) := by
  obtain ⟨hdone, fields, hdata⟩ := h
  unfold isClientStreamTerminal WireEvent.toStreamEvent
  dsimp only
  rw [hdone, hdata]
  show (false || decide (Text.trimmed (Json.object fields).render = "[DONE]".toList) || _) = _
  rw [decide_eq_false (trimmed_render_object fields)]
  rfl

theorem any_or {α : Type} (p q : α → Bool) (as : List α) :
    (as.any fun a => p a || q a) = (as.any p || as.any q) := by
  induction as with
  | nil => rfl
  | cons a as ih =>
      rw [List.any_cons, List.any_cons, List.any_cons, ih]
      cases p a <;> cases q a <;> simp

/-- No terminal before the last frame. -/
def CleanBeforeLast (frames : List StreamEvent) : Prop :=
  ∀ frame ∈ frames.dropLast, isClientStreamTerminal frame = false

theorem cleanBeforeLast_of_not_hasTerminal {frames : List StreamEvent}
    (h : hasTerminal frames = false) : CleanBeforeLast frames := by
  intro frame hmem
  exact Bool.eq_false_iff.mpr (List.any_eq_false.mp h frame (List.mem_of_mem_dropLast hmem))

theorem cleanBeforeLast_append {frames : List StreamEvent} (h : hasTerminal frames = false)
    (frame : StreamEvent) : CleanBeforeLast (frames ++ [frame]) := by
  intro other hmem
  rw [List.dropLast_concat] at hmem
  exact Bool.eq_false_iff.mpr (List.any_eq_false.mp h other hmem)

/-! ## OpenAI chat -/

namespace OpenAi.ChatClientStream

/-- The frame of one chunk. -/
def frame (response : LlmResponse) : WireEvent :=
  if response.object = doneSentinel then doneEvent else { data := some (.json response.encode) }

/-- The end of an answer, for the client stream. -/
def endsAnswer (response : LlmResponse) : Bool :=
  decide (response.object = doneSentinel) || terminalChunk response

/-- The state after some chunks. -/
def after (s : ChatClientStream) (chunks : List LlmResponse) : ChatClientStream :=
  { sawTerminalChunk := s.sawTerminalChunk ||
      chunks.any fun chunk => decide (chunk.object ≠ doneSentinel) && terminalChunk chunk
    emittedDone := s.emittedDone || chunks.any fun chunk => decide (chunk.object = doneSentinel) }

theorem read_eq (s : ChatClientStream) (chunk : LlmResponse) :
    s.read chunk = ([frame chunk], s.after [chunk]) := by
  unfold read frame after
  by_cases h : chunk.object = doneSentinel
  · rw [if_pos h, if_pos h]
    simp [h]
  · rw [if_neg h, if_neg h]
    simp [h]

theorem after_cons (s : ChatClientStream) (chunk : LlmResponse) (chunks : List LlmResponse) :
    (s.after [chunk]).after chunks = s.after (chunk :: chunks) := by
  unfold after
  simp [Bool.or_assoc]

theorem runFrom_eq (chunks : List LlmResponse) : ∀ s : ChatClientStream,
    transducer.runFrom s chunks = chunks.map frame ++ (s.after chunks).finish := by
  induction chunks with
  | nil =>
      intro s
      unfold after
      simp [transducer]
  | cons chunk chunks ih =>
      intro s
      have hread : transducer.read s chunk = ([frame chunk], some (s.after [chunk])) := by
        unfold transducer
        dsimp only
        rw [read_eq]
      rw [Transducer.runFrom_cons_next hread, ih, after_cons]
      rfl

theorem terminal_frame (chunk : LlmResponse) :
    isClientStreamTerminal (frame chunk).toStreamEvent = decide (chunk.object = doneSentinel) := by
  unfold frame
  by_cases h : chunk.object = doneSentinel
  · rw [if_pos h]
    simp [h, doneEvent, isClientStreamTerminal, WireEvent.toStreamEvent]
  · rw [if_neg h, terminal_of_isObject ⟨rfl, _, rfl⟩]
    simp [h]

theorem run_eq (env : Environment) (chunks : List LlmResponse) :
    (StreamFormat.openAiChat.inbound env).run chunks =
      (chunks.map fun chunk => (frame chunk).toStreamEvent) ++
        (({} : ChatClientStream).after chunks).finish.map WireEvent.toStreamEvent := by
  unfold StreamFormat.inbound
  rw [Transducer.run_map]
  show (transducer.runFrom {} chunks).map WireEvent.toStreamEvent = _
  rw [runFrom_eq, List.map_append, List.map_map]
  rfl

theorem hasTerminal_frames (chunks : List LlmResponse) :
    hasTerminal (chunks.map fun chunk => (frame chunk).toStreamEvent) =
      (({} : ChatClientStream).after chunks).emittedDone := by
  unfold hasTerminal after
  rw [List.any_map, Bool.false_or]
  exact congrArg chunks.any (funext terminal_frame)

theorem hasTerminal_run (env : Environment) (chunks : List LlmResponse) :
    hasTerminal ((StreamFormat.openAiChat.inbound env).run chunks) = chunks.any endsAnswer := by
  have hends : chunks.any endsAnswer = ((({} : ChatClientStream).after chunks).emittedDone ||
      (({} : ChatClientStream).after chunks).sawTerminalChunk) := by
    unfold after
    rw [Bool.false_or, Bool.false_or, ← any_or]
    refine congrArg chunks.any (funext fun chunk => ?_)
    unfold endsAnswer
    by_cases h : chunk.object = doneSentinel <;> simp [h]
  rw [run_eq, hends]
  unfold hasTerminal
  rw [List.any_append, ← hasTerminal, hasTerminal_frames]
  unfold finish
  cases (({} : ChatClientStream).after chunks).emittedDone <;>
    cases (({} : ChatClientStream).after chunks).sawTerminalChunk <;> rfl

/-- An answer without an end is passed on frame by frame. -/
theorem length_run (env : Environment) {chunks : List LlmResponse}
    (hopen : chunks.any endsAnswer = false) :
    ((StreamFormat.openAiChat.inbound env).run chunks).length = chunks.length := by
  have hnone : (({} : ChatClientStream).after chunks).sawTerminalChunk = false := by
    unfold after
    rw [Bool.false_or]
    refine List.any_eq_false.mpr fun chunk hmem hterminal => ?_
    refine List.any_eq_false.mp hopen chunk hmem ?_
    unfold endsAnswer
    rw [(Bool.and_eq_true_iff.mp hterminal).2, Bool.or_true]
  rw [run_eq]
  unfold finish
  rw [hnone]
  simp

theorem clean_run (env : Environment) (chunks : List LlmResponse) :
    CleanBeforeLast ((StreamFormat.openAiChat.inbound env).run chunks) ↔
      ∀ chunk ∈ chunks.dropLast, chunk.object ≠ doneSentinel := by
  rw [run_eq]
  cases hemitted : (({} : ChatClientStream).after chunks).emittedDone with
  | false =>
      have hnone : hasTerminal (chunks.map fun chunk => (frame chunk).toStreamEvent) = false := by
        rw [hasTerminal_frames, hemitted]
      have hobjects : ∀ chunk ∈ chunks, chunk.object ≠ doneSentinel := by
        intro chunk hmem hobject
        have hframe := List.any_eq_false.mp hnone _ (List.mem_map_of_mem hmem)
        rw [terminal_frame] at hframe
        exact hframe (decide_eq_true hobject)
      refine iff_of_true ?_ fun chunk hmem => hobjects chunk (List.mem_of_mem_dropLast hmem)
      unfold finish
      rw [hemitted]
      cases (({} : ChatClientStream).after chunks).sawTerminalChunk with
      | false =>
          show CleanBeforeLast (_ ++ [])
          rw [List.append_nil]
          exact cleanBeforeLast_of_not_hasTerminal hnone
      | true => exact cleanBeforeLast_append hnone _
  | true =>
      have hfinish : (({} : ChatClientStream).after chunks).finish = [] := by
        unfold finish
        rw [hemitted]
        simp
      rw [hfinish, List.map_nil, List.append_nil]
      unfold CleanBeforeLast
      rw [← List.map_dropLast, List.forall_mem_map]
      refine forall₂_congr fun chunk _ => ?_
      rw [terminal_frame, decide_eq_false_iff_not]

end OpenAi.ChatClientStream

/-! ## Responses -/

namespace Responses.ResponsesClientStream

/-- A frame that is no terminal. -/
def Progress (event : WireEvent) : Prop :=
  event.IsObject ∧ isClientStreamTerminal event.toStreamEvent = false

def Started (s : ResponsesClientStream) : Prop := s.started = true

/-- What decides the status. -/
structure Outcome where
  started : Bool
  finishReason : Option String
  error : Option ResponseError

def outcome (s : ResponsesClientStream) : Outcome := ⟨s.started, s.finishReason, s.error⟩

def At (o : Outcome) (s : ResponsesClientStream) : Prop := s.outcome = o

/-- A frame of a type that is no terminal, which its data carries. -/
def Written (event : WireEvent) : Prop :=
  ∃ (eventType : String) (fields : List (String × Json)), eventType ∉ terminalEventTypes ∧
    Json.field fields "type" = some (.string eventType) ∧
      event = { eventType := some eventType, data := some (.json (.object fields)) }

theorem Written.progress {event : WireEvent} (h : Written event) : Progress event := by
  obtain ⟨eventType, fields, hterminal, -, rfl⟩ := h
  refine ⟨⟨rfl, _, rfl⟩, ?_⟩
  rw [terminal_of_isObject ⟨rfl, _, rfl⟩]
  simpa using hterminal

/-- Only such frames are sent, and what decides the status stays. -/
abbrev Proceeds (o : Outcome) (f : ClientStep) : Prop := Emitter.Emits Written (At o) (At o) f

variable {o : Outcome}

theorem pushEvent_proceeds {eventType : String} (h : eventType ∉ terminalEventTypes)
    (payload : ResponsesClientStream → List (String × Json)) :
    Proceeds o (pushEvent eventType payload) := by
  intro s hs
  refine ⟨fun event hmem => ?_, hs⟩
  obtain rfl := List.mem_singleton.mp hmem
  refine ⟨eventType, _, h, ?_, rfl⟩
  rw [Json.field_insert, if_neg (by decide), Json.field_insert, if_pos rfl]

open Emitter

section Steps

variable (w : Surroundings)

theorem outcome_idOr (kind : String) (id : Option String) (s : ResponsesClientStream) :
    (s.idOr w kind id).2.outcome = s.outcome := by
  cases id <;> rfl

theorem ensureMessage_proceeds (messageId : Option String) :
    Proceeds o (ensureMessage w messageId) := by
  intro s hs
  unfold ensureMessage
  split
  · exact Emits.idle rfl hs
  · refine pushEvent_proceeds (by simp [terminalEventTypes]) _ _ ?_
    exact (outcome_idOr w "msg" _ s).trans hs

theorem ensurePart_proceeds (part : MessageStreamItem → Option StreamPart)
    (setPart : StreamPart → MessageStreamItem → MessageStreamItem) (blank : Json) :
    Proceeds o (ensurePart part setPart blank) := by
  intro s hs
  unfold ensurePart
  cases s.message with
  | none => exact Emits.idle rfl hs
  | some message =>
      dsimp only
      split
      · exact Emits.idle rfl hs
      · exact pushEvent_proceeds (by simp [terminalEventTypes]) _ _ hs

theorem pushPart_proceeds {eventType : String} (h : eventType ∉ terminalEventTypes)
    (part : MessageStreamItem → Option StreamPart)
    (setPart : StreamPart → MessageStreamItem → MessageStreamItem) (more : List (String × Json))
    (delta : String) : Proceeds o (pushPart eventType part setPart more delta) := by
  intro s hs
  unfold pushPart
  cases s.message with
  | none => exact Emits.idle rfl hs
  | some message =>
      dsimp only
      cases part message with
      | none => exact Emits.idle rfl hs
      | some opened => exact pushEvent_proceeds h _ _ hs

theorem contentDelta_proceeds (messageId : Option String) (delta : ContentStreamDelta) :
    Proceeds o (contentDelta w messageId delta) := by
  cases delta with
  | outputText text =>
      exact (ensureMessage_proceeds w messageId).seq ((ensurePart_proceeds _ _ _).seq
        (pushPart_proceeds (by simp [terminalEventTypes]) _ _ _ _))
  | refusal text =>
      exact (ensureMessage_proceeds w messageId).seq ((ensurePart_proceeds _ _ _).seq
        (pushPart_proceeds (by simp [terminalEventTypes]) _ _ _ _))

theorem ensureReasoning_proceeds : Proceeds o (ensureReasoning w) := by
  intro s hs
  unfold ensureReasoning
  split
  · exact Emits.idle rfl hs
  · exact ((pushEvent_proceeds (by simp [terminalEventTypes]) _).seq
      (pushEvent_proceeds (by simp [terminalEventTypes]) _)) _ hs

theorem pushReasoningDelta_proceeds (delta : String) : Proceeds o (pushReasoningDelta w delta) := by
  refine (ensureReasoning_proceeds w).seq fun s hs => ?_
  cases s.reasoning with
  | none => exact Emits.idle (f := Emitter.skip) rfl hs
  | some reasoning => exact pushEvent_proceeds (by simp [terminalEventTypes]) _ _ hs

theorem ensureTool_proceeds (index : Int) (callId : String) (toolCall : ToolCall) :
    Proceeds o (ensureTool w index callId toolCall) := by
  intro s hs
  unfold ensureTool
  split
  · exact Emits.idle rfl hs
  · exact pushEvent_proceeds (by simp [terminalEventTypes]) _ _ hs

theorem pushArguments_proceeds (index : Int) (toolCall : ToolCall) :
    Proceeds o (pushArguments index toolCall) := by
  intro s hs
  unfold pushArguments
  cases Keyed.get s.tools index with
  | none => exact Emits.idle rfl hs
  | some item =>
      refine pushEvent_proceeds ?_ _ _ hs
      cases item.custom <;> simp [terminalEventTypes]

theorem pushToolDelta_proceeds (toolCall : ToolCall) : Proceeds o (pushToolDelta w toolCall) := by
  intro s hs
  exact ((ensureTool_proceeds w _ _ _).seq (pushArguments_proceeds _ _)) _
    ((outcome_idOr w "call" _ s).trans hs)

theorem setSignature_proceeds (signature : String) : Proceeds o (setSignature w signature) := by
  refine (ensureReasoning_proceeds w).seq ?_
  exact Emits.update fun _ hs => hs

theorem consumeMessage_proceeds (message : LlmMessage) : Proceeds o (consumeMessage w message) :=
  (Emits.forEach fun _ _ => pushReasoningDelta_proceeds w _).seq
    ((Emits.forEach fun _ _ => setSignature_proceeds w _).seq
      ((Emits.forEach fun _ _ => contentDelta_proceeds w _ _).seq
        ((Emits.forEach fun refusal _ => contentDelta_proceeds w _ (.refusal refusal)).seq
          (Emits.forEach fun _ _ => pushToolDelta_proceeds w _))))

/-- The finish reason after a choice. -/
def Outcome.choose (o : Outcome) (choice : Choice) : Outcome :=
  { o with finishReason := choice.finishReason.or o.finishReason }

theorem consumeChoice_writes (choice : Choice) :
    Emits Written (At o) (At (o.choose choice)) (consumeChoice w choice) := by
  refine Emits.seq (Emits.forEach fun _ _ => consumeMessage_proceeds w _) ?_
  exact Emits.update fun s hs => congrArg (fun o : Outcome => o.choose choice) hs

theorem consumeChoices_writes (choices : List Choice) :
    Emits Written (At o) (At (choices.foldl Outcome.choose o))
      (forEach (consumeChoice w) choices) := by
  induction choices generalizing o with
  | nil => exact Emits.skip
  | cons choice choices ih => exact (consumeChoice_writes w choice).seq ih

def Outcome.begin (o : Outcome) : Outcome := { o with started := true }

/-- The first chunk starts the stream. -/
theorem start_writes : Emits Written (At o) (At o.begin) start := by
  refine Emits.whenever (Emits.seq (J := At o.begin) ?_
    ((pushEvent_proceeds (by simp [terminalEventTypes]) _).seq
      (pushEvent_proceeds (by simp [terminalEventTypes]) _))) fun s hs hstarted => ?_
  · exact Emits.update fun s hs => congrArg Outcome.begin hs
  · have hstarted : s.outcome.started = true := by simpa [outcome] using hstarted
    have hs : s.outcome = o := hs
    show s.outcome = o.begin
    rw [← hs, Outcome.begin, ← hstarted]

/-- What a chunk says about the outcome. -/
def Outcome.after (o : Outcome) (response : LlmResponse) : Outcome :=
  response.choices.foldl Outcome.choose
    { started := true
      finishReason := if response.error.isSome then some "error" else o.finishReason
      error := response.error.or o.error }

theorem started_choose (choices : List Choice) (o : Outcome) :
    (choices.foldl Outcome.choose o).started = o.started := by
  induction choices generalizing o with
  | nil => rfl
  | cons choice choices ih => exact ih _

theorem started_after (o : Outcome) (response : LlmResponse) : (o.after response).started = true :=
  started_choose _ _

theorem consume_writes (response : LlmResponse) :
    Emits Written (At o) (At (o.after response)) (consume w response) := by
  refine Emits.seq (J := At o) ?_ (start_writes.seq (Emits.seq ?_ (consumeChoices_writes w _)))
  · refine Emits.update fun s hs => ?_
    rw [← show s.outcome = o from hs]
    exact outcome_idOr w "resp" _ s
  · refine Emits.update fun s hs => ?_
    show (noteOutcome response s).outcome = _
    have hout : s.outcome = o.begin := hs
    have hstarted : s.started = true := congrArg Outcome.started hout
    have hreason : s.finishReason = o.finishReason := congrArg Outcome.finishReason hout
    have herror : s.error = o.error := congrArg Outcome.error hout
    unfold outcome noteOutcome
    dsimp only
    rw [hstarted, hreason, herror]

end Steps

theorem itemDone_proceeds (outputIndex : UInt64) (item : Json) :
    Proceeds o (itemDone outputIndex item) :=
  pushEvent_proceeds (by simp [terminalEventTypes]) _

theorem partDone_proceeds (message : MessageStreamItem) (contentIndex : UInt64) (part : Json) :
    Proceeds o (partDone message contentIndex part) :=
  pushEvent_proceeds (by simp [terminalEventTypes]) _

theorem closeItems_proceeds (s : ResponsesClientStream) : Proceeds o (closeItems s) := by
  have hreasoning : ∀ reasoning, Proceeds o (finishReasoning s.status reasoning) := fun _ =>
    (pushEvent_proceeds (by simp [terminalEventTypes]) _).seq
      ((pushEvent_proceeds (by simp [terminalEventTypes]) _).seq (itemDone_proceeds _ _))
  have hmessage : ∀ message, Proceeds o (finishMessage s.status message) := fun _ =>
    (Emits.forEach fun _ _ => (pushEvent_proceeds (by simp [terminalEventTypes]) _).seq
        (partDone_proceeds _ _ _)).seq
      ((Emits.forEach fun _ _ => (pushEvent_proceeds (by simp [terminalEventTypes]) _).seq
        (partDone_proceeds _ _ _)).seq (itemDone_proceeds _ _))
  have htool : ∀ tool, Proceeds o (finishTool s.status tool) := by
    intro tool
    refine (pushEvent_proceeds ?_ _).seq (itemDone_proceeds _ _)
    cases tool.custom <;> simp [terminalEventTypes]
  exact (Emits.forEach fun _ _ => hreasoning _).seq
    ((Emits.forEach fun _ _ => hmessage _).seq (Emits.forEach fun _ _ => htool _))

/-- A stream without a finish reason and without an error has failed. -/
def Outcome.close (o : Outcome) : Outcome :=
  if o.finishReason.isNone && o.error.isNone then
    { o with
      finishReason := some "error"
      error := some missingFinishReason }
  else o

theorem noteMissingFinish_outcome (s : ResponsesClientStream) :
    s.noteMissingFinish.outcome = s.outcome.close := by
  unfold noteMissingFinish Outcome.close outcome
  dsimp only
  split <;> rfl

/-- The end of a response in that state. -/
def ending (last : ResponsesClientStream) : List WireEvent :=
  (finishResponse last.status (inOrder (last.finishedItems last.status)) (closeItems last last).2).1

/-- What is sent for a started stream: progress, then the terminal event. -/
theorem runFrom_started (w : Surroundings) (chunks : List LlmResponse) :
    ∀ s : ResponsesClientStream, s.Started ∨ chunks ≠ [] →
      ∃ (progress : List WireEvent) (last : ResponsesClientStream),
        (∀ event ∈ progress, Written event) ∧
          last.outcome = (chunks.foldl Outcome.after s.outcome).close ∧
          (transducer w).runFrom s chunks = progress ++ last.ending := by
  induction chunks with
  | nil =>
      intro s hs
      have hstarted : s.started = true := hs.resolve_right (by simp)
      refine ⟨(closeItems s.noteMissingFinish s.noteMissingFinish).1, s.noteMissingFinish,
        (closeItems_proceeds _ _ rfl).1, noteMissingFinish_outcome s, ?_⟩
      show finish s = _
      unfold finish
      rw [if_pos hstarted]
      rfl
  | cons chunk chunks ih =>
      intro s _
      obtain ⟨hwritten, hafter⟩ := consume_writes w chunk s rfl
      have hoff : (consume w chunk s).2.Started :=
        (congrArg Outcome.started hafter).trans (started_after _ chunk)
      obtain ⟨progress, last, hrest, hlast, hrun⟩ := ih (consume w chunk s).2 (.inl hoff)
      refine ⟨(consume w chunk s).1 ++ progress, last, ?_, ?_, ?_⟩
      · intro event hmem
        rcases List.mem_append.mp hmem with h | h
        · exact hwritten event h
        · exact hrest event h
      · rw [hlast, show (consume w chunk s).2.outcome = _ from hafter]
        rfl
      · rw [Transducer.runFrom_cons_next (show (transducer w).read s chunk =
          ((consume w chunk s).1, some (consume w chunk s).2) from rfl), hrun, List.append_assoc]

theorem terminal_eventType (status : Status) : status.eventType ∈ terminalEventTypes := by
  cases status <;> simp [Status.eventType, terminalEventTypes]

theorem run_eq (env : Environment) {chunks : List LlmResponse} (h : chunks ≠ []) :
    ∃ (progress : List StreamEvent) (terminal : StreamEvent),
      hasTerminal progress = false ∧ isClientStreamTerminal terminal = true ∧
      (StreamFormat.openAiResponses.inbound env).run chunks = progress ++ [terminal] := by
  obtain ⟨progress, last, hprogress, -, hrun⟩ := runFrom_started env.surroundings chunks {} (.inr h)
  have hinbound : (StreamFormat.openAiResponses.inbound env).run chunks =
      ((transducer env.surroundings).runFrom {} chunks).map WireEvent.toStreamEvent :=
    Transducer.run_map _ _ _
  rw [hrun, List.map_append] at hinbound
  refine ⟨_, _, ?_, ?_, hinbound⟩
  · refine List.any_eq_false.mpr fun event hmem => ?_
    obtain ⟨wire, hwire, rfl⟩ := List.mem_map.mp hmem
    exact Bool.eq_false_iff.mp (hprogress wire hwire).progress.2
  · rw [terminal_of_isObject ⟨rfl, _, rfl⟩]
    simpa using terminal_eventType last.status

theorem hasTerminal_run (env : Environment) (chunks : List LlmResponse) :
    hasTerminal ((StreamFormat.openAiResponses.inbound env).run chunks) = !chunks.isEmpty := by
  cases chunks with
  | nil => rfl
  | cons chunk chunks =>
      obtain ⟨progress, terminal, -, hterminal, hrun⟩ := run_eq env (List.cons_ne_nil chunk chunks)
      rw [hrun]
      unfold hasTerminal
      rw [List.any_append]
      simp [hterminal]

theorem clean_run (env : Environment) (chunks : List LlmResponse) :
    CleanBeforeLast ((StreamFormat.openAiResponses.inbound env).run chunks) := by
  by_cases h : chunks = []
  · have hrun : (StreamFormat.openAiResponses.inbound env).run [] = [] := rfl
    rw [h, hrun]
    exact fun _ hmem => absurd hmem List.not_mem_nil
  · obtain ⟨progress, terminal, hprogress, -, hrun⟩ := run_eq env h
    rw [hrun]
    exact cleanBeforeLast_append hprogress terminal

end Responses.ResponsesClientStream

end Conduit.Transformers
