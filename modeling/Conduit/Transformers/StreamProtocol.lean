import Conduit.Transformers.Logic.AnthropicTerminals

/-!
# A client stream in its own protocol

The pipeline sends what the client's transformer writes, and then a terminal
of the provider if there is none among it. So a client hears its own protocol
only, with one terminal at the end, exactly if its transformer ends the answer
and has nothing to add, or the terminal that is replayed is its own.
-/

namespace Conduit.Transformers

open Base Pipeline

/-! ## The three transformers -/

namespace StreamFormat

theorem hasTerminal_inbound (env : Environment) (format : StreamFormat) (chunks : List LlmResponse) :
    hasTerminal ((format.inbound env).run chunks) = true ↔ format.EndsAnswer chunks := by
  cases format with
  | openAiChat =>
      rw [OpenAi.ChatClientStream.hasTerminal_run, List.any_eq_true]
      unfold OpenAi.ChatClientStream.endsAnswer EndsAnswer
      simp
  | anthropicMessages => rw [Anthropic.InboundStream.hasTerminal_run, EndsAnswer]
  | openAiResponses =>
      rw [Responses.ResponsesClientStream.hasTerminal_run, EndsAnswer]
      simp

theorem clean_inbound (env : Environment) (format : StreamFormat) (chunks : List LlmResponse) :
    CleanBeforeLast ((format.inbound env).run chunks) ↔ format.NothingAfterEnd chunks := by
  cases format with
  | openAiChat => exact OpenAi.ChatClientStream.clean_run env chunks
  | anthropicMessages => exact Anthropic.InboundStream.clean_run env chunks
  | openAiResponses => exact iff_of_true (Responses.ResponsesClientStream.clean_run env chunks) trivial

/-- Chunks that do not end the answer make frames one by one for a chat client,
as their parts ask for an Anthropic client, and none for a Responses client. -/
theorem length_inbound (env : Environment) (format : StreamFormat) {chunks : List LlmResponse}
    (hopen : ¬ format.EndsAnswer chunks) :
    ((format.inbound env).run chunks).length = format.openFrames chunks := by
  rw [← hasTerminal_inbound env, Bool.not_eq_true] at hopen
  cases format with
  | openAiChat =>
      exact OpenAi.ChatClientStream.length_run env
        ((OpenAi.ChatClientStream.hasTerminal_run env chunks).symm.trans hopen)
  | anthropicMessages => exact Anthropic.InboundStream.length_run env chunks
  | openAiResponses =>
      rw [Responses.ResponsesClientStream.hasTerminal_run] at hopen
      obtain rfl : chunks = [] := by simpa using hopen
      rfl

theorem inbound_total (env : Environment) (format : StreamFormat) : (format.inbound env).Total := by
  refine Transducer.Total.map ?_ _
  cases format <;> exact fun _ _ => rfl

end StreamFormat

/-! ## A replayed terminal -/

/-- Frames of the client's transformer, and a terminal if there is none among
them and no other reason to leave it out. -/
theorem speaks_replay_iff (format : StreamFormat) (own : List StreamEvent) {terminal : Option StreamEvent}
    (hterminal : ∀ event ∈ terminal, isClientStreamTerminal event = true) (complete : Bool) :
    SpeaksOwnProtocol format own
        (if complete || hasTerminal own then own else own ++ terminal.toList) ↔
      CleanBeforeLast own ∧ (hasTerminal own = true ∨ complete = true ∨
        ∀ event ∈ terminal, format.ownTerminal event = true) := by
  by_cases hpresent : (complete || hasTerminal own) = true
  · rw [if_pos hpresent]
    constructor
    · intro h
      refine ⟨h.terminalLast, ?_⟩
      rcases (Bool.or_eq_true _ _).mp hpresent with hcomplete | hown
      · exact .inr (.inl hcomplete)
      · exact .inl hown
    · exact fun h => ⟨fun frame hmem => .inl hmem, h.1⟩
  · rw [if_neg hpresent]
    obtain ⟨hcomplete, hown⟩ : complete = false ∧ hasTerminal own = false := by simpa using hpresent
    have hnot : ∀ event ∈ terminal, event ∉ own := fun event hevent hmem =>
      List.any_eq_false.mp hown event hmem (hterminal event hevent)
    cases terminal with
    | none =>
        rw [Option.toList_none, List.append_nil]
        exact iff_of_true ⟨fun frame hmem => .inl hmem, cleanBeforeLast_of_not_hasTerminal hown⟩
          ⟨cleanBeforeLast_of_not_hasTerminal hown, .inr (.inr (by simp))⟩
    | some event =>
        rw [Option.toList_some]
        constructor
        · intro h
          refine ⟨cleanBeforeLast_of_not_hasTerminal hown, .inr (.inr ?_)⟩
          intro other hother
          obtain rfl := Option.mem_some_iff.mp hother
          exact (h.onlyOwn event (by simp)).resolve_left (hnot event rfl)
        · rintro ⟨-, h⟩
          have hevent : format.ownTerminal event = true := by
            rcases h with h | h | h
            · exact absurd h (by rw [hown]; simp)
            · exact absurd h (by rw [hcomplete]; simp)
            · exact h event rfl
          refine ⟨fun frame hmem => ?_, cleanBeforeLast_append hown event⟩
          rcases List.mem_append.mp hmem with hmem | hmem
          · exact .inl hmem
          · rw [List.mem_singleton.mp hmem]
            exact .inr hevent

theorem lastTerminal_terminal (events : List StreamEvent) : ∀ slot : Option StreamEvent,
    (∀ event ∈ slot, isClientStreamTerminal event = true) →
    ∀ event ∈ lastTerminal slot events, isClientStreamTerminal event = true := by
  induction events with
  | nil => exact fun _ hslot => hslot
  | cons event events ih =>
      intro slot hslot
      refine ih _ ?_
      dsimp only
      by_cases h : isClientStreamTerminal event = true
      · rw [if_pos h]
        intro other hother
        obtain rfl := Option.mem_some_iff.mp hother
        exact h
      · rw [if_neg h]
        exact hslot

/-! ## Both paths -/

section Paths

variable (env : Environment) (provider : ProviderAdapter) (client : StreamFormat)
  (raw : List StreamEvent)

/-- The unified chunks of the provider's events. -/
def unifiedChunks : List LlmResponse := provider.stream.run raw

/-- What the client's transformer writes. -/
def ownFrames : List StreamEvent := (client.inbound env).run (unifiedChunks provider raw)

/-- The frames of `transform_live_stream`, for a stream that ends without a
read error. -/
def deliveredLive : List StreamEvent :=
  okFrames (transformLiveStream (.ok provider.stream) (.ok (client.inbound env)) (raw.map .ok))

/-- The frames of `finish_stream_events`. -/
def deliveredBuffered : Except ConduitError (List StreamEvent) :=
  finishStreamEvents (.ok provider.stream) (.ok (client.inbound env)) raw

/-- On both paths the client hears its own protocol only. -/
def DeliversOwnProtocol : Prop :=
  SpeaksOwnProtocol client (ownFrames env provider client raw) (deliveredLive env provider client raw) ∧
    ∃ frames, deliveredBuffered env provider client raw = .ok frames ∧
      SpeaksOwnProtocol client (ownFrames env provider client raw) frames

theorem speaks_live_iff :
    SpeaksOwnProtocol client (ownFrames env provider client raw) (deliveredLive env provider client raw) ↔
      client.NothingAfterEnd (unifiedChunks provider raw) ∧
        (client.EndsAnswer (unifiedChunks provider raw) ∨
          ∀ event ∈ lastTerminal none raw, client.ownTerminal event = true) := by
  have hframes : deliveredLive env provider client raw =
      if false || hasTerminal (ownFrames env provider client raw) then ownFrames env provider client raw
      else ownFrames env provider client raw ++ (lastTerminal none raw).toList := by
    unfold deliveredLive
    rw [transformLiveStream_ok]
    dsimp only
    rw [Transducer.Total.pulled (provider.total.comp (client.inbound_total env)),
      Bool.false_or]
    rfl
  rw [hframes, speaks_replay_iff client _ (lastTerminal_terminal raw none (by simp))]
  unfold ownFrames
  rw [StreamFormat.clean_inbound, StreamFormat.hasTerminal_inbound]
  simp

theorem speaks_buffered_iff :
    (∃ frames, deliveredBuffered env provider client raw = .ok frames ∧
        SpeaksOwnProtocol client (ownFrames env provider client raw) frames) ↔
      client.NothingAfterEnd (unifiedChunks provider raw) ∧
        (client.EndsAnswer (unifiedChunks provider raw) ∨
          raw.length ≤ client.openFrames (unifiedChunks provider raw) ∨
          ∀ event ∈ raw.find? isClientStreamTerminal, client.ownTerminal event = true) := by
  have hframes : deliveredBuffered env provider client raw =
      .ok (if decide (raw.length ≤ (ownFrames env provider client raw).length) ||
          hasTerminal (ownFrames env provider client raw) then ownFrames env provider client raw
        else ownFrames env provider client raw ++ (raw.find? isClientStreamTerminal).toList) :=
    finishStreamEvents_ok _ _ _
  have hfirst : ∀ event ∈ raw.find? isClientStreamTerminal, isClientStreamTerminal event = true :=
    fun event hevent => List.find?_some hevent
  have hspeaks := speaks_replay_iff client (ownFrames env provider client raw) hfirst
    (decide (raw.length ≤ (ownFrames env provider client raw).length))
  rw [decide_eq_true_iff] at hspeaks
  have hclean := StreamFormat.clean_inbound env client (unifiedChunks provider raw)
  have hends := StreamFormat.hasTerminal_inbound env client (unifiedChunks provider raw)
  have hreason : (hasTerminal (ownFrames env provider client raw) = true ∨
        raw.length ≤ (ownFrames env provider client raw).length ∨
        ∀ event ∈ raw.find? isClientStreamTerminal, client.ownTerminal event = true) ↔
      (client.EndsAnswer (unifiedChunks provider raw) ∨
        raw.length ≤ client.openFrames (unifiedChunks provider raw) ∨
        ∀ event ∈ raw.find? isClientStreamTerminal, client.ownTerminal event = true) := by
    by_cases hopen : client.EndsAnswer (unifiedChunks provider raw)
    · exact iff_of_true (.inl (hends.mpr hopen)) (.inl hopen)
    · have hlength := StreamFormat.length_inbound env client hopen
      rw [← hlength]
      exact or_congr hends Iff.rfl
  refine Iff.trans ?_ (hspeaks.trans (and_congr hclean hreason))
  rw [hframes]
  constructor
  · rintro ⟨frames, heq, h⟩
    rw [Except.ok.inj heq]
    exact h
  · exact fun h => ⟨_, rfl, h⟩

/-- The client hears its own protocol only, with one terminal at the end, exactly
if no chunk has anything to say after the answer has ended, and either the
chunks do end it or the terminal each path replays is the client's own; the
buffered path replays none when the open answer has as many frames as the
provider sent events. -/
theorem deliversOwnProtocol_iff :
    DeliversOwnProtocol env provider client raw ↔
      client.NothingAfterEnd (unifiedChunks provider raw) ∧
        (client.EndsAnswer (unifiedChunks provider raw) ∨
          (∀ event ∈ lastTerminal none raw, client.ownTerminal event = true) ∧
          (raw.length ≤ client.openFrames (unifiedChunks provider raw) ∨
            ∀ event ∈ raw.find? isClientStreamTerminal, client.ownTerminal event = true)) := by
  unfold DeliversOwnProtocol
  rw [speaks_live_iff, speaks_buffered_iff, ← and_and_left, or_and_left]

end Paths

/-! ## A stream without usage -/

/-- A chat stream as a provider sends it that was not asked for usage. -/
def unmeteredChat : List StreamEvent :=
  ["text", "finish", "[DONE]"].map fun data =>
    { lastEventId := none, eventType := none, data := some data, binary := none, done := false }

/-- The two chunks, by name. -/
def unmeteredParse (data : String) : Option Json :=
  if data = "text" then
    some (.object [("id", .string "chatcmpl-1"), ("model", .string "m"),
      ("choices", .array [.object [("index", .int 0),
        ("delta", .object [("role", .string "assistant"), ("content", .string "Hi")])]])])
  else if data = "finish" then
    some (.object [("id", .string "chatcmpl-1"), ("model", .string "m"),
      ("choices", .array [.object [("index", .int 0), ("delta", .object []),
        ("finish_reason", .string "stop")]])])
  else none

/-- The Anthropic client never gets `message_stop`, but the provider's `[DONE]`. -/
theorem unmetered_chat_replays_done :
    ¬ ∀ (env : Environment) (provider client : StreamFormat) (raw : List StreamEvent),
      provider ≠ client → DeliversOwnProtocol env (provider.adapter env) client raw := by
  intro h
  have hlive := (h ⟨unmeteredParse, fun _ => "c2ln", ⟨fun kind _ => kind, 0⟩⟩ .openAiChat
    .anthropicMessages unmeteredChat (by decide)).1
  rw [speaks_live_iff] at hlive
  rcases hlive.2 with hends | hown
  · exact absurd hends (by unfold StreamFormat.EndsAnswer; decide)
  · exact absurd (hown _ rfl) (by decide)

end Conduit.Transformers
