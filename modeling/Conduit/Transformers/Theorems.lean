import Conduit.Transformers.Logic.AnthropicEvents
import Conduit.Transformers.Logic.AnthropicInboundStream

/-!
# Client streams

What holds of the stream an Anthropic client receives, over every list of
unified chunks.
-/

namespace Conduit.Transformers.Anthropic

open Base InboundStream

/-! ## The shape of the Anthropic stream -/

/-- Before the first chunk. -/
theorem follows_start : Follows {} {} .start :=
  ⟨{ started := rfl, text := rfl, thinking := rfl, tool := rfl, signature := rfl, toolCalls := rfl
     finished := rfl, stopped := rfl, begun := fun h => absurd h (by simp), fresh := fun _ => rfl
     writable := fun h => absurd h (by simp), separated := fun _ => rfl }, rfl⟩

/-- The reader accepts what is written exactly as far as the outline goes. -/
theorem reader_clientEvents (generateSignature : Nat → String) (chunks : List LlmResponse) :
    SimulatesAt reader Follows (Emitter.forEach (processChunk generateSignature) chunks)
      (fun o => outline.run o (chunks.flatMap chunkParts)) {} {} .start :=
  Simulates.forEach (performs_processChunk generateSignature) chunks {} {} .start follows_start

theorem Outline.shape_eq_done {o : Outline} {index : Nat} : o.shape index = .done ↔ o.stopped = true := by
  unfold Outline.shape
  constructor
  · intro h
    by_contra hstopped
    rw [if_neg hstopped] at h
    split at h
    · exact absurd h (by simp)
    · split at h <;> exact absurd h (by simp)
  · intro h
    exact if_pos h

/-- A stream of chunks is written as one well-formed message exactly if its
parts come in an order the iterator can write, and the message is stopped. -/
theorem clientEvents_wellFormed_iff (generateSignature : Nat → String) (chunks : List LlmResponse) :
    WellFormed (clientEvents generateSignature chunks) ↔ Orderly chunks := by
  have hevents : clientEvents generateSignature chunks =
      (Emitter.forEach (processChunk generateSignature) chunks {}).1 :=
    Emitter.run_transducer _ _ chunks
  obtain ⟨hgoes, hgives⟩ := reader_clientEvents generateSignature chunks
  rw [← reader_done_iff, hevents]
  cases hrun : outline.run {} (chunks.flatMap chunkParts) with
  | none =>
      rw [hgives hrun]
      constructor
      · intro h
        exact absurd h (by simp)
      · rintro ⟨o, ho, -⟩
        exact absurd (hrun.symm.trans ho) (by simp)
  | some o =>
      obtain ⟨u, hu, -, hshape⟩ := hgoes o hrun
      rw [hu]
      constructor
      · intro h
        exact ⟨o, hrun, Outline.shape_eq_done.mp (hshape.symm.trans (Option.some.inj h))⟩
      · rintro ⟨o', ho', hstopped⟩
        obtain rfl := Option.some.inj (hrun.symm.trans ho')
        rw [hshape, Outline.shape_eq_done.mpr hstopped]

/-- Text and a finish reason, but no usage at or after it: the message is never
stopped. -/
theorem unmetered_stream_malformed :
    ¬ ∀ (generateSignature : Nat → String) (chunks : List LlmResponse),
      (∀ chunk ∈ chunks, ∀ choice ∈ chunk.choices, choice.index = 0) →
      (∃ chunk ∈ chunks, ∃ choice ∈ chunk.choices, choice.finishReason.isSome) →
      WellFormed (clientEvents generateSignature chunks) := by
  intro h
  have hwf := h (fun _ => "c2ln")
    [{ id := "msg_1", choices := [{ delta := some { content := some (.text "Hi") } }],
       usage := some { promptTokens := 3, completionTokens := 1 } },
     { id := "msg_1", choices := [{ finishReason := some "stop" }] }]
    (by simp) (by simp)
  rw [← reader_done_iff] at hwf
  exact absurd hwf (by decide)

end Conduit.Transformers.Anthropic
