import Conduit.Pipeline.Stream
import Mathlib.Data.List.Infix

/-!
# The terminals of both paths

Without a read error both paths deliver what the transformers answer to the
raw events, and at most one terminal after it: the first of the raw events on
the buffered path, the last one that was pulled on the live path.
-/

namespace Conduit.Pipeline

open Base

variable {σ τ LlmResponse : Type}

def hasTerminal (events : List StreamEvent) : Bool := events.any isClientStreamTerminal

theorem isSome_find?_terminal {events : List StreamEvent} :
    (events.find? isClientStreamTerminal).isSome = hasTerminal events := List.isSome_find?

theorem append_toList_inj {events : List StreamEvent} {first last : Option StreamEvent}
    (h : events ++ first.toList = events ++ last.toList) : first = last := by
  have htails := List.append_cancel_left h
  cases first <;> cases last <;> simp_all

/-! ## The buffered path -/

theorem restoreTerminals_present {rawEventCount : Nat} {events : List StreamEvent}
    (h : (decide (rawEventCount ≤ events.length) || hasTerminal events) = true)
    (terminals : List StreamEvent) : restoreTerminals rawEventCount events terminals = events := by
  induction terminals with
  | nil => rfl
  | cons terminal terminals ih =>
      unfold restoreTerminals
      unfold hasTerminal at h
      dsimp only
      rw [if_pos h]
      exact ih

/-- Only the first terminal can be pushed. -/
theorem restoreTerminals_missing {rawEventCount : Nat} {events : List StreamEvent}
    (h : (decide (rawEventCount ≤ events.length) || hasTerminal events) = false)
    {terminals : List StreamEvent} (hterminals : ∀ event ∈ terminals, isClientStreamTerminal event = true) :
    restoreTerminals rawEventCount events terminals = events ++ terminals.head?.toList := by
  cases terminals with
  | nil => exact (List.append_nil _).symm
  | cons terminal terminals =>
      unfold restoreTerminals
      unfold hasTerminal at h
      dsimp only
      rw [if_neg (by simp [h])]
      refine restoreTerminals_present ?_ terminals
      unfold hasTerminal
      rw [List.any_append]
      simp [hterminals terminal List.mem_cons_self]

/-- What `finish_stream_events` returns. -/
theorem finishStreamEvents_ok (outbound : Transducer σ StreamEvent LlmResponse)
    (inbound : Transducer τ LlmResponse StreamEvent) (raw : List StreamEvent) :
    finishStreamEvents (.ok outbound) (.ok inbound) raw =
      .ok (let events := inbound.run (outbound.run raw)
        if decide (raw.length ≤ events.length) || hasTerminal events then events
        else events ++ (raw.find? isClientStreamTerminal).toList) := by
  unfold finishStreamEvents
  dsimp only
  congr 1
  split_ifs with h
  · exact restoreTerminals_present h _
  · rw [restoreTerminals_missing (by simpa using h)
      (fun event hevent => (List.mem_filter.mp hevent).2), List.head?_filter]

/-! ## The live path -/

/-- The last terminal of a list, or the one stashed before it. -/
def lastTerminal (slot : Option StreamEvent) (events : List StreamEvent) : Option StreamEvent :=
  events.foldl (fun slot event => if isClientStreamTerminal event then some event else slot) slot

theorem liveFrames_ok (chain : Transducer σ StreamEvent StreamEvent) (raw : List StreamEvent) :
    ∀ (s : σ) (slot : Option StreamEvent) (survived : Bool),
      liveFrames chain s slot survived (raw.map .ok) =
        (chain.runFrom s raw).map .ok ++
          closeLive (lastTerminal slot (chain.pulled s raw))
            (survived || hasTerminal (chain.runFrom s raw)) none := by
  induction raw with
  | nil => exact fun _ _ _ => rfl
  | cons event raw ih =>
      intro s slot survived
      rw [List.map_cons]
      unfold liveFrames Transducer.pulled
      rcases hread : chain.read s event with ⟨frames, _ | next⟩
      · rw [Transducer.runFrom_cons_stop hread]
        rfl
      · rw [Transducer.runFrom_cons_next hread]
        dsimp only
        rw [ih, List.map_append, List.append_assoc]
        unfold hasTerminal
        rw [List.any_append, Bool.or_assoc]
        rfl

/-- The frames of a stream without its errors. -/
def okFrames (frames : List (Except ConduitError StreamEvent)) : List StreamEvent :=
  frames.filterMap Except.toOption

theorem okFrames_map (events : List StreamEvent) :
    okFrames (events.map .ok) = events := by
  unfold okFrames
  rw [List.filterMap_map]
  exact List.filterMap_some

/-- What `transform_live_stream` sends. -/
theorem transformLiveStream_ok (outbound : Transducer σ StreamEvent LlmResponse)
    (inbound : Transducer τ LlmResponse StreamEvent) (raw : List StreamEvent) :
    okFrames (transformLiveStream (.ok outbound) (.ok inbound) (raw.map .ok)) =
      let events := inbound.run (outbound.run raw)
      let chain := outbound.comp inbound
      if hasTerminal events then events
      else events ++ (lastTerminal none (chain.pulled chain.start raw)).toList := by
  unfold transformLiveStream
  dsimp only
  rw [liveFrames_ok, Bool.false_or, ← Transducer.run_comp]
  unfold Transducer.run closeLive okFrames
  rw [List.filterMap_append, ← okFrames, okFrames_map]
  by_cases h : hasTerminal ((outbound.comp inbound).runFrom (outbound.comp inbound).start raw) = true
  · rw [if_pos h, h]
    exact List.append_nil _
  · rw [if_neg h, Bool.eq_false_iff.mpr h]
    congr 1
    exact (congrArg _ (List.append_nil _)).trans (okFrames_map _)

theorem lastTerminal_of_none {events : List StreamEvent} (h : hasTerminal events = false)
    (slot : Option StreamEvent) : lastTerminal slot events = slot := by
  induction events generalizing slot with
  | nil => rfl
  | cons event events ih =>
      unfold hasTerminal at h
      rw [List.any_cons, Bool.or_eq_false_iff] at h
      unfold lastTerminal
      rw [List.foldl_cons, if_neg (by simp [h.1])]
      exact ih h.2 slot

/-- What is pulled has no terminal unless the raw stream has one. -/
theorem hasTerminal_pulled {chain : Transducer σ StreamEvent StreamEvent} {raw : List StreamEvent}
    (h : hasTerminal raw = false) (s : σ) : hasTerminal (chain.pulled s raw) = false := by
  unfold hasTerminal at *
  rw [List.any_eq_false] at *
  intro event hevent
  exact h event ((chain.pulled_prefix raw s).subset hevent)

end Conduit.Pipeline
