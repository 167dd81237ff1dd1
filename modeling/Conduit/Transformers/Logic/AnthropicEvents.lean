import Conduit.Transformers.AnthropicEvents

/-!
# The reader accepts the well-formed streams

The reader of a stream ends at the stop of the message exactly for the
well-formed streams.
-/

namespace Conduit.Transformers.Anthropic

open Base

/-! ## Well-formed streams are accepted -/

theorem reader_deltas (index : Nat) (kind : String) (deltas : List BlockDelta) (events : List Event)
    (hlegal : ∀ delta ∈ deltas, delta.legal kind) :
    reader.run (.inside index kind) (deltas.map (.contentBlockDelta index) ++ events) =
      reader.run (.inside index kind) events := by
  induction deltas with
  | nil => rfl
  | cons delta deltas ih =>
      have hstep : reader.step (.inside index kind) (.contentBlockDelta index delta) =
          some (.inside index kind) := if_pos ⟨rfl, hlegal delta List.mem_cons_self⟩
      rw [List.map_cons, List.cons_append, Monitor.run_cons]
      rw [hstep]
      exact ih fun delta hmem => hlegal delta (List.mem_cons_of_mem _ hmem)

theorem reader_block (index : Nat) (block : Block) (events : List Event) (hlegal : block.Legal) :
    reader.run (.between index) (block.events index ++ events) =
      reader.run (.between (index + 1)) events := by
  have hstart : reader.step (.between index) (.contentBlockStart index block.contentBlock) =
      some (.inside index (blockType block.contentBlock)) := if_pos rfl
  have hstop : reader.step (.inside index (blockType block.contentBlock)) (.contentBlockStop index) =
      some (.between (index + 1)) := if_pos rfl
  unfold Block.events
  rw [List.cons_append, List.cons_append, List.append_assoc, Monitor.run_cons]
  rw [hstart]
  show reader.run (.inside index (blockType block.contentBlock)) _ = _
  rw [reader_deltas index _ block.deltas _ hlegal]
  show (reader.step (.inside index (blockType block.contentBlock)) (.contentBlockStop index)).bind _ = _
  rw [hstop]
  rfl

theorem reader_blocks (blocks : List Block) (hlegal : ∀ block ∈ blocks, block.Legal) :
    ∀ (index : Nat) (stopReason : Option String) (usage : Json),
      reader.run (.between index)
        (blockEvents index blocks ++ [.messageDelta stopReason usage, .messageStop]) =
        some .done := by
  induction blocks with
  | nil => exact fun _ _ _ => rfl
  | cons block blocks ih =>
      intro index stopReason usage
      unfold blockEvents
      rw [List.append_assoc, reader_block index block _ (hlegal block List.mem_cons_self)]
      exact ih (fun block hmem => hlegal block (List.mem_cons_of_mem _ hmem)) _ _ _

/-! ## Accepted streams are well formed -/

/-- After a block: more blocks and the two last events. -/
def Remaining (index : Nat) (events : List Event) : Prop :=
  ∃ (blocks : List Block) (stopReason : Option String) (usage : Json),
    events = blockEvents index blocks ++ [.messageDelta stopReason usage, .messageStop] ∧
    ∀ block ∈ blocks, block.Legal

/-- Inside a block: the rest of its deltas and its stop come first. -/
def RemainingInside (index : Nat) (kind : String) (events : List Event) : Prop :=
  ∃ (deltas : List BlockDelta) (rest : List Event),
    events = deltas.map (.contentBlockDelta index) ++ .contentBlockStop index :: rest ∧
    (∀ delta ∈ deltas, delta.legal kind) ∧ Remaining (index + 1) rest

theorem reader_closing {events : List Event} (h : reader.run .closing events = some .done) :
    events = [.messageStop] := by
  cases events with
  | nil => exact absurd h (by simp)
  | cons event events =>
      cases event with
      | messageStop =>
          cases events with
          | nil => rfl
          | cons event events => exact absurd h (by cases event <;> exact Option.some_ne_none _ ∘ Eq.symm)
      | _ => exact absurd h (by exact Option.some_ne_none _ ∘ Eq.symm)

/-- The two positions by induction on the events read together. -/
theorem remaining_of_reader (events : List Event) :
    (∀ index, reader.run (.between index) events = some .done → Remaining index events) ∧
      ∀ index kind, reader.run (.inside index kind) events = some .done →
        RemainingInside index kind events := by
  induction events with
  | nil => exact ⟨fun _ h => absurd h (by simp), fun _ _ h => absurd h (by simp)⟩
  | cons event events ih =>
      obtain ⟨ihbetween, ihinside⟩ := ih
      constructor
      · intro index h
        rw [Monitor.run_cons] at h
        cases event with
        | contentBlockStart i contentBlock =>
            by_cases hindex : i = index
            · subst hindex
              have hstep : reader.step (.between i) (.contentBlockStart i contentBlock) =
                  some (.inside i (blockType contentBlock)) := if_pos rfl
              rw [hstep] at h
              obtain ⟨deltas, rest, rfl, hlegal, blocks, stopReason, usage, rfl, hblocks⟩ :=
                ihinside i _ h
              refine ⟨⟨contentBlock, deltas⟩ :: blocks, stopReason, usage, ?_, ?_⟩
              · show _ = (Block.events i ⟨contentBlock, deltas⟩ ++ blockEvents (i + 1) blocks) ++ _
                unfold Block.events
                simp
              · intro block hmem
                rcases List.mem_cons.mp hmem with rfl | hmem
                · exact hlegal
                · exact hblocks block hmem
            · have hstep : reader.step (.between index) (.contentBlockStart i contentBlock) = none :=
                if_neg hindex
              rw [hstep] at h
              exact absurd h (by simp)
        | messageDelta stopReason usage =>
            rw [reader_closing h]
            exact ⟨[], stopReason, usage, rfl, by simp⟩
        | _ => exact absurd h (by exact Option.some_ne_none _ ∘ Eq.symm)
      · intro index kind h
        rw [Monitor.run_cons] at h
        cases event with
        | contentBlockDelta i delta =>
            by_cases hdelta : i = index ∧ delta.legal kind = true
            · obtain ⟨rfl, hlegal⟩ := hdelta
              have hstep : reader.step (.inside i kind) (.contentBlockDelta i delta) =
                  some (.inside i kind) := if_pos ⟨rfl, hlegal⟩
              rw [hstep] at h
              obtain ⟨deltas, rest, rfl, hdeltas, hrest⟩ := ihinside i kind h
              refine ⟨delta :: deltas, rest, rfl, ?_, hrest⟩
              intro other hmem
              rcases List.mem_cons.mp hmem with rfl | hmem
              · exact hlegal
              · exact hdeltas other hmem
            · have hstep : reader.step (.inside index kind) (.contentBlockDelta i delta) = none :=
                if_neg hdelta
              rw [hstep] at h
              exact absurd h (by simp)
        | contentBlockStop i =>
            by_cases hindex : i = index
            · subst hindex
              have hstep : reader.step (.inside i kind) (.contentBlockStop i) =
                  some (.between (i + 1)) := if_pos rfl
              rw [hstep] at h
              exact ⟨[], events, rfl, by simp, ihbetween (i + 1) h⟩
            · have hstep : reader.step (.inside index kind) (.contentBlockStop i) = none :=
                if_neg hindex
              rw [hstep] at h
              exact absurd h (by simp)
        | _ => exact absurd h (by exact Option.some_ne_none _ ∘ Eq.symm)

/-- The reader reaches the stop exactly on well-formed streams. -/
theorem reader_done_iff (events : List Event) :
    reader.run .start events = some .done ↔ WellFormed events := by
  constructor
  · intro h
    cases events with
    | nil => exact absurd h (by simp)
    | cons event events =>
        cases event with
        | messageStart id model usage =>
            obtain ⟨blocks, stopReason, finalUsage, rfl, hlegal⟩ :=
              (remaining_of_reader events).1 0 h
            exact ⟨id, model, usage, blocks, stopReason, finalUsage, rfl, hlegal⟩
        | _ => exact absurd h (by exact Option.some_ne_none _ ∘ Eq.symm)
  · rintro ⟨id, model, usage, blocks, stopReason, finalUsage, rfl, hlegal⟩
    exact reader_blocks blocks hlegal 0 stopReason finalUsage

end Conduit.Transformers.Anthropic
