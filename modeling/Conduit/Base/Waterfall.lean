import Mathlib

/-!
# Drawing an amount from sources in order

`draw amount caps` is what each source gives when an amount is drawn from them
one after the other, each giving what is still needed up to its cap. `Drawn`
says what that means without the computation: nothing is drawn from a source
while an earlier one has something left, and where the amount is not covered
every source is exhausted.
-/

namespace Base.Waterfall

def draw : Int → List Int → List Int
  | _, [] => []
  | amount, cap :: caps => min amount cap :: draw (amount - min amount cap) caps

/-- No source owes anything. -/
def Caps (caps : List Int) : Prop := ∀ cap ∈ caps, 0 ≤ cap

structure Drawn (amount : Int) (caps takes : List Int) : Prop where
  /-- Every source gives something between nothing and its cap. -/
  bounds : List.Forall₂ (fun take cap => 0 ≤ take ∧ take ≤ cap) takes caps
  total : takes.sum ≤ amount
  /-- What is drawn from later sources is drawn after the earlier ones gave all. -/
  inOrder : ∀ before after, caps = before ++ after →
    (∃ take ∈ takes.drop before.length, 0 < take) → takes.take before.length = before
  exhausted : takes.sum < amount → takes = caps

theorem Caps.tail {cap : Int} {caps : List Int} (h : Caps (cap :: caps)) : Caps caps :=
  fun c hc => h c (List.mem_cons_of_mem _ hc)

theorem Caps.append {caps caps' : List Int} (h : Caps caps) (h' : Caps caps') :
    Caps (caps ++ caps') := by
  intro c hc
  rcases List.mem_append.mp hc with hc | hc
  · exact h c hc
  · exact h' c hc

theorem length_draw (amount : Int) (caps : List Int) : (draw amount caps).length = caps.length := by
  induction caps generalizing amount with
  | nil => rfl
  | cons cap caps ih => exact congrArg (· + 1) (ih _)

/-- The later sources are drawn on for what the earlier ones left. -/
theorem draw_append (amount : Int) (caps caps' : List Int) :
    draw amount (caps ++ caps') =
      draw amount caps ++ draw (amount - (draw amount caps).sum) caps' := by
  induction caps generalizing amount with
  | nil => simp [draw]
  | cons cap caps ih =>
      show min amount cap :: draw (amount - min amount cap) (caps ++ caps') = _
      rw [ih]
      show _ = min amount cap :: (draw (amount - min amount cap) caps ++
        draw (amount - (min amount cap + (draw (amount - min amount cap) caps).sum)) caps')
      rw [Int.sub_sub]

theorem sum_draw_le {amount : Int} (h : 0 ≤ amount) (caps : List Int) :
    (draw amount caps).sum ≤ amount := by
  induction caps generalizing amount with
  | nil => exact h
  | cons cap caps ih =>
      show min amount cap + (draw (amount - min amount cap) caps).sum ≤ amount
      have hrest : (draw (amount - min amount cap) caps).sum ≤ amount - min amount cap := ih (by omega)
      omega

theorem draw_bounds {amount : Int} (h : 0 ≤ amount) {caps : List Int} (hcaps : Caps caps) :
    List.Forall₂ (fun take cap => 0 ≤ take ∧ take ≤ cap) (draw amount caps) caps := by
  induction caps generalizing amount with
  | nil => exact .nil
  | cons cap caps ih =>
      have hcap := hcaps cap List.mem_cons_self
      exact .cons (by omega) (ih (by omega) hcaps.tail)

/-- Nothing is drawn of nothing. -/
theorem draw_zero {caps : List Int} (hcaps : Caps caps) : ∀ take ∈ draw 0 caps, take = 0 := by
  induction caps with
  | nil => exact fun _ h => absurd h List.not_mem_nil
  | cons cap caps ih =>
      have hcap := hcaps cap List.mem_cons_self
      have hzero : min 0 cap = 0 := by omega
      intro take htake
      unfold draw at htake
      rw [hzero, Int.sub_zero] at htake
      rcases List.mem_cons.mp htake with rfl | htake
      · rfl
      · exact ih hcaps.tail take htake

theorem draw_nonneg {amount : Int} (h : 0 ≤ amount) {caps : List Int} (hcaps : Caps caps) :
    ∀ take ∈ draw amount caps, 0 ≤ take := by
  induction caps generalizing amount with
  | nil => exact fun _ h => absurd h List.not_mem_nil
  | cons cap caps ih =>
      have hcap := hcaps cap List.mem_cons_self
      intro take htake
      rcases List.mem_cons.mp htake with rfl | htake
      · omega
      · have hleft : 0 ≤ amount - min amount cap := by omega
        exact ih hleft hcaps.tail take htake

/-- Where something is still needed, every source gave all it had. -/
theorem draw_exhausted {amount : Int} {caps : List Int} (hcaps : Caps caps) (h : 0 ≤ amount)
    (hleft : (draw amount caps).sum < amount) : draw amount caps = caps := by
  induction caps generalizing amount with
  | nil => rfl
  | cons cap caps ih =>
      have hleft : min amount cap + (draw (amount - min amount cap) caps).sum < amount := hleft
      have hrest : 0 ≤ (draw (amount - min amount cap) caps).sum :=
        List.sum_nonneg (draw_nonneg (by omega) hcaps.tail)
      have hcap : min amount cap = cap := by omega
      show min amount cap :: draw (amount - min amount cap) caps = _
      rw [ih hcaps.tail (by omega) (by omega), hcap]

theorem drawn_draw {amount : Int} {caps : List Int} (hcaps : Caps caps) (h : 0 ≤ amount) :
    Drawn amount caps (draw amount caps) where
  bounds := draw_bounds h hcaps
  total := sum_draw_le h caps
  exhausted := draw_exhausted hcaps h
  inOrder before after hsplit hlater := by
    subst hsplit
    have hbefore : Caps before := fun c hc => hcaps c (List.mem_append_left _ hc)
    have hafter : Caps after := fun c hc => hcaps c (List.mem_append_right _ hc)
    have hlength := length_draw amount before
    rw [draw_append, List.drop_left' hlength] at hlater
    rw [draw_append, List.take_left' hlength]
    refine draw_exhausted hbefore h (lt_of_le_of_ne (sum_draw_le h before) fun hall => ?_)
    -- with nothing left the later sources give nothing
    obtain ⟨take, htake, hpositive⟩ := hlater
    rw [hall, Int.sub_self] at htake
    exact absurd (draw_zero hafter take htake) (by omega)

end Base.Waterfall
