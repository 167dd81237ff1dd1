import Mathlib.Data.List.Basic

/-!
# The first of each key

`firstBy key seen l` keeps the elements of a list whose key was not seen
before, in order. An element is kept exactly when its key is in neither `seen`
nor an element before it, so a concatenation keeps of each part what the part
alone keeps and no earlier part has.
-/

namespace Base

variable {α κ : Type} [DecidableEq κ] (key : α → κ)

def firstBy (seen : List κ) : List α → List α
  | [] => []
  | a :: l => if key a ∈ seen then firstBy seen l else a :: firstBy (key a :: seen) l

variable {key} {seen seen' : List κ} {a : α} {l : List α}

@[simp] theorem firstBy_nil : firstBy key seen [] = [] := rfl

theorem firstBy_cons : firstBy key seen (a :: l) =
    if key a ∈ seen then firstBy key seen l else a :: firstBy key (key a :: seen) l := rfl

/-- Only the membership in what was seen matters. -/
theorem firstBy_congr (h : ∀ k : κ, k ∈ seen ↔ k ∈ seen') : firstBy key seen l = firstBy key seen' l := by
  induction l generalizing seen seen' with
  | nil => rfl
  | cons a l ih =>
      rw [firstBy_cons, firstBy_cons]
      by_cases ha : key a ∈ seen
      · rw [if_pos ha, if_pos ((h (key a)).mp ha), ih h]
      · rw [if_neg ha, if_neg fun ha' => ha ((h (key a)).mpr ha')]
        congr 1
        apply ih
        intro k
        rw [List.mem_cons, List.mem_cons, h k]

/-- What was seen before takes its elements away. -/
theorem firstBy_eq_filter : firstBy key seen l = (firstBy key [] l).filter fun a => key a ∉ seen := by
  induction l generalizing seen with
  | nil => rfl
  | cons a l ih =>
      have hcons : ∀ other : List κ, firstBy key (key a :: other) l =
          (firstBy key [key a] l).filter fun b => key b ∉ other := by
        intro other
        rw [ih, @ih [key a], List.filter_filter]
        refine List.filter_congr fun b _ => ?_
        simp [Bool.and_comm]
      rw [firstBy_cons, firstBy_cons]
      rw [if_neg List.not_mem_nil]
      by_cases ha : key a ∈ seen
      · rw [if_pos ha, List.filter_cons_of_neg (by simpa using ha), ih, @ih [key a],
          List.filter_filter]
        refine List.filter_congr fun b _ => ?_
        by_cases hb : key b = key a
        · simp [hb, ha]
        · simp [hb]
      · rw [if_neg ha, List.filter_cons_of_pos (by simpa using ha), hcons]

theorem mem_firstBy_of_seen : a ∈ firstBy key seen l ↔ a ∈ firstBy key [] l ∧ key a ∉ seen := by
  rw [firstBy_eq_filter, List.mem_filter, decide_eq_true_eq]

theorem firstBy_append (l l' : List α) :
    firstBy key seen (l ++ l') = firstBy key seen l ++ firstBy key (l.map key ++ seen) l' := by
  induction l generalizing seen with
  | nil => rfl
  | cons a l ih =>
      rw [List.cons_append, firstBy_cons, firstBy_cons]
      by_cases ha : key a ∈ seen
      · rw [if_pos ha, if_pos ha, ih]
        congr 1
        apply firstBy_congr
        intro k
        simp only [List.map_cons, List.cons_append, List.mem_cons, List.mem_append]
        constructor
        · exact .inr
        · rintro (rfl | hk)
          · exact .inr ha
          · exact hk
      · rw [if_neg ha, if_neg ha, ih, List.cons_append]
        congr 2
        apply firstBy_congr
        intro k
        simp only [List.map_cons, List.cons_append, List.mem_cons, List.mem_append]
        tauto

theorem mem_of_mem_firstBy (h : a ∈ firstBy key seen l) : a ∈ l := by
  induction l generalizing seen with
  | nil => exact h
  | cons b l ih =>
      rw [firstBy_cons] at h
      by_cases hb : key b ∈ seen
      · rw [if_pos hb] at h
        exact List.mem_cons_of_mem _ (ih h)
      · rw [if_neg hb] at h
        rcases List.mem_cons.mp h with rfl | h
        · exact List.mem_cons_self
        · exact List.mem_cons_of_mem _ (ih h)

theorem mem_firstBy_id {α : Type} [DecidableEq α] {seen l : List α} {a : α} :
    a ∈ firstBy id seen l ↔ a ∈ l ∧ a ∉ seen := by
  induction l generalizing seen with
  | nil => simp
  | cons b l ih =>
      rw [firstBy_cons]
      by_cases hb : id b ∈ seen
      · rw [if_pos hb, ih, List.mem_cons]
        refine and_congr_left fun ha => ⟨.inr, fun h => h.resolve_left ?_⟩
        rintro rfl
        exact ha hb
      · rw [if_neg hb, List.mem_cons, ih, List.mem_cons, List.mem_cons]
        by_cases hab : a = b
        · subst hab
          simpa using hb
        · simp [hab]

theorem firstBy_map {β : Type} (f : β → α) (l : List β) :
    firstBy key seen (l.map f) = (firstBy (fun b => key (f b)) seen l).map f := by
  induction l generalizing seen with
  | nil => rfl
  | cons b l ih =>
      rw [List.map_cons, firstBy_cons, firstBy_cons]
      by_cases hb : key (f b) ∈ seen
      · rw [if_pos hb, if_pos hb, ih]
      · rw [if_neg hb, if_neg hb, ih, List.map_cons]

/-- Of a concatenation, the elements of a part whose key no earlier part has. -/
theorem mem_firstBy_flatMap {β : Type} (f : β → List α) (bs : List β) :
    a ∈ firstBy key seen (bs.flatMap f) ↔ ∃ (before : List β) (b : β) (after : List β),
      bs = before ++ b :: after ∧ a ∈ firstBy key [] (f b) ∧ key a ∉ seen ∧
        ∀ c ∈ before, ∀ other ∈ f c, key other ≠ key a := by
  induction bs generalizing seen with
  | nil => simp
  | cons b bs ih =>
      rw [List.flatMap_cons, firstBy_append, List.mem_append, ih, mem_firstBy_of_seen]
      constructor
      · rintro (⟨hmem, hseen⟩ | ⟨before, c, after, rfl, hmem, hseen, hbefore⟩)
        · exact ⟨[], b, bs, rfl, hmem, hseen, fun _ h => absurd h List.not_mem_nil⟩
        · rw [List.mem_append, not_or] at hseen
          refine ⟨b :: before, c, after, rfl, hmem, hseen.2, ?_⟩
          intro d hd other hother hkey
          rcases List.mem_cons.mp hd with rfl | hd
          · exact hseen.1 (hkey ▸ List.mem_map_of_mem hother)
          · exact hbefore d hd other hother hkey
      · rintro ⟨before, c, after, hsplit, hmem, hseen, hbefore⟩
        cases before with
        | nil =>
            obtain ⟨rfl, rfl⟩ := List.cons.inj hsplit
            exact .inl ⟨hmem, hseen⟩
        | cons d before =>
            obtain ⟨rfl, rfl⟩ := List.cons.inj hsplit
            refine .inr ⟨before, c, after, rfl, hmem, ?_, fun e he =>
              hbefore e (List.mem_cons_of_mem _ he)⟩
            rw [List.mem_append, not_or]
            refine ⟨fun hin => ?_, hseen⟩
            obtain ⟨other, hother, hkey⟩ := List.mem_map.mp hin
            exact hbefore b List.mem_cons_self other hother hkey

end Base
