import Mathlib.Data.List.Basic

/-!
# Common prefixes

Two lists are compared by a key, place by place. `sharedPrefix` counts the places
before the first one that differs; `withoutAgreeing` leaves out every place that
agrees. The two say the same of a list unless it agrees again after a difference.
-/

namespace Base.CommonPrefix

section

variable {α κ : Type} [DecidableEq κ] (key : α → κ)

def sharedPrefix : List α → List α → Nat
  | a :: list, b :: other => if key a = key b then sharedPrefix list other + 1 else 0
  | _, _ => 0

def withoutAgreeing : List α → List α → List α
  | a :: list, b :: other =>
      if key a = key b then withoutAgreeing list other else a :: withoutAgreeing list other
  | list, _ => list

end

section

variable {α κ : Type} (key : α → κ)

/-- The lists agree at a place that both have. -/
def AgreeAt (list other : List α) (i : Nat) : Prop :=
  ∃ a b, list[i]? = some a ∧ other[i]? = some b ∧ key a = key b

def DifferAt (list other : List α) (i : Nat) : Prop :=
  ∃ a b, list[i]? = some a ∧ other[i]? = some b ∧ key a ≠ key b

/-- After a difference the lists do not agree again. -/
def StaysDifferent (list other : List α) : Prop :=
  ∀ i j, i < j → DifferAt key list other i → ¬AgreeAt key list other j

theorem agreeAt_succ (a b : α) (list other : List α) (i : Nat) :
    AgreeAt key (a :: list) (b :: other) (i + 1) ↔ AgreeAt key list other i := by
  unfold AgreeAt
  rw [List.getElem?_cons_succ, List.getElem?_cons_succ]

theorem differAt_succ (a b : α) (list other : List α) (i : Nat) :
    DifferAt key (a :: list) (b :: other) (i + 1) ↔ DifferAt key list other i := by
  unfold DifferAt
  rw [List.getElem?_cons_succ, List.getElem?_cons_succ]

theorem agreeAt_zero (a b : α) (list other : List α) :
    AgreeAt key (a :: list) (b :: other) 0 ↔ key a = key b := by
  simp [AgreeAt]

theorem differAt_zero (a b : α) (list other : List α) :
    DifferAt key (a :: list) (b :: other) 0 ↔ key a ≠ key b := by
  simp [DifferAt]

/-- A list that is over agrees nowhere. -/
theorem not_agreeAt_nil {list other : List α} (h : list = [] ∨ other = []) (i : Nat) :
    ¬AgreeAt key list other i := by
  rintro ⟨a, b, ha, hb, -⟩
  rcases h with rfl | rfl
  · exact absurd ha (by simp)
  · exact absurd hb (by simp)

/-- After a first place that agrees. -/
theorem staysDifferent_cons_agreeing {a b : α} {list other : List α} (h : key a = key b) :
    StaysDifferent key (a :: list) (b :: other) ↔ StaysDifferent key list other := by
  constructor
  · intro hstays i j hij hdiffer hagree
    exact hstays (i + 1) (j + 1) (Nat.succ_lt_succ hij) ((differAt_succ key a b list other i).mpr hdiffer)
      ((agreeAt_succ key a b list other j).mpr hagree)
  · intro hstays i j hij hdiffer hagree
    cases j with
    | zero => exact Nat.not_lt_zero i hij
    | succ j =>
        cases i with
        | zero => exact (differAt_zero key a b list other).mp hdiffer h
        | succ i =>
            exact hstays i j (Nat.lt_of_succ_lt_succ hij)
              ((differAt_succ key a b list other i).mp hdiffer)
              ((agreeAt_succ key a b list other j).mp hagree)

/-- After a first place that differs. -/
theorem staysDifferent_cons_differing {a b : α} {list other : List α} (h : key a ≠ key b) :
    StaysDifferent key (a :: list) (b :: other) ↔ ∀ i, ¬AgreeAt key list other i := by
  constructor
  · intro hstays i hagree
    exact hstays 0 (i + 1) (Nat.succ_pos i) ((differAt_zero key a b list other).mpr h)
      ((agreeAt_succ key a b list other i).mpr hagree)
  · intro hnone i j hij _ hagree
    cases j with
    | zero => exact Nat.not_lt_zero i hij
    | succ j => exact hnone j ((agreeAt_succ key a b list other j).mp hagree)

end

section

variable {α κ : Type} [DecidableEq κ] {key : α → κ}

theorem withoutAgreeing_nil_right (list : List α) : withoutAgreeing key list [] = list := by
  cases list <;> rfl

theorem withoutAgreeing_sublist (list other : List α) :
    List.Sublist (withoutAgreeing key list other) list := by
  induction list generalizing other with
  | nil => exact List.Sublist.refl _
  | cons a list ih =>
      cases other with
      | nil => exact List.Sublist.refl _
      | cons b other =>
          unfold withoutAgreeing
          split
          · exact (ih other).cons a
          · exact (ih other).cons_cons a

/-- Nothing is left out exactly if no place agrees. -/
theorem withoutAgreeing_eq_self_iff (list other : List α) :
    withoutAgreeing key list other = list ↔ ∀ i, ¬AgreeAt key list other i := by
  induction list generalizing other with
  | nil => exact iff_of_true rfl (not_agreeAt_nil key (.inl rfl))
  | cons a list ih =>
      cases other with
      | nil => exact iff_of_true rfl (not_agreeAt_nil key (.inr rfl))
      | cons b other =>
          unfold withoutAgreeing
          by_cases hkey : key a = key b
          · rw [if_pos hkey]
            refine iff_of_false (fun heq => ?_)
              (fun hnone => hnone 0 ((agreeAt_zero key a b list other).mpr hkey))
            have hlength : (withoutAgreeing key list other).length ≤ list.length :=
              (withoutAgreeing_sublist list other).length_le
            rw [heq, List.length_cons] at hlength
            exact Nat.not_succ_le_self _ hlength
          · rw [if_neg hkey, List.cons_inj_right, ih]
            constructor
            · intro hnone i hagree
              cases i with
              | zero => exact hkey ((agreeAt_zero key a b list other).mp hagree)
              | succ i => exact hnone i ((agreeAt_succ key a b list other i).mp hagree)
            · intro hnone i hagree
              exact hnone (i + 1) ((agreeAt_succ key a b list other i).mpr hagree)

/-- **What is left out is the shared prefix, unless the lists agree again.** -/
theorem withoutAgreeing_eq_drop_iff (list other : List α) :
    withoutAgreeing key list other = list.drop (sharedPrefix key list other) ↔
      StaysDifferent key list other := by
  induction list generalizing other with
  | nil => exact iff_of_true List.drop_nil.symm fun _ j _ _ => not_agreeAt_nil key (.inl rfl) j
  | cons a list ih =>
      cases other with
      | nil => exact iff_of_true rfl fun _ j _ _ => not_agreeAt_nil key (.inr rfl) j
      | cons b other =>
          unfold withoutAgreeing sharedPrefix
          by_cases hkey : key a = key b
          · rw [if_pos hkey, if_pos hkey, List.drop_succ_cons, ih,
              staysDifferent_cons_agreeing key hkey]
          · rw [if_neg hkey, if_neg hkey, List.drop_zero, List.cons_inj_right,
              withoutAgreeing_eq_self_iff, staysDifferent_cons_differing key hkey]

/-- The shared prefix ends before every difference. -/
theorem sharedPrefix_le {list other : List α} {i : Nat} (h : DifferAt key list other i) :
    sharedPrefix key list other ≤ i := by
  induction list generalizing other i with
  | nil =>
      obtain ⟨a, b, ha, -, -⟩ := h
      exact absurd ha (by simp)
  | cons a list ih =>
      cases other with
      | nil => exact Nat.zero_le i
      | cons b other =>
          unfold sharedPrefix
          by_cases hkey : key a = key b
          · rw [if_pos hkey]
            cases i with
            | zero => exact absurd hkey ((differAt_zero key a b list other).mp h)
            | succ i => exact Nat.succ_le_succ (ih ((differAt_succ key a b list other i).mp h))
          · rw [if_neg hkey]
            exact Nat.zero_le i

/-- The keys of the shared prefix are the same in both lists. -/
theorem take_sharedPrefix (list other : List α) :
    (other.take (sharedPrefix key list other)).map key =
      (list.take (sharedPrefix key list other)).map key := by
  induction list generalizing other with
  | nil => rfl
  | cons a list ih =>
      cases other with
      | nil => rfl
      | cons b other =>
          unfold sharedPrefix
          by_cases hkey : key a = key b
          · rw [if_pos hkey, List.take_succ_cons, List.take_succ_cons, List.map_cons, List.map_cons,
              ih, hkey]
          · rw [if_neg hkey]
            rfl

end

end Base.CommonPrefix
