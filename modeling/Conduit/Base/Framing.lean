import Mathlib.Data.List.Basic

/-!
# Self-delimiting encodings

An encoding is self-delimiting on a set of values if no code is the start of
another one, whatever follows it. Codes of lists of one length, written one
after the other, can then be read back.
-/

namespace Base

variable {α β : Type}

/-- The code of a value of `P` tells where it ends. -/
def SelfDelimiting (P : α → Prop) (code : α → List β) : Prop :=
  ∀ a b : α, P a → P b → ∀ rest rest' : List β, code a ++ rest = code b ++ rest' → a = b ∧ rest = rest'

namespace SelfDelimiting

variable {P : α → Prop} {code : α → List β}

/-- What follows the codes of two lists of one length is read back with them. -/
theorem flatMap (h : SelfDelimiting P code) : ∀ l l' : List α, l.length = l'.length →
    (∀ a ∈ l, P a) → (∀ a ∈ l', P a) → ∀ rest rest' : List β,
      l.flatMap code ++ rest = l'.flatMap code ++ rest' → l = l' ∧ rest = rest' := by
  intro l
  induction l with
  | nil =>
      intro l' hlength _ _ rest rest' heq
      obtain rfl := List.length_eq_zero_iff.mp hlength.symm
      exact ⟨rfl, heq⟩
  | cons a l ih =>
      intro l' hlength hl hl' rest rest' heq
      cases l' with
      | nil => exact absurd hlength (by simp)
      | cons b l' =>
          rw [List.flatMap_cons, List.flatMap_cons, List.append_assoc, List.append_assoc] at heq
          obtain ⟨rfl, htail⟩ := h a b (hl a List.mem_cons_self) (hl' b List.mem_cons_self) _ _ heq
          obtain ⟨rfl, hrest⟩ := ih l' (by simpa using hlength)
            (fun c hc => hl c (List.mem_cons_of_mem _ hc))
            (fun c hc => hl' c (List.mem_cons_of_mem _ hc)) rest rest' htail
          exact ⟨rfl, hrest⟩

/-- A body behind its length is self-delimiting where the length is. -/
theorem lengthPrefixed {size : Nat → List β} {bound : Nat}
    (hsize : SelfDelimiting (fun n => n < bound) size) {body : α → List β}
    (hbody : ∀ a b : α, P a → P b → body a = body b → a = b)
    (hbound : ∀ a : α, P a → (body a).length < bound) :
    SelfDelimiting P fun a => size (body a).length ++ body a := by
  intro a b ha hb rest rest' heq
  rw [List.append_assoc, List.append_assoc] at heq
  obtain ⟨hlength, htail⟩ := hsize _ _ (hbound a ha) (hbound b hb) _ _ heq
  obtain ⟨hsame, hrest⟩ := List.append_inj htail hlength
  exact ⟨hbody a b ha hb hsame, hrest⟩

/-- A code that ends with a mark of its own is self-delimiting. -/
theorem terminated {mark : β} {body : α → List β}
    (hbody : ∀ a b : α, P a → P b → body a = body b → a = b)
    (hmark : ∀ a : α, P a → mark ∉ body a) :
    SelfDelimiting P fun a => body a ++ [mark] := by
  have key : ∀ l l' rest rest' : List β, mark ∉ l → mark ∉ l' →
      l ++ mark :: rest = l' ++ mark :: rest' → l = l' ∧ rest = rest' := by
    intro l
    induction l with
    | nil =>
        intro l' rest rest' _ hl' heq
        cases l' with
        | nil => exact ⟨rfl, (List.cons.inj heq).2⟩
        | cons b l' => exact absurd (List.cons.inj heq).1 fun hb => hl' (hb ▸ List.mem_cons_self)
    | cons a l ih =>
        intro l' rest rest' hl hl' heq
        cases l' with
        | nil => exact absurd (List.cons.inj heq).1 fun ha => hl (ha ▸ List.mem_cons_self)
        | cons b l' =>
            obtain ⟨hhead, htail⟩ := List.cons.inj heq
            obtain ⟨hsame, hrest⟩ := ih l' rest rest' (fun h => hl (List.mem_cons_of_mem _ h))
              (fun h => hl' (List.mem_cons_of_mem _ h)) htail
            exact ⟨by rw [hhead, hsame], hrest⟩
  intro a b ha hb rest rest' heq
  rw [List.append_assoc, List.append_assoc] at heq
  obtain ⟨hsame, hrest⟩ := key _ _ _ _ (hmark a ha) (hmark b hb) heq
  exact ⟨hbody a b ha hb hsame, hrest⟩

end SelfDelimiting

end Base
