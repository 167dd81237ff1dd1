import Conduit.Base.Text
import Mathlib

/-!
# Groups of four with padding

A list of symbols in groups of four, whose last group may end in one or two
padding symbols. It is the same as a list of symbols followed by at most two
padding symbols whose length is a multiple of four.
-/

namespace Base

/-- Groups of four symbols; the last may hold two or three and be padded. -/
inductive PaddedGroups {α : Type} (symbol : α → Prop) (pad : α) : List α → Prop
  | nil : PaddedGroups symbol pad []
  | group (a b c d : α) (rest : List α) (ha : symbol a) (hb : symbol b) (hc : symbol c)
      (hd : symbol d) (hrest : PaddedGroups symbol pad rest) :
      PaddedGroups symbol pad (a :: b :: c :: d :: rest)
  | three (a b c : α) (ha : symbol a) (hb : symbol b) (hc : symbol c) :
      PaddedGroups symbol pad [a, b, c, pad]
  | two (a b : α) (ha : symbol a) (hb : symbol b) : PaddedGroups symbol pad [a, b, pad, pad]

namespace PaddedGroups

variable {α β : Type} {symbol : α → Prop} {pad : α}

/-- Other symbols in their places. -/
theorem map {symbol' : β → Prop} {pad' : β} {f : α → β}
    (hsymbol : ∀ a : α, symbol a → symbol' (f a))
    (hpad : f pad = pad') {list : List α} (h : PaddedGroups symbol pad list) :
    PaddedGroups symbol' pad' (list.map f) := by
  induction h with
  | nil => exact .nil
  | group a b c d rest ha hb hc hd _ ih =>
      exact .group _ _ _ _ _ (hsymbol a ha) (hsymbol b hb) (hsymbol c hc) (hsymbol d hd) ih
  | three a b c ha hb hc =>
      rw [← hpad]
      exact .three _ _ _ (hsymbol a ha) (hsymbol b hb) (hsymbol c hc)
  | two a b ha hb =>
      rw [← hpad]
      exact .two _ _ (hsymbol a ha) (hsymbol b hb)

theorem length_mod {list : List α} (h : PaddedGroups symbol pad list) : list.length % 4 = 0 := by
  induction h with
  | nil => rfl
  | group a b c d rest _ _ _ _ _ ih =>
      simp only [List.length_cons]
      omega
  | three a b c => simp
  | two a b => simp

/-- The symbols first, then the padding. -/
theorem exists_body {list : List α} (h : PaddedGroups symbol pad list) :
    ∃ body k, list = body ++ List.replicate k pad ∧ k ≤ 2 ∧ ∀ a ∈ body, symbol a := by
  induction h with
  | nil => exact ⟨[], 0, rfl, Nat.zero_le 2, by simp⟩
  | group a b c d rest ha hb hc hd _ ih =>
      obtain ⟨body, k, hlist, hk, hbody⟩ := ih
      refine ⟨a :: b :: c :: d :: body, k, by rw [hlist]; rfl, hk, ?_⟩
      simpa using ⟨ha, hb, hc, hd, hbody⟩
  | three a b c ha hb hc => exact ⟨[a, b, c], 1, rfl, by omega, by simpa using ⟨ha, hb, hc⟩⟩
  | two a b ha hb => exact ⟨[a, b], 2, rfl, le_rfl, by simpa using ⟨ha, hb⟩⟩

/-- The length says how the last group is filled. -/
theorem of_body (body : List α) (k : Nat) (hk : k ≤ 2) (hbody : ∀ a ∈ body, symbol a)
    (hlength : (body ++ List.replicate k pad).length % 4 = 0) :
    PaddedGroups symbol pad (body ++ List.replicate k pad) := by
  rw [List.length_append, List.length_replicate] at hlength
  match body with
  | [] =>
      have hzero : k = 0 := by
        rw [List.length_nil] at hlength
        omega
      rw [hzero]
      exact .nil
  | [a] =>
      rw [List.length_singleton] at hlength
      omega
  | [a, b] =>
      have htwo : k = 2 := by
        simp only [List.length_cons, List.length_nil] at hlength
        omega
      rw [htwo]
      simp only [List.forall_mem_cons] at hbody
      exact .two a b hbody.1 hbody.2.1
  | [a, b, c] =>
      have hone : k = 1 := by
        simp only [List.length_cons, List.length_nil] at hlength
        omega
      rw [hone]
      simp only [List.forall_mem_cons] at hbody
      exact .three a b c hbody.1 hbody.2.1 hbody.2.2.1
  | a :: b :: c :: d :: rest =>
      simp only [List.forall_mem_cons] at hbody
      obtain ⟨ha, hb, hc, hd, hrest⟩ := hbody
      simp only [List.length_cons] at hlength
      refine .group a b c d _ ha hb hc hd (of_body rest k hk hrest ?_)
      rw [List.length_append, List.length_replicate]
      omega

theorem iff_body {list : List α} :
    PaddedGroups symbol pad list ↔ list.length % 4 = 0 ∧
      ∃ body k, list = body ++ List.replicate k pad ∧ k ≤ 2 ∧ ∀ a ∈ body, symbol a := by
  constructor
  · intro h
    exact ⟨h.length_mod, h.exists_body⟩
  · rintro ⟨hlength, body, k, rfl, hk, hbody⟩
    exact of_body body k hk hbody hlength

end PaddedGroups

end Base

/-!
## Base64

The standard alphabet with padding.
-/

namespace Base.Base64

def alphabet : List Char :=
  "ABCDEFGHIJKLMNOPQRSTUVWXYZabcdefghijklmnopqrstuvwxyz0123456789+/".toList

def digit (n : Nat) : Char := alphabet.getD (n % 64) 'A'

/-- Groups of four characters of the alphabet, of which up to two at the end
may be padding. -/
def isValid (text : List Char) : Bool :=
  let body := text.takeWhile fun c => c ∈ alphabet
  text.length % 4 = 0 &&
    (text = body || text = body ++ ['='] || text = body ++ ['=', '='])

def encode : List UInt8 → List Char
  | [] => []
  | [a] => [digit (a.toNat / 4), digit (a.toNat * 16), '=', '=']
  | [a, b] =>
      [digit (a.toNat / 4), digit (a.toNat * 16 + b.toNat / 16), digit (b.toNat * 4), '=']
  | a :: b :: c :: bytes =>
      digit (a.toNat / 4) :: digit (a.toNat * 16 + b.toNat / 16) ::
        digit (b.toNat * 4 + c.toNat / 64) :: digit c.toNat :: encode bytes

/-- Text that is valid stays as it is. -/
def ensureEncoded (text : String) : String :=
  if isValid text.toList then text else String.ofList (encode (Text.asBytes text))

example : ensureEncoded "sig!" = "c2lnIQ==" ∧ ensureEncoded "c2lnIQ==" = "c2lnIQ==" := by
  decide

end Base.Base64
