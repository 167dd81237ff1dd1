import Mathlib.Data.List.Basic

/-!
# Integers from text

`str::parse` at an integer type: an optional sign, at least one decimal digit
and nothing else, in the range of the type.
-/

namespace Base.ParseInt

def decimal (digits : List Char) : Option Nat :=
  if digits ≠ [] ∧ digits.all Char.isDigit then
    some (digits.foldl (fun value c => 10 * value + (c.toNat - '0'.toNat)) 0)
  else none

/-- An unsigned type with `size` values. -/
def parseUnsigned (size : Nat) (text : String) : Option Nat :=
  (decimal (match text.toList with
    | '+' :: digits => digits
    | digits => digits)).filter fun value => value < size

/-- An index: a number that does not fit a `usize` is out of range of every
list, so that its type has no bound here. -/
def parseIndex (text : String) : Option Nat :=
  decimal (match text.toList with
    | '+' :: digits => digits
    | digits => digits)

/-- The index written for a number is that number. -/
theorem parseIndex_toString (n : Nat) : parseIndex (toString n) = some n := by
  have hdigits : ∀ c ∈ Nat.toDigits 10 n, c.isDigit = true :=
    fun c hc => Nat.isDigit_of_mem_toDigits (by decide) (by decide) hc
  have htext : (toString n).toList = Nat.toDigits 10 n := Nat.toList_repr
  have hsign : (match Nat.toDigits 10 n with
      | '+' :: digits => digits
      | digits => digits) = Nat.toDigits 10 n := by
    split
    · next digits heq =>
        have hplus := hdigits '+' (heq ▸ List.mem_cons_self)
        exact absurd hplus (by decide)
    · rfl
  unfold parseIndex
  rw [htext, hsign]
  unfold decimal
  rw [if_pos ⟨Nat.toDigits_ne_nil, List.all_eq_true.mpr hdigits⟩]
  exact congrArg some Nat.ofDigitChars_ten_toDigits

/-- A signed type whose values are `-half` to `half - 1`. -/
def parseSigned (half : Nat) (text : String) : Option Int :=
  match text.toList with
  | '-' :: digits => ((decimal digits).filter fun value => value ≤ half).map fun value => -(value : Int)
  | _ => (parseUnsigned half text).map fun value => (value : Int)

example : parseUnsigned 256 "+12" = some 12 := by decide

example : parseSigned 128 "-128" = some (-128) ∧ parseSigned 128 "128" = none := by decide

end Base.ParseInt
