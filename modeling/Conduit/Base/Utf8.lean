import Conduit.Base.Text
import Mathlib

/-!
# Decoding what was encoded

The lossy decoder replaces nothing in the bytes of a string. It reads the bytes
of a character back as that character, by the four lengths of an encoding.
-/

namespace Base.Text

/-! ## Single bytes -/

theorem toNat_ofNat {n : Nat} (h : n < 256) : (UInt8.ofNat n).toNat = n :=
  UInt8.toNat_ofNat_of_lt' h

/-- The ranges of a first byte, as numbers. -/
theorem firstByte_ofNat {n : Nat} (h : n < 256) :
    firstByte (UInt8.ofNat n) =
      if n < 0x80 then .inl (Char.ofNat n)
      else if 0xC2 ≤ n ∧ n ≤ 0xDF then .inr ⟨1, 0x80, 0xBF, n % 32⟩
      else if 0xE0 ≤ n ∧ n ≤ 0xEF then
        .inr ⟨2, if n = 0xE0 then 0xA0 else 0x80, if n = 0xED then 0x9F else 0xBF, n % 16⟩
      else if 0xF0 ≤ n ∧ n ≤ 0xF4 then
        .inr ⟨3, if n = 0xF0 then 0x90 else 0x80, if n = 0xF4 then 0x8F else 0xBF, n % 8⟩
      else .inl replacement := by
  simp only [firstByte, UInt8.lt_iff_toNat_lt, UInt8.le_iff_toNat_le, ← UInt8.toNat_inj,
    toNat_ofNat h, UInt8.reduceToNat]

/-- A continuation byte in its range. -/
theorem decodeLossy_next {needed value n : Nat} {lower upper : UInt8} (h : n < 256)
    (hlower : lower.toNat ≤ n) (hupper : n ≤ upper.toNat) (rest : List UInt8) :
    decodeLossy (some ⟨needed, lower, upper, value⟩) (UInt8.ofNat n :: rest) =
      if needed = 1 then Char.ofNat (value * 64 + n % 64) :: decodeLossy none rest
      else decodeLossy (some ⟨needed - 1, 0x80, 0xBF, value * 64 + n % 64⟩) rest := by
  have hin : lower ≤ UInt8.ofNat n ∧ UInt8.ofNat n ≤ upper := by
    rw [UInt8.le_iff_toNat_le, UInt8.le_iff_toNat_le, toNat_ofNat h]
    exact ⟨hlower, hupper⟩
  rw [decodeLossy, if_pos hin, toNat_ofNat h]

/-- A byte that continues a character where any continuation may stand. -/
theorem decodeLossy_continue {needed value n : Nat} (h : n < 0x40) (rest : List UInt8) :
    decodeLossy (some ⟨needed, 0x80, 0xBF, value⟩) (UInt8.ofNat (n + 0x80) :: rest) =
      if needed = 1 then Char.ofNat (value * 64 + n) :: decodeLossy none rest
      else decodeLossy (some ⟨needed - 1, 0x80, 0xBF, value * 64 + n⟩) rest := by
  have hlow : (n + 0x80) % 64 = n := by omega
  have hlower : (0x80 : UInt8).toNat ≤ n + 0x80 := Nat.le_add_left _ n
  have hupper : n + 0x80 ≤ (0xBF : UInt8).toNat := by
    show n + 0x80 ≤ 0xBF
    omega
  rw [decodeLossy_next (by omega) hlower hupper, hlow]

/-! ## Characters and strings -/

theorem decodeLossy_encodeChar (c : Char) (rest : List UInt8) :
    decodeLossy none (String.utf8EncodeChar c ++ rest) = c :: decodeLossy none rest := by
  obtain ⟨v, hv⟩ : ∃ v, c.val.toNat = v := ⟨_, rfl⟩
  have hchar : Char.ofNat v = c := by rw [← hv]; exact Char.ofNat_toNat c
  have hvalid : v < 0xD800 ∨ (0xDFFF < v ∧ v < 0x110000) := by
    rw [← hv]
    exact c.valid
  unfold String.utf8EncodeChar
  dsimp only
  rw [hv]
  by_cases hone : v ≤ 0x7F
  · rw [if_pos hone]
    show decodeLossy none (UInt8.ofNat v :: rest) = _
    rw [decodeLossy, firstByte_ofNat (by omega), if_pos (by omega), hchar]
  · rw [if_neg hone]
    by_cases htwo : v ≤ 0x7FF
    · rw [if_pos htwo]
      show decodeLossy none (UInt8.ofNat (v / 64 % 0x20 + 0xC0) ::
        UInt8.ofNat (v % 0x40 + 0x80) :: rest) = _
      rw [decodeLossy, firstByte_ofNat (by omega), if_neg (by omega), if_pos (by omega)]
      dsimp only
      rw [decodeLossy_continue (by omega), if_pos rfl]
      have hvalue : (v / 64 % 0x20 + 0xC0) % 32 * 64 + v % 64 = v := by omega
      rw [hvalue, hchar]
    · rw [if_neg htwo]
      by_cases hthree : v ≤ 0xFFFF
      · rw [if_pos hthree]
        show decodeLossy none (UInt8.ofNat (v / 4096 % 0x10 + 0xE0) ::
          UInt8.ofNat (v / 64 % 0x40 + 0x80) :: UInt8.ofNat (v % 0x40 + 0x80) :: rest) = _
        rw [decodeLossy, firstByte_ofNat (by omega), if_neg (by omega), if_neg (by omega),
          if_pos (by omega)]
        dsimp only
        -- the shortest form and no surrogate
        have hlower : (if v / 4096 % 0x10 + 0xE0 = 0xE0 then (0xA0 : UInt8) else 0x80).toNat ≤
            v / 64 % 0x40 + 0x80 := by
          by_cases h : v / 4096 % 0x10 + 0xE0 = 0xE0
          · rw [if_pos h]
            show 0xA0 ≤ _
            omega
          · rw [if_neg h]
            exact Nat.le_add_left _ _
        have hupper : v / 64 % 0x40 + 0x80 ≤
            (if v / 4096 % 0x10 + 0xE0 = 0xED then (0x9F : UInt8) else 0xBF).toNat := by
          by_cases h : v / 4096 % 0x10 + 0xE0 = 0xED
          · rw [if_pos h]
            show _ ≤ 0x9F
            omega
          · rw [if_neg h]
            show _ ≤ 0xBF
            omega
        rw [decodeLossy_next (by omega) hlower hupper, if_neg (by decide),
          decodeLossy_continue (by omega), if_pos rfl]
        have hvalue : ((v / 4096 % 0x10 + 0xE0) % 16 * 64 + (v / 64 % 0x40 + 0x80) % 64) * 64 +
            v % 64 = v := by omega
        rw [hvalue, hchar]
      · rw [if_neg hthree]
        show decodeLossy none (UInt8.ofNat (v / 262144 % 0x08 + 0xF0) ::
          UInt8.ofNat (v / 4096 % 0x40 + 0x80) :: UInt8.ofNat (v / 64 % 0x40 + 0x80) ::
            UInt8.ofNat (v % 0x40 + 0x80) :: rest) = _
        rw [decodeLossy, firstByte_ofNat (by omega), if_neg (by omega), if_neg (by omega),
          if_neg (by omega), if_pos (by omega)]
        dsimp only
        have hlower : (if v / 262144 % 0x08 + 0xF0 = 0xF0 then (0x90 : UInt8) else 0x80).toNat ≤
            v / 4096 % 0x40 + 0x80 := by
          by_cases h : v / 262144 % 0x08 + 0xF0 = 0xF0
          · rw [if_pos h]
            show 0x90 ≤ _
            omega
          · rw [if_neg h]
            exact Nat.le_add_left _ _
        have hupper : v / 4096 % 0x40 + 0x80 ≤
            (if v / 262144 % 0x08 + 0xF0 = 0xF4 then (0x8F : UInt8) else 0xBF).toNat := by
          by_cases h : v / 262144 % 0x08 + 0xF0 = 0xF4
          · rw [if_pos h]
            show _ ≤ 0x8F
            omega
          · rw [if_neg h]
            show _ ≤ 0xBF
            omega
        rw [decodeLossy_next (by omega) hlower hupper, if_neg (by decide),
          decodeLossy_continue (by omega), if_neg (by decide),
          decodeLossy_continue (by omega), if_pos rfl]
        have hvalue : (((v / 262144 % 0x08 + 0xF0) % 8 * 64 + (v / 4096 % 0x40 + 0x80) % 64) * 64 +
            v / 64 % 64) * 64 + v % 64 = v := by omega
        rw [hvalue, hchar]

theorem decodeLossy_flatMap (text : List Char) :
    decodeLossy none (text.flatMap String.utf8EncodeChar) = text := by
  induction text with
  | nil => rfl
  | cons c text ih => rw [List.flatMap_cons, decodeLossy_encodeChar, ih]

/-- Decoding the bytes of a string gives it back. -/
theorem fromUtf8Lossy_asBytes (text : String) : fromUtf8Lossy (asBytes text) = text := by
  unfold fromUtf8Lossy asBytes
  rw [decodeLossy_flatMap, String.ofList_toList]

theorem asBytes_append (a b : String) : asBytes (a ++ b) = asBytes a ++ asBytes b := by
  unfold asBytes
  rw [String.toList_append, List.flatMap_append]

/-- An ASCII byte is in an encoding only as that character. -/
theorem mem_encodeChar_ascii {c : Char} {b : UInt8} (hb : b.toNat < 0x80)
    (h : b ∈ String.utf8EncodeChar c) : c.toNat = b.toNat ∧ String.utf8EncodeChar c = [b] := by
  unfold String.utf8EncodeChar at h ⊢
  dsimp only at h ⊢
  by_cases hone : c.val.toNat ≤ 0x7F
  · rw [if_pos hone] at h ⊢
    rw [List.mem_singleton.mp h]
    exact ⟨(toNat_ofNat (show c.val.toNat < 256 by omega)).symm, rfl⟩
  · rw [if_neg hone] at h
    by_cases htwo : c.val.toNat ≤ 0x7FF
    · rw [if_pos htwo] at h
      simp only [List.mem_cons, List.not_mem_nil, or_false] at h
      rcases h with rfl | rfl
      · rw [toNat_ofNat (by omega)] at hb
        omega
      · rw [toNat_ofNat (by omega)] at hb
        omega
    · rw [if_neg htwo] at h
      by_cases hthree : c.val.toNat ≤ 0xFFFF
      · rw [if_pos hthree] at h
        simp only [List.mem_cons, List.not_mem_nil, or_false] at h
        rcases h with rfl | rfl | rfl
        · rw [toNat_ofNat (by omega)] at hb
          omega
        · rw [toNat_ofNat (by omega)] at hb
          omega
        · rw [toNat_ofNat (by omega)] at hb
          omega
      · rw [if_neg hthree] at h
        simp only [List.mem_cons, List.not_mem_nil, or_false] at h
        rcases h with rfl | rfl | rfl | rfl
        · rw [toNat_ofNat (by omega)] at hb
          omega
        · rw [toNat_ofNat (by omega)] at hb
          omega
        · rw [toNat_ofNat (by omega)] at hb
          omega
        · rw [toNat_ofNat (by omega)] at hb
          omega

end Base.Text
