import Conduit.Base.Base64
import Conduit.Base.Text

/-!
# Signatures in base64

The codec that wraps reasoning signatures, bit by bit as the code has it: three
bytes are a triple of 24 bits, and four symbols its sextets.
-/

namespace Conduit.Transformers.AnthropicSignature

open Base Base.Text

/-! ## Symbols -/

def b64StdAlphabet : List Char :=
  "ABCDEFGHIJKLMNOPQRSTUVWXYZabcdefghijklmnopqrstuvwxyz0123456789+/".toList

def b64DecodeChar (c : UInt8) : Option UInt8 :=
  if 65 ≤ c ∧ c ≤ 90 then some (c - 65)
  else if 97 ≤ c ∧ c ≤ 122 then some (c - 97 + 26)
  else if 48 ≤ c ∧ c ≤ 57 then some (c - 48 + 52)
  else if c = 43 then some 62
  else if c = 47 then some 63
  else none

/-- `=`. -/
def padByte : UInt8 := 61

/-- The six bits of a triple from a position on. -/
def sextet (triple : UInt32) (shift : UInt32) : UInt32 := (triple >>> shift) &&& 0x3F

def symbolAt (triple : UInt32) (shift : UInt32) : Char :=
  b64StdAlphabet.getD (sextet triple shift).toNat 'A'

/-! ## Decoding -/

/-- The padding of a text whose characters are valid and whose padding is at the
end: how much there is so far, and whether it has started. -/
def scanPadding : List UInt8 → Nat → Bool → Option Nat
  | [], padding, _ => some padding
  | b :: bytes, padding, started =>
      if b = padByte then
        if padding + 1 > 2 then none else scanPadding bytes (padding + 1) true
      else if (b64DecodeChar b).isSome then
        if started then none else scanPadding bytes padding started
      else none

/-- The byte before the padding, counted from the end, is none of it. -/
def paddedAt (bytes : List UInt8) (distance : Nat) : Bool :=
  bytes.length ≥ distance ∧ (bytes[bytes.length - distance]?).any fun b => b ≠ padByte

def paddingAtTail (bytes : List UInt8) (padding : Nat) : Bool :=
  if padding = 1 ∧ paddedAt bytes 2 then true
  else if padding = 2 ∧ paddedAt bytes 3 then true
  else padding = 0

def blockValue (b : UInt8) : Option UInt8 := if b = padByte then some 0 else b64DecodeChar b

def joinSextets (v0 v1 v2 v3 : UInt8) : UInt32 :=
  (v0.toUInt32 <<< 18) ||| (v1.toUInt32 <<< 12) ||| (v2.toUInt32 <<< 6) ||| v3.toUInt32

def byteAt (triple : UInt32) (shift : UInt32) : UInt8 := ((triple >>> shift) &&& 0xFF).toUInt8

/-- The bytes of a block, up to its padding. -/
def blockBytes (triple : UInt32) (padInBlock : Nat) : List UInt8 :=
  [byteAt triple 16] ++ (if padInBlock < 2 then [byteAt triple 8] else []) ++
    if padInBlock < 1 then [byteAt triple 0] else []

def decodeBlocks : List UInt8 → Option (List UInt8)
  | a :: b :: c :: d :: bytes => do
      let v0 ← blockValue a
      let v1 ← blockValue b
      let v2 ← blockValue c
      let v3 ← blockValue d
      let out ← decodeBlocks bytes
      return blockBytes (joinSextets v0 v1 v2 v3) ([a, b, c, d].count padByte) ++ out
  | _ => some []

def decodeBytes (bytes : List UInt8) : Option (List UInt8) :=
  if bytes.isEmpty then some []
  else if bytes.length % 4 ≠ 0 then none
  else
    (scanPadding bytes 0 false).bind fun padding =>
      if paddingAtTail bytes padding then decodeBlocks bytes else none

def b64StdDecode (input : String) : Option (List UInt8) := decodeBytes (asBytes input)

/-! ## Encoding -/

def encodeBlocks : List UInt8 → List Char
  | a :: b :: c :: bytes =>
      let triple := (a.toUInt32 <<< 16) ||| (b.toUInt32 <<< 8) ||| c.toUInt32
      symbolAt triple 18 :: symbolAt triple 12 :: symbolAt triple 6 :: symbolAt triple 0 ::
        encodeBlocks bytes
  | [a, b] =>
      let triple := (a.toUInt32 <<< 16) ||| (b.toUInt32 <<< 8)
      [symbolAt triple 18, symbolAt triple 12, symbolAt triple 6, '=']
  | [a] =>
      let triple := a.toUInt32 <<< 16
      [symbolAt triple 18, symbolAt triple 12, '=', '=']
  | [] => []

def b64StdEncode (input : List UInt8) : String := String.ofList (encodeBlocks input)

/-- Text that is base64 already stays as it is. -/
def ensureBase64Encoding (s : String) : String :=
  if (b64StdDecode s).isSome then s else b64StdEncode (asBytes s)

end Conduit.Transformers.AnthropicSignature

/-!
## The codec of signatures is sound

Three bytes and the four symbols that carry them have the same 24 bits, so
decoding undoes encoding. The scan accepts the bytes of a padded base64 text and
nothing else. An encoding is such a text, so a signature is wrapped only once.
-/

namespace Conduit.Transformers.AnthropicSignature

open Base Base.Text

/-! ## Bits -/

theorem toNat_sextet (triple : UInt32) {shift : UInt32} (h : shift.toNat < 32) :
    (sextet triple shift).toNat = triple.toNat / 2 ^ shift.toNat % 64 := by
  unfold sextet
  rw [UInt32.toNat_and, UInt32.toNat_shiftRight, Nat.mod_eq_of_lt h, Nat.shiftRight_eq_div_pow]
  exact Nat.and_two_pow_sub_one_eq_mod _ 6

theorem toNat_byteAt (triple : UInt32) {shift : UInt32} (h : shift.toNat < 32) :
    (byteAt triple shift).toNat = triple.toNat / 2 ^ shift.toNat % 256 := by
  unfold byteAt
  rw [UInt32.toNat_toUInt8, UInt32.toNat_and, UInt32.toNat_shiftRight, Nat.mod_eq_of_lt h,
    Nat.shiftRight_eq_div_pow]
  have hmask : triple.toNat / 2 ^ shift.toNat &&& (0xFF : UInt32).toNat =
      triple.toNat / 2 ^ shift.toNat % 256 := Nat.and_two_pow_sub_one_eq_mod _ 8
  rw [hmask]
  exact Nat.mod_eq_of_lt (Nat.mod_lt _ (by omega))

/-- Bits above and below a position. -/
theorem shiftLeft_or {high low : Nat} (shift : Nat) (h : low < 2 ^ shift) :
    high <<< shift ||| low = high * 2 ^ shift + low := by
  rw [← Nat.shiftLeft_add_eq_or_of_lt h, Nat.shiftLeft_eq]

theorem toNat_shiftLeft_byte (b : UInt8) {shift : UInt32} (h : shift.toNat ≤ 24) :
    (b.toUInt32 <<< shift).toNat = b.toNat <<< shift.toNat := by
  have hshift : shift.toNat % 32 = shift.toNat := Nat.mod_eq_of_lt (by omega)
  rw [UInt32.toNat_shiftLeft, UInt8.toNat_toUInt32, hshift]
  refine Nat.mod_eq_of_lt ?_
  rw [Nat.shiftLeft_eq]
  have hb : b.toNat < 2 ^ 8 := b.toNat_lt
  have hpow : 2 ^ shift.toNat ≤ 2 ^ 24 := Nat.pow_le_pow_right (by omega) h
  calc b.toNat * 2 ^ shift.toNat < 2 ^ 8 * 2 ^ shift.toNat :=
        Nat.mul_lt_mul_of_pos_right hb (Nat.two_pow_pos _)
    _ ≤ 2 ^ 8 * 2 ^ 24 := Nat.mul_le_mul_left _ hpow

theorem toNat_triple (a b c : UInt8) :
    ((a.toUInt32 <<< 16) ||| (b.toUInt32 <<< 8) ||| c.toUInt32).toNat =
      a.toNat * 65536 + b.toNat * 256 + c.toNat := by
  have hb : b.toNat < 2 ^ 8 := b.toNat_lt
  have hc : c.toNat < 2 ^ 8 := c.toNat_lt
  rw [UInt32.toNat_or, UInt32.toNat_or, toNat_shiftLeft_byte a (by decide),
    toNat_shiftLeft_byte b (by decide), UInt8.toNat_toUInt32, Nat.or_assoc]
  show a.toNat <<< 16 ||| (b.toNat <<< 8 ||| c.toNat) = _
  rw [shiftLeft_or 8 hc, shiftLeft_or 16 (by omega)]
  omega

theorem toNat_joinSextets {v0 v1 v2 v3 : UInt8} (h1 : v1.toNat < 64) (h2 : v2.toNat < 64)
    (h3 : v3.toNat < 64) :
    (joinSextets v0 v1 v2 v3).toNat =
      v0.toNat * 262144 + v1.toNat * 4096 + v2.toNat * 64 + v3.toNat := by
  unfold joinSextets
  rw [UInt32.toNat_or, UInt32.toNat_or, UInt32.toNat_or, toNat_shiftLeft_byte v0 (by decide),
    toNat_shiftLeft_byte v1 (by decide), toNat_shiftLeft_byte v2 (by decide),
    UInt8.toNat_toUInt32, Nat.or_assoc, Nat.or_assoc]
  show v0.toNat <<< 18 ||| (v1.toNat <<< 12 ||| (v2.toNat <<< 6 ||| v3.toNat)) = _
  rw [shiftLeft_or 6 (by omega), shiftLeft_or 12 (by omega), shiftLeft_or 18 (by omega)]
  omega

/-! ## Symbols and values -/

def byteOf (c : Char) : UInt8 := UInt8.ofNat c.toNat

/-- The value of a symbol of a triple. -/
def valueAt (triple : UInt32) (shift : UInt32) : UInt8 := UInt8.ofNat (sextet triple shift).toNat

theorem decode_symbol : ∀ n : Nat, n < 64 →
    b64DecodeChar (byteOf (b64StdAlphabet.getD n 'A')) = some (UInt8.ofNat n) ∧
      byteOf (b64StdAlphabet.getD n 'A') ≠ padByte := by
  decide +kernel

theorem sextet_lt (triple : UInt32) {shift : UInt32} (h : shift.toNat < 32) :
    (sextet triple shift).toNat < 64 := by
  rw [toNat_sextet triple h]
  exact Nat.mod_lt _ (by omega)

theorem decode_symbolAt (triple : UInt32) {shift : UInt32} (h : shift.toNat < 32) :
    b64DecodeChar (byteOf (symbolAt triple shift)) = some (valueAt triple shift) ∧
      byteOf (symbolAt triple shift) ≠ padByte := decode_symbol _ (sextet_lt triple h)

theorem blockValue_symbolAt (triple : UInt32) {shift : UInt32} (h : shift.toNat < 32) :
    blockValue (byteOf (symbolAt triple shift)) = some (valueAt triple shift) := by
  obtain ⟨hdecode, hpad⟩ := decode_symbolAt triple h
  rw [blockValue, if_neg hpad, hdecode]

theorem blockValue_pad : blockValue (byteOf '=') = some 0 := rfl

theorem toNat_valueAt (triple : UInt32) {shift : UInt32} (h : shift.toNat < 32) :
    (valueAt triple shift).toNat = triple.toNat / 2 ^ shift.toNat % 64 := by
  unfold valueAt
  rw [UInt8.toNat_ofNat_of_lt' (Nat.lt_trans (sextet_lt triple h) (by decide)), toNat_sextet triple h]

/-- The four sextets of a triple are the triple. -/
theorem joinSextets_valueAt {triple : UInt32} (h : triple.toNat < 16777216) :
    joinSextets (valueAt triple 18) (valueAt triple 12) (valueAt triple 6) (valueAt triple 0) =
      triple := by
  have h0 : (valueAt triple 0).toNat = triple.toNat / 1 % 64 := toNat_valueAt triple (by decide)
  have h6 : (valueAt triple 6).toNat = triple.toNat / 64 % 64 := toNat_valueAt triple (by decide)
  have h12 : (valueAt triple 12).toNat = triple.toNat / 4096 % 64 :=
    toNat_valueAt triple (by decide)
  have h18 : (valueAt triple 18).toNat = triple.toNat / 262144 % 64 :=
    toNat_valueAt triple (by decide)
  apply UInt32.toNat_inj.mp
  rw [toNat_joinSextets (by omega) (by omega) (by omega), h0, h6, h12, h18]
  omega

/-- Low bits that are not there are zero. -/
theorem valueAt_eq_zero {triple shift : UInt32} (h : shift.toNat < 32)
    (hzero : triple.toNat / 2 ^ shift.toNat % 64 = 0) : valueAt triple shift = 0 := by
  apply UInt8.toNat_inj.mp
  rw [toNat_valueAt triple h, hzero]
  rfl

/-- The bytes of a triple. -/
theorem byteAt_triple {triple : UInt32} {a b c : UInt8}
    (h : triple.toNat = a.toNat * 65536 + b.toNat * 256 + c.toNat) :
    byteAt triple 16 = a ∧ byteAt triple 8 = b ∧ byteAt triple 0 = c := by
  have ha : a.toNat < 256 := a.toNat_lt
  have hb : b.toNat < 256 := b.toNat_lt
  have hc : c.toNat < 256 := c.toNat_lt
  have h0 : (byteAt triple 0).toNat = triple.toNat / 1 % 256 := toNat_byteAt triple (by decide)
  have h8 : (byteAt triple 8).toNat = triple.toNat / 256 % 256 := toNat_byteAt triple (by decide)
  have h16 : (byteAt triple 16).toNat = triple.toNat / 65536 % 256 :=
    toNat_byteAt triple (by decide)
  refine ⟨UInt8.toNat_inj.mp ?_, UInt8.toNat_inj.mp ?_, UInt8.toNat_inj.mp ?_⟩
  · omega
  · omega
  · omega

/-! ## Blocks -/

/-- A block of symbols and padding is decoded to the bytes of its triple. -/
theorem decodeBlocks_cons {a b c d v0 v1 v2 v3 : UInt8} {bytes out : List UInt8}
    (ha : blockValue a = some v0) (hb : blockValue b = some v1) (hc : blockValue c = some v2)
    (hd : blockValue d = some v3) (hout : decodeBlocks bytes = some out) :
    decodeBlocks (a :: b :: c :: d :: bytes) =
      some (blockBytes (joinSextets v0 v1 v2 v3) ([a, b, c, d].count padByte) ++ out) := by
  rw [decodeBlocks, ha, hb, hc, hd, hout]
  rfl

theorem toNat_triple_lt (a b c : UInt8) : a.toNat * 65536 + b.toNat * 256 + c.toNat < 16777216 := by
  have ha : a.toNat < 256 := a.toNat_lt
  have hb : b.toNat < 256 := b.toNat_lt
  have hc : c.toNat < 256 := c.toNat_lt
  omega

theorem toNat_single (a : UInt8) : (a.toUInt32 <<< 16).toNat = a.toNat * 65536 := by
  rw [toNat_shiftLeft_byte a (by decide)]
  exact Nat.shiftLeft_eq _ 16

theorem toNat_pair (a b : UInt8) :
    ((a.toUInt32 <<< 16) ||| (b.toUInt32 <<< 8)).toNat = a.toNat * 65536 + b.toNat * 256 := by
  have hb : b.toNat < 2 ^ 8 := b.toNat_lt
  rw [UInt32.toNat_or, toNat_shiftLeft_byte a (by decide), toNat_shiftLeft_byte b (by decide)]
  show a.toNat <<< 16 ||| b.toNat <<< 8 = _
  have hshift : b.toNat <<< 8 = b.toNat * 256 := Nat.shiftLeft_eq _ 8
  rw [hshift, shiftLeft_or 16 (by omega)]
  omega

theorem count_cons_symbol (triple : UInt32) {shift : UInt32} (h : shift.toNat < 32)
    (bytes : List UInt8) :
    (byteOf (symbolAt triple shift) :: bytes).count padByte = bytes.count padByte :=
  List.count_cons_of_ne (decode_symbolAt triple h).2

/-- **The blocks of an encoding are its bytes.** -/
theorem decodeBlocks_encodeBlocks (input : List UInt8) :
    decodeBlocks ((encodeBlocks input).map byteOf) = some input := by
  induction input using encodeBlocks.induct with
  | case1 a b c bytes ih =>
      obtain ⟨triple, htriple⟩ :
          ∃ t : UInt32, t = (a.toUInt32 <<< 16) ||| (b.toUInt32 <<< 8) ||| c.toUInt32 := ⟨_, rfl⟩
      have hnat : triple.toNat = a.toNat * 65536 + b.toNat * 256 + c.toNat := by
        rw [htriple, toNat_triple]
      have hlt : triple.toNat < 16777216 := hnat ▸ toNat_triple_lt a b c
      obtain ⟨h16, h8, h0⟩ := byteAt_triple hnat
      rw [encodeBlocks, ← htriple]
      simp only [List.map_cons]
      rw [decodeBlocks_cons (blockValue_symbolAt triple (by decide))
        (blockValue_symbolAt triple (by decide)) (blockValue_symbolAt triple (by decide))
        (blockValue_symbolAt triple (by decide)) ih, joinSextets_valueAt hlt]
      rw [count_cons_symbol triple (by decide), count_cons_symbol triple (by decide),
        count_cons_symbol triple (by decide), count_cons_symbol triple (by decide),
        List.count_nil, blockBytes, if_pos (by decide), if_pos (by decide), h16, h8, h0]
      rfl
  | case2 a b =>
      obtain ⟨triple, htriple⟩ :
          ∃ t : UInt32, t = (a.toUInt32 <<< 16) ||| (b.toUInt32 <<< 8) := ⟨_, rfl⟩
      have hnat : triple.toNat = a.toNat * 65536 + b.toNat * 256 + (0 : UInt8).toNat := by
        rw [htriple, toNat_pair, UInt8.toNat_zero, Nat.add_zero]
      have hlt : triple.toNat < 16777216 := hnat ▸ toNat_triple_lt a b 0
      have hzero : valueAt triple 0 = 0 :=
        valueAt_eq_zero (by decide) (by rw [htriple, toNat_pair]; show _ / 1 % 64 = 0; omega)
      obtain ⟨h16, h8, -⟩ := byteAt_triple hnat
      have hjoin := joinSextets_valueAt hlt
      rw [hzero] at hjoin
      rw [encodeBlocks, ← htriple]
      simp only [List.map_cons, List.map_nil]
      rw [decodeBlocks_cons (blockValue_symbolAt triple (by decide))
        (blockValue_symbolAt triple (by decide)) (blockValue_symbolAt triple (by decide))
        blockValue_pad rfl, hjoin, count_cons_symbol triple (by decide),
        count_cons_symbol triple (by decide), count_cons_symbol triple (by decide)]
      rw [show [byteOf '='].count padByte = 1 from rfl, blockBytes, if_pos (by decide),
        if_neg (by decide), h16, h8]
      rfl
  | case3 a =>
      obtain ⟨triple, htriple⟩ : ∃ t : UInt32, t = a.toUInt32 <<< 16 := ⟨_, rfl⟩
      have hnat : triple.toNat =
          a.toNat * 65536 + (0 : UInt8).toNat * 256 + (0 : UInt8).toNat := by
        rw [htriple, toNat_single, UInt8.toNat_zero, Nat.zero_mul, Nat.add_zero]
      have hlt : triple.toNat < 16777216 := hnat ▸ toNat_triple_lt a 0 0
      have hzero : valueAt triple 0 = 0 :=
        valueAt_eq_zero (by decide) (by rw [htriple, toNat_single]; show _ / 1 % 64 = 0; omega)
      have hsix : valueAt triple 6 = 0 :=
        valueAt_eq_zero (by decide) (by rw [htriple, toNat_single]; show _ / 64 % 64 = 0; omega)
      obtain ⟨h16, -, -⟩ := byteAt_triple hnat
      have hjoin := joinSextets_valueAt hlt
      rw [hzero, hsix] at hjoin
      rw [encodeBlocks, ← htriple]
      simp only [List.map_cons, List.map_nil]
      rw [decodeBlocks_cons (blockValue_symbolAt triple (by decide))
        (blockValue_symbolAt triple (by decide)) blockValue_pad blockValue_pad rfl, hjoin,
        count_cons_symbol triple (by decide), count_cons_symbol triple (by decide)]
      rw [show [byteOf '=', byteOf '='].count padByte = 2 from rfl, blockBytes, if_neg (by decide),
        if_neg (by decide), h16]
      rfl
  | case4 => rfl

/-! ## Padding -/

/-- A byte of the alphabet. -/
def IsSymbol (b : UInt8) : Prop := (b64DecodeChar b).isSome = true

theorem isSymbol_ne_pad {b : UInt8} (h : IsSymbol b) : b ≠ padByte := by
  rintro rfl
  exact absurd h (by unfold IsSymbol; decide)

/-- Once padding has started, all is padding. -/
theorem scanPadding_started {bytes : List UInt8} {padding n : Nat} (h : padding ≤ 2) :
    scanPadding bytes padding true = some n ↔
      padding ≤ n ∧ n ≤ 2 ∧ bytes = List.replicate (n - padding) padByte := by
  induction bytes generalizing padding with
  | nil =>
      rw [scanPadding, Option.some_inj]
      constructor
      · rintro rfl
        exact ⟨le_rfl, h, by rw [Nat.sub_self]; rfl⟩
      · rintro ⟨hle, -, hnil⟩
        have hlength := congrArg List.length hnil
        rw [List.length_replicate, List.length_nil] at hlength
        omega
  | cons b bytes ih =>
      rw [scanPadding]
      by_cases hpad : b = padByte
      · rw [if_pos hpad]
        by_cases hmany : padding + 1 > 2
        · rw [if_pos hmany]
          refine iff_of_false (by simp) ?_
          rintro ⟨hle, hn, hbytes⟩
          rw [show n - padding = 0 by omega] at hbytes
          exact absurd hbytes (by simp)
        · rw [if_neg hmany, ih (by omega)]
          constructor
          · rintro ⟨hle, hn, hbytes⟩
            refine ⟨by omega, hn, ?_⟩
            rw [show n - padding = n - (padding + 1) + 1 by omega, List.replicate_succ, ← hbytes, hpad]
          · rintro ⟨hle, hn, hbytes⟩
            have hpositive : n - padding ≠ 0 := by
              intro hzero
              rw [hzero] at hbytes
              exact absurd hbytes (by simp)
            rw [show n - padding = n - (padding + 1) + 1 by omega, List.replicate_succ] at hbytes
            exact ⟨by omega, hn, (List.cons.inj hbytes).2⟩
      · rw [if_neg hpad]
        have hnone : (if (b64DecodeChar b).isSome = true then
            if true = true then none else scanPadding bytes padding true else none) = none := by
          split <;> rfl
        rw [hnone]
        refine iff_of_false (by simp) ?_
        rintro ⟨hle, hn, hbytes⟩
        have hmem : b ∈ List.replicate (n - padding) padByte := by
          rw [← hbytes]
          exact List.mem_cons_self
        exact hpad (List.eq_of_mem_replicate hmem)

/-- Symbols, then padding. -/
theorem scanPadding_eq_some {bytes : List UInt8} {n : Nat} :
    scanPadding bytes 0 false = some n ↔
      n ≤ 2 ∧ ∃ body, bytes = body ++ List.replicate n padByte ∧ ∀ b ∈ body, IsSymbol b := by
  induction bytes with
  | nil =>
      rw [scanPadding, Option.some_inj]
      constructor
      · rintro rfl
        exact ⟨Nat.zero_le 2, [], rfl, by simp⟩
      · rintro ⟨-, body, hbytes, -⟩
        have hlength := congrArg List.length hbytes
        rw [List.length_append, List.length_replicate, List.length_nil] at hlength
        omega
  | cons b bytes ih =>
      rw [scanPadding]
      by_cases hpad : b = padByte
      · rw [if_pos hpad, if_neg (by omega), scanPadding_started (by omega)]
        constructor
        · rintro ⟨hone, htwo, hbytes⟩
          refine ⟨htwo, [], ?_, by simp⟩
          rw [List.nil_append, hbytes, hpad, ← List.replicate_succ, Nat.zero_add,
            Nat.sub_add_cancel hone]
        · rintro ⟨htwo, body, hbytes, hbody⟩
          cases body with
          | nil =>
              rw [List.nil_append] at hbytes
              have hlength := congrArg List.length hbytes
              rw [List.length_replicate, List.length_cons] at hlength
              rw [← hlength, List.replicate_succ] at hbytes
              exact ⟨by omega, htwo, by rw [(List.cons.inj hbytes).2]; congr 1; omega⟩
          | cons b' body =>
              rw [List.cons_append] at hbytes
              have hsymbol := hbody b' List.mem_cons_self
              rw [← (List.cons.inj hbytes).1] at hsymbol
              exact absurd hpad (isSymbol_ne_pad hsymbol)
      · rw [if_neg hpad]
        by_cases hsymbol : (b64DecodeChar b).isSome = true
        · rw [if_pos hsymbol, if_neg (by simp), ih]
          constructor
          · rintro ⟨htwo, body, hbytes, hbody⟩
            exact ⟨htwo, b :: body, by rw [hbytes]; rfl, by simpa using ⟨hsymbol, hbody⟩⟩
          · rintro ⟨htwo, body, hbytes, hbody⟩
            cases body with
            | nil =>
                have hmem : b ∈ List.replicate n padByte := by
                  rw [List.nil_append] at hbytes
                  rw [← hbytes]
                  exact List.mem_cons_self
                exact absurd (List.eq_of_mem_replicate hmem) hpad
            | cons b' body =>
                rw [List.cons_append] at hbytes
                exact ⟨htwo, body, (List.cons.inj hbytes).2,
                  fun other hmem => hbody other (List.mem_cons_of_mem _ hmem)⟩
        · rw [if_neg hsymbol]
          refine iff_of_false (by simp) ?_
          rintro ⟨htwo, body, hbytes, hbody⟩
          cases body with
          | nil =>
              have hmem : b ∈ List.replicate n padByte := by
                rw [List.nil_append] at hbytes
                rw [← hbytes]
                exact List.mem_cons_self
              exact hpad (List.eq_of_mem_replicate hmem)
          | cons b' body =>
              rw [List.cons_append] at hbytes
              have hb := hbody b' List.mem_cons_self
              rw [← (List.cons.inj hbytes).1] at hb
              exact hsymbol hb

theorem paddedAt_body (init : List UInt8) {b : UInt8} (h : b ≠ padByte) (n : Nat) :
    paddedAt (init ++ [b] ++ List.replicate n padByte) (n + 1) = true := by
  have hlength : (init ++ [b] ++ List.replicate n padByte).length = init.length + (n + 1) := by
    simp only [List.length_append, List.length_singleton, List.length_replicate]
    omega
  have hget : (init ++ [b] ++ List.replicate n padByte)[init.length]? = some b := by
    rw [List.append_assoc, List.getElem?_append_right le_rfl, Nat.sub_self]
    rfl
  unfold paddedAt
  rw [hlength, Nat.add_sub_cancel, hget]
  simpa using h

/-- The second test of the code only repeats the first. -/
theorem paddingAtTail_body {body : List UInt8} {n : Nat} (hn : n ≤ 2)
    (hbody : ∀ b ∈ body, IsSymbol b)
    (hlength : (body ++ List.replicate n padByte).length % 4 = 0) :
    paddingAtTail (body ++ List.replicate n padByte) n = true := by
  rw [List.length_append, List.length_replicate] at hlength
  have hcases : n = 0 ∨ body ≠ [] := by
    by_contra hnot
    rw [not_or, not_not] at hnot
    rw [hnot.2, List.length_nil] at hlength
    omega
  rcases hcases with rfl | hne
  · simp [paddingAtTail]
  · obtain ⟨init, b, rfl⟩ := List.eq_nil_or_concat' body |>.resolve_left hne
    have hpad : b ≠ padByte := isSymbol_ne_pad (hbody b (by simp))
    unfold paddingAtTail
    interval_cases n
    · simp
    · rw [if_pos ⟨rfl, paddedAt_body init hpad 1⟩]
    · rw [if_neg (by simp), if_pos ⟨rfl, paddedAt_body init hpad 2⟩]

/-! ## What is accepted -/

theorem blockValue_isSome {b : UInt8} (h : IsSymbol b) : ∃ v, blockValue b = some v := by
  obtain ⟨v, hv⟩ := Option.isSome_iff_exists.mp h
  exact ⟨v, by rw [blockValue, if_neg (isSymbol_ne_pad h), hv]⟩

theorem decodeBlocks_isSome {bytes : List UInt8} (h : PaddedGroups IsSymbol padByte bytes) :
    ∃ out, decodeBlocks bytes = some out := by
  induction h with
  | nil => exact ⟨[], rfl⟩
  | group a b c d rest ha hb hc hd _ ih =>
      obtain ⟨v0, h0⟩ := blockValue_isSome ha
      obtain ⟨v1, h1⟩ := blockValue_isSome hb
      obtain ⟨v2, h2⟩ := blockValue_isSome hc
      obtain ⟨v3, h3⟩ := blockValue_isSome hd
      obtain ⟨out, hout⟩ := ih
      exact ⟨_, decodeBlocks_cons h0 h1 h2 h3 hout⟩
  | three a b c ha hb hc =>
      obtain ⟨v0, h0⟩ := blockValue_isSome ha
      obtain ⟨v1, h1⟩ := blockValue_isSome hb
      obtain ⟨v2, h2⟩ := blockValue_isSome hc
      exact ⟨_, decodeBlocks_cons h0 h1 h2 blockValue_pad rfl⟩
  | two a b ha hb =>
      obtain ⟨v0, h0⟩ := blockValue_isSome ha
      obtain ⟨v1, h1⟩ := blockValue_isSome hb
      exact ⟨_, decodeBlocks_cons h0 h1 blockValue_pad blockValue_pad rfl⟩

/-- The scan lets padded groups through. -/
theorem decodeBytes_of_padded {bytes : List UInt8} (h : PaddedGroups IsSymbol padByte bytes) :
    decodeBytes bytes = decodeBlocks bytes := by
  unfold decodeBytes
  by_cases hempty : bytes.isEmpty = true
  · rw [if_pos hempty, List.isEmpty_iff.mp hempty]
    rfl
  · obtain ⟨hlength, body, n, hbytes, hn, hbody⟩ := PaddedGroups.iff_body.mp h
    have hscan : scanPadding bytes 0 false = some n := scanPadding_eq_some.mpr ⟨hn, body, hbytes, hbody⟩
    have htail : paddingAtTail bytes n = true := by
      rw [hbytes] at hlength ⊢
      exact paddingAtTail_body hn hbody hlength
    rw [if_neg hempty, if_neg (by simpa using hlength), hscan, Option.bind_some, if_pos htail]

theorem decodeBytes_isSome_iff (bytes : List UInt8) :
    (decodeBytes bytes).isSome = true ↔ PaddedGroups IsSymbol padByte bytes := by
  constructor
  · intro h
    unfold decodeBytes at h
    by_cases hempty : bytes.isEmpty = true
    · rw [List.isEmpty_iff.mp hempty]
      exact .nil
    rw [if_neg hempty] at h
    by_cases hlength : bytes.length % 4 ≠ 0
    · rw [if_pos hlength] at h
      exact absurd h (by simp)
    rw [if_neg hlength] at h
    cases hscan : scanPadding bytes 0 false with
    | none =>
        rw [hscan] at h
        exact absurd h (by simp)
    | some n =>
        obtain ⟨hn, body, hbytes, hbody⟩ := scanPadding_eq_some.mp hscan
        exact PaddedGroups.iff_body.mpr ⟨not_not.mp hlength, body, n, hbytes, hn, hbody⟩
  · intro h
    obtain ⟨out, hout⟩ := decodeBlocks_isSome h
    rw [decodeBytes_of_padded h, hout]
    rfl

/-! ## Texts -/

/-- A byte as a character. -/
def charOf (b : UInt8) : Char := Char.ofNat b.toNat

theorem charOf_byteOf {c : Char} (h : c.toNat < 128) : charOf (byteOf c) = c := by
  unfold charOf byteOf
  rw [UInt8.toNat_ofNat_of_lt' (Nat.lt_trans h (by decide)), Char.ofNat_toNat]

theorem symbol_of_byte : ∀ n : Nat, n < 256 →
    (b64DecodeChar (UInt8.ofNat n)).isSome = true → n < 128 ∧ Char.ofNat n ∈ Base64.alphabet := by
  decide +kernel

theorem ascii_symbol : ∀ n : Nat, n < 64 → (b64StdAlphabet.getD n 'A').toNat < 128 := by
  decide +kernel

theorem byte_of_symbol (c : Char) (h : c ∈ Base64.alphabet) :
    c.toNat < 128 ∧ (b64DecodeChar (byteOf c)).isSome = true := by
  obtain ⟨n, hn, hget⟩ := List.mem_iff_getElem.mp h
  have hlength : Base64.alphabet.length = 64 := by decide
  have hc : b64StdAlphabet.getD n 'A' = c := by
    rw [← hget]
    exact List.getD_eq_getElem _ _ hn
  rw [hlength] at hn
  rw [← hc, (decode_symbol n hn).1]
  exact ⟨ascii_symbol n hn, rfl⟩

theorem isSymbol_byteOf (c : Char) (h : c ∈ Base64.alphabet) : IsSymbol (byteOf c) :=
  (byte_of_symbol c h).2

theorem symbol_charOf {b : UInt8} (h : IsSymbol b) :
    b.toNat < 128 ∧ charOf b ∈ Base64.alphabet := by
  refine symbol_of_byte b.toNat b.toNat_lt ?_
  rw [UInt8.ofNat_toNat]
  exact h

/-- An ASCII character is its byte; any other has only larger bytes. -/
theorem utf8EncodeChar_cases (c : Char) :
    (c.toNat < 128 ∧ String.utf8EncodeChar c = [byteOf c]) ∨
      ∃ b ∈ String.utf8EncodeChar c, 128 ≤ b.toNat := by
  unfold String.utf8EncodeChar
  dsimp only
  by_cases hone : c.val.toNat ≤ 0x7F
  · rw [if_pos hone]
    exact .inl ⟨Nat.lt_succ_of_le hone, rfl⟩
  · rw [if_neg hone]
    right
    have hlarge : ∀ n : Nat, n < 0x40 → 128 ≤ (UInt8.ofNat (n + 0x80)).toNat := by
      intro n hn
      rw [UInt8.toNat_ofNat_of_lt' (show n + 0x80 < 256 by omega)]
      omega
    have hlast : 128 ≤ (UInt8.ofNat (c.val.toNat % 0x40 + 0x80)).toNat :=
      hlarge _ (Nat.mod_lt _ (by omega))
    split_ifs
    · exact ⟨_, by simp, hlast⟩
    · exact ⟨_, by simp, hlast⟩
    · exact ⟨_, by simp, hlast⟩

/-- The characters of bytes that are all ASCII. -/
theorem toList_of_ascii {text : List Char}
    (h : ∀ b ∈ text.flatMap String.utf8EncodeChar, b.toNat < 128) :
    text = (text.flatMap String.utf8EncodeChar).map charOf := by
  induction text with
  | nil => rfl
  | cons c text ih =>
      rw [List.flatMap_cons] at h ⊢
      rcases utf8EncodeChar_cases c with ⟨hascii, hbytes⟩ | ⟨b, hmem, hlarge⟩
      · rw [hbytes, List.map_append, List.map_singleton, charOf_byteOf hascii,
          ← ih fun b hmem => h b (List.mem_append_right _ hmem)]
        rfl
      · exact absurd (h b (List.mem_append_left _ hmem)) (by omega)

theorem flatMap_of_ascii {text : List Char} (h : ∀ c ∈ text, c.toNat < 128) :
    text.flatMap String.utf8EncodeChar = text.map byteOf := by
  induction text with
  | nil => rfl
  | cons c text ih =>
      rw [List.flatMap_cons, List.map_cons, ih fun other hmem => h other (List.mem_cons_of_mem _ hmem)]
      have hascii : c.val.toNat ≤ 0x7F := Nat.le_of_lt_succ (h c List.mem_cons_self)
      have hbytes : String.utf8EncodeChar c = [byteOf c] := by
        unfold String.utf8EncodeChar
        dsimp only
        rw [if_pos hascii]
        rfl
      rw [hbytes]
      rfl

/-- Padded base64 text: groups of four of the standard alphabet. -/
def IsBase64 (text : List Char) : Prop := PaddedGroups (· ∈ Base64.alphabet) '=' text

theorem mem_of_padded {α : Type} {symbol : α → Prop} {pad a : α} {list : List α}
    (h : PaddedGroups symbol pad list) (hmem : a ∈ list) : symbol a ∨ a = pad := by
  obtain ⟨body, n, rfl, -, hbody⟩ := h.exists_body
  rcases List.mem_append.mp hmem with hleft | hright
  · exact .inl (hbody a hleft)
  · exact .inr (List.eq_of_mem_replicate hright)

theorem isBase64_ascii {text : List Char} (h : IsBase64 text) : ∀ c ∈ text, c.toNat < 128 := by
  intro c hmem
  rcases mem_of_padded h hmem with hsymbol | rfl
  · exact (byte_of_symbol c hsymbol).1
  · decide

/-- **The decoder accepts padded base64 and nothing else.** -/
theorem decode_isSome_iff (s : String) : (b64StdDecode s).isSome = true ↔ IsBase64 s.toList := by
  unfold b64StdDecode
  rw [decodeBytes_isSome_iff]
  constructor
  · intro h
    have hascii : ∀ b ∈ asBytes s, b.toNat < 128 := by
      intro b hmem
      rcases mem_of_padded h hmem with hsymbol | rfl
      · exact (symbol_charOf hsymbol).1
      · decide
    unfold IsBase64
    rw [toList_of_ascii hascii]
    exact h.map (fun b hb => (symbol_charOf hb).2) rfl
  · intro h
    unfold asBytes
    rw [flatMap_of_ascii (isBase64_ascii h)]
    exact h.map isSymbol_byteOf rfl

/-! ## Encodings -/

theorem symbol_mem : ∀ n : Nat, n < 64 → b64StdAlphabet.getD n 'A' ∈ Base64.alphabet := by
  decide

theorem symbolAt_mem (triple : UInt32) {shift : UInt32} (h : shift.toNat < 32) :
    symbolAt triple shift ∈ Base64.alphabet := symbol_mem _ (sextet_lt triple h)

theorem isBase64_encodeBlocks (input : List UInt8) : IsBase64 (encodeBlocks input) := by
  induction input using encodeBlocks.induct with
  | case1 a b c bytes ih =>
      rw [encodeBlocks]
      exact .group _ _ _ _ _ (symbolAt_mem _ (by decide)) (symbolAt_mem _ (by decide))
        (symbolAt_mem _ (by decide)) (symbolAt_mem _ (by decide)) ih
  | case2 a b =>
      rw [encodeBlocks]
      exact .three _ _ _ (symbolAt_mem _ (by decide)) (symbolAt_mem _ (by decide))
        (symbolAt_mem _ (by decide))
  | case3 a =>
      rw [encodeBlocks]
      exact .two _ _ (symbolAt_mem _ (by decide)) (symbolAt_mem _ (by decide))
  | case4 => exact .nil

/-- Decoding undoes encoding. -/
theorem decode_encode (input : List UInt8) : b64StdDecode (b64StdEncode input) = some input := by
  have hbase : IsBase64 (encodeBlocks input) := isBase64_encodeBlocks input
  have hbytes : asBytes (b64StdEncode input) = (encodeBlocks input).map byteOf := by
    unfold asBytes b64StdEncode
    rw [String.toList_ofList, flatMap_of_ascii (isBase64_ascii hbase)]
  have hpadded : PaddedGroups IsSymbol padByte ((encodeBlocks input).map byteOf) :=
    hbase.map isSymbol_byteOf rfl
  rw [b64StdDecode, hbytes, decodeBytes_of_padded hpadded, decodeBlocks_encodeBlocks]

/-! ## Wrapping -/

theorem decode_ensure (s : String) : (b64StdDecode (ensureBase64Encoding s)).isSome = true := by
  unfold ensureBase64Encoding
  by_cases h : (b64StdDecode s).isSome = true
  · rw [if_pos h]
    exact h
  · rw [if_neg h, decode_encode]
    rfl

theorem ensure_ensure (s : String) :
    ensureBase64Encoding (ensureBase64Encoding s) = ensureBase64Encoding s := if_pos (decode_ensure s)

/-- Wrapping again and again. -/
theorem iterate_ensure (s : String) (n : Nat) :
    Nat.iterate ensureBase64Encoding (n + 1) s = ensureBase64Encoding s := by
  induction n with
  | zero => rfl
  | succ n ih => rw [Function.iterate_succ_apply', ih, ensure_ensure]

/-! ## The wrapped signatures of the streams -/

theorem pad_not_mem : '=' ∉ Base64.alphabet := by decide

/-- The body of a padded text is what comes before the padding. -/
theorem takeWhile_body {body : List Char} (h : ∀ c ∈ body, c ∈ Base64.alphabet) (n : Nat) :
    (body ++ List.replicate n '=').takeWhile (fun c => decide (c ∈ Base64.alphabet)) = body := by
  rw [List.takeWhile_append_of_pos fun c hmem => decide_eq_true (h c hmem)]
  cases n with
  | zero => exact List.append_nil body
  | succ n =>
      rw [List.replicate_succ, List.takeWhile_cons_of_neg (by simpa using pad_not_mem),
        List.append_nil]

theorem isValid_iff (text : List Char) : Base64.isValid text = true ↔ IsBase64 text := by
  unfold Base64.isValid IsBase64
  rw [PaddedGroups.iff_body]
  simp only [Bool.and_eq_true, Bool.or_eq_true, decide_eq_true_eq]
  constructor
  · rintro ⟨hlength, hbody⟩
    have hall : ∀ c ∈ text.takeWhile (fun c => decide (c ∈ Base64.alphabet)), c ∈ Base64.alphabet :=
      by
      intro c hmem
      have htest := List.mem_takeWhile_imp hmem
      exact of_decide_eq_true htest
    refine ⟨hlength, text.takeWhile (fun c => decide (c ∈ Base64.alphabet)), ?_⟩
    rcases hbody with (hnone | hone) | htwo
    · exact ⟨0, hnone.trans (List.append_nil _).symm, by omega, hall⟩
    · exact ⟨1, hone, by omega, hall⟩
    · exact ⟨2, htwo, by omega, hall⟩
  · rintro ⟨hlength, body, n, rfl, hn, hbody⟩
    refine ⟨hlength, ?_⟩
    rw [takeWhile_body hbody n]
    interval_cases n
    · exact .inl (.inl (List.append_nil body))
    · exact .inl (.inr rfl)
    · exact .inr rfl

theorem symbolAt_eq_digit {triple shift : UInt32} {n : Nat} (h : shift.toNat < 32)
    (hn : triple.toNat / 2 ^ shift.toNat % 64 = n % 64) : symbolAt triple shift = Base64.digit n := by
  unfold symbolAt Base64.digit
  rw [toNat_sextet triple h, hn]
  rfl

/-- The symbols of a triple, from its bytes. -/
theorem symbols_triple {triple : UInt32} {a b c : UInt8}
    (h : triple.toNat = a.toNat * 65536 + b.toNat * 256 + c.toNat) :
    symbolAt triple 18 = Base64.digit (a.toNat / 4) ∧
      symbolAt triple 12 = Base64.digit (a.toNat * 16 + b.toNat / 16) ∧
      symbolAt triple 6 = Base64.digit (b.toNat * 4 + c.toNat / 64) ∧
      symbolAt triple 0 = Base64.digit c.toNat := by
  have hb : b.toNat < 256 := b.toNat_lt
  have hc : c.toNat < 256 := c.toNat_lt
  have h18 : triple.toNat / 262144 % 64 = a.toNat / 4 % 64 := by omega
  have h12 : triple.toNat / 4096 % 64 = (a.toNat * 16 + b.toNat / 16) % 64 := by omega
  have h6 : triple.toNat / 64 % 64 = (b.toNat * 4 + c.toNat / 64) % 64 := by omega
  have h0 : triple.toNat / 1 % 64 = c.toNat % 64 := by omega
  exact ⟨symbolAt_eq_digit (by decide) h18, symbolAt_eq_digit (by decide) h12,
    symbolAt_eq_digit (by decide) h6, symbolAt_eq_digit (by decide) h0⟩

theorem encodeBlocks_eq (input : List UInt8) : encodeBlocks input = Base64.encode input := by
  induction input using encodeBlocks.induct with
  | case1 a b c bytes ih =>
      obtain ⟨h18, h12, h6, h0⟩ := symbols_triple (toNat_triple a b c)
      rw [encodeBlocks, Base64.encode, ih, h18, h12, h6, h0]
  | case2 a b =>
      have hnat : ((a.toUInt32 <<< 16) ||| (b.toUInt32 <<< 8)).toNat =
          a.toNat * 65536 + b.toNat * 256 + (0 : UInt8).toNat := by
        rw [toNat_pair, UInt8.toNat_zero, Nat.add_zero]
      obtain ⟨h18, h12, h6, -⟩ := symbols_triple hnat
      rw [UInt8.toNat_zero, Nat.zero_div, Nat.add_zero] at h6
      rw [encodeBlocks, Base64.encode, h18, h12, h6]
  | case3 a =>
      have hnat : (a.toUInt32 <<< 16).toNat =
          a.toNat * 65536 + (0 : UInt8).toNat * 256 + (0 : UInt8).toNat := by
        rw [toNat_single, UInt8.toNat_zero, Nat.zero_mul, Nat.add_zero]
      obtain ⟨h18, h12, -, -⟩ := symbols_triple hnat
      rw [UInt8.toNat_zero, Nat.zero_div, Nat.add_zero] at h12
      rw [encodeBlocks, Base64.encode, h18, h12]
  | case4 => rfl

/-- The streams wrap signatures with this codec. -/
theorem ensureBase64Encoding_eq (s : String) : ensureBase64Encoding s = Base64.ensureEncoded s := by
  unfold ensureBase64Encoding Base64.ensureEncoded b64StdEncode
  have hvalid : (b64StdDecode s).isSome = true ↔ Base64.isValid s.toList = true := by
    rw [decode_isSome_iff, isValid_iff]
  rw [encodeBlocks_eq]
  by_cases h : (b64StdDecode s).isSome = true
  · rw [if_pos h, if_pos (hvalid.mp h)]
  · rw [if_neg h, if_neg fun hv => h (hvalid.mpr hv)]

/-- **The codec is sound.** -/
theorem base64_codec_sound :
    (∀ x : List UInt8, b64StdDecode (b64StdEncode x) = some x) ∧
      (∀ s : String, (b64StdDecode s).isSome = true ↔ IsBase64 s.toList) ∧
        ∀ s : String, (b64StdDecode (ensureBase64Encoding s)).isSome = true ∧
          ensureBase64Encoding (ensureBase64Encoding s) = ensureBase64Encoding s ∧
            ∀ n : Nat, Nat.iterate ensureBase64Encoding (n + 1) s = ensureBase64Encoding s :=
  ⟨decode_encode, decode_isSome_iff, fun s => ⟨decode_ensure s, ensure_ensure s, iterate_ensure s⟩⟩

end Conduit.Transformers.AnthropicSignature
