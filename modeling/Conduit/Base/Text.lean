import Mathlib.Data.List.Basic

/-!
# Text

The operations of Rust's `str` that have no counterpart with the same
behaviour: white space is Unicode's, case is ignored for ASCII only, splitting
is at the first occurrence, and decoding replaces what is not UTF-8.
-/

namespace Base.Text

/-- `char::is_whitespace`. -/
def isWhitespace (c : Char) : Bool :=
  [0x9, 0xA, 0xB, 0xC, 0xD, 0x20, 0x85, 0xA0, 0x1680, 0x2000, 0x2001, 0x2002, 0x2003, 0x2004,
    0x2005, 0x2006, 0x2007, 0x2008, 0x2009, 0x200A, 0x2028, 0x2029, 0x202F, 0x205F, 0x3000].contains
    c.toNat

def trimEnd (drop : Char → Bool) (text : List Char) : List Char :=
  (text.reverse.dropWhile drop).reverse

/-- `str::trim` as characters. -/
def trimmed (text : String) : List Char :=
  trimEnd isWhitespace (text.toList.dropWhile isWhitespace)

/-- Trimming starts after a character that is kept. -/
theorem trimEnd_cons {drop : Char → Bool} {c : Char} (h : drop c = false) (text : List Char) :
    trimEnd drop (c :: text) = c :: trimEnd drop text := by
  unfold trimEnd
  rw [List.reverse_cons, List.dropWhile_append]
  by_cases hall : (text.reverse.dropWhile drop).isEmpty
  · rw [if_pos hall, List.isEmpty_iff.mp hall, List.dropWhile_cons_of_neg (by simpa using h)]
    rfl
  · rw [if_neg hall, List.reverse_append]
    rfl

/-- Text that starts with a character that is no white space keeps it. -/
theorem trimmed_cons {c : Char} (h : isWhitespace c = false) {text : String} {rest : List Char}
    (htext : text.toList = c :: rest) : trimmed text = c :: trimEnd isWhitespace rest := by
  unfold trimmed
  rw [htext, List.dropWhile_cons_of_neg (by simpa using h), trimEnd_cons h]

/-- `str::trim`. -/
def trim (text : String) : String := String.ofList (trimmed text)

/-- `str::trim_end_matches` with a character. -/
def trimEndMatches (c : Char) (text : String) : String :=
  String.ofList (trimEnd (· == c) text.toList)

/-- `eq_ignore_ascii_case`. -/
def eqIgnoreAsciiCase (a b : String) : Bool :=
  a.toList.map Char.toLower = b.toList.map Char.toLower

/-- `str::starts_with` with a string. -/
def startsWith (text pattern : String) : Bool := pattern.toList.isPrefixOf text.toList

/-- `str::ends_with` with a string. -/
def endsWith (text pattern : String) : Bool := pattern.toList.isSuffixOf text.toList

/-- `str::strip_suffix`. -/
def stripSuffix (text pattern : String) : Option String :=
  if endsWith text pattern then
    some (String.ofList (text.toList.take (text.toList.length - pattern.toList.length)))
  else none

/-- What is before and after the first occurrence of a pattern. -/
def splitAtFirst (pattern : List Char) : List Char → Option (List Char × List Char)
  | [] => if pattern = [] then some ([], []) else none
  | c :: text =>
      if pattern.isPrefixOf (c :: text) then some ([], (c :: text).drop pattern.length)
      else (splitAtFirst pattern text).map fun parts => (c :: parts.1, parts.2)

/-- `str::split_once`. -/
def splitOnce (pattern text : String) : Option (String × String) :=
  (splitAtFirst pattern.toList text.toList).map fun parts =>
    (String.ofList parts.1, String.ofList parts.2)

example : splitOnce "://" "https://a/b" = some ("https", "a/b") := by decide

/-- `str::split` with a character. -/
def splitOn (c : Char) (text : String) : List String :=
  (text.toList.splitOn c).map String.ofList

/-- `join` with a character. -/
def joinWith (c : Char) (texts : List String) : String := (String.singleton c).intercalate texts

/-- Splitting undoes a join up to the separators the parts had themselves. -/
theorem splitOn_joinWith (c : Char) {texts : List String} (h : texts ≠ []) :
    splitOn c (joinWith c texts) = texts.flatMap (splitOn c) := by
  induction texts with
  | nil => exact absurd rfl h
  | cons text texts ih =>
      cases texts with
      | nil => simp [joinWith]
      | cons next rest =>
          have hrest := ih (List.cons_ne_nil _ _)
          have hjoin : (joinWith c (text :: next :: rest)).toList =
              text.toList ++ c :: (joinWith c (next :: rest)).toList := by
            simp [joinWith]
          rw [List.flatMap_cons, ← hrest]
          unfold splitOn
          rw [hjoin, List.splitOn_append_cons_self, List.map_append]

/-- The parts of a split are made of its characters, without the separator. -/
theorem mem_splitOn {c : Char} {text : List Char} {part : List Char} (h : part ∈ text.splitOn c) :
    ∀ d ∈ part, d ∈ text ∧ d ≠ c := by
  induction text generalizing part with
  | nil =>
      intro d hd
      rw [List.splitOn_nil, List.mem_singleton] at h
      exact absurd hd (by simp [h])
  | cons e text ih =>
      intro d hd
      rw [List.splitOn_cons_eq_if_modifyHead] at h
      by_cases he : (e == c) = true
      · rw [if_pos he] at h
        rcases List.mem_cons.mp h with rfl | h
        · exact absurd hd List.not_mem_nil
        · exact ⟨List.mem_cons_of_mem _ (ih h d hd).1, (ih h d hd).2⟩
      · rw [if_neg he] at h
        cases hsplit : text.splitOn c with
        | nil => exact absurd hsplit (List.splitOn_ne_nil c text)
        | cons first rest =>
            rw [hsplit, List.modifyHead_cons] at h
            rcases List.mem_cons.mp h with rfl | h
            · rcases List.mem_cons.mp hd with rfl | hd
              · exact ⟨List.mem_cons_self, by simpa using he⟩
              · have hfirst := ih (hsplit ▸ List.mem_cons_self) d hd
                exact ⟨List.mem_cons_of_mem _ hfirst.1, hfirst.2⟩
            · have hrest := ih (hsplit ▸ List.mem_cons_of_mem _ h) d hd
              exact ⟨List.mem_cons_of_mem _ hrest.1, hrest.2⟩

theorem joinWith_splitOn (c : Char) (text : String) : joinWith c (splitOn c text) = text := by
  unfold joinWith splitOn
  rw [← String.toList_inj, String.toList_intercalate, List.map_map]
  simp [Function.comp_def]

/-- Parts without the separator are read back from their join. -/
theorem splitOn_joinWith_of_not_mem {c : Char} {texts : List String} (h : texts ≠ [])
    (hnot : ∀ text ∈ texts, c ∉ text.toList) : splitOn c (joinWith c texts) = texts := by
  have hparts : ∀ text ∈ texts, splitOn c text = [text] := by
    intro text htext
    unfold splitOn
    rw [List.splitOn_eq_singleton (hnot text htext)]
    simp
  rw [splitOn_joinWith c h, List.flatMap_congr hparts]
  simp

/-- A join is empty only when its one part is. -/
theorem joinWith_eq_empty (c : Char) {texts : List String} (h : texts ≠ []) :
    joinWith c texts = "" ↔ texts = [""] := by
  constructor
  · intro hempty
    cases texts with
    | nil => exact absurd rfl h
    | cons text rest =>
        cases rest with
        | nil => simpa [joinWith] using hempty
        | cons next rest =>
            have hchars : (joinWith c (text :: next :: rest)).toList = [] := by rw [hempty]; rfl
            simp [joinWith] at hchars
  · intro htexts
    rw [htexts]
    simp [joinWith]

/-! ## Bytes -/

/-- `str::as_bytes`. -/
def asBytes (text : String) : List UInt8 := text.toList.flatMap String.utf8EncodeChar

/-- An incomplete character: how many bytes it lacks, in which range the next
one must be, and the bits so far. -/
structure Pending where
  needed : Nat
  lower : UInt8
  upper : UInt8
  value : Nat

def replacement : Char := Char.ofNat 0xFFFD

/-- The first byte of a character. -/
def firstByte (b : UInt8) : Char ⊕ Pending :=
  if b < 0x80 then .inl (Char.ofNat b.toNat)
  else if 0xC2 ≤ b ∧ b ≤ 0xDF then .inr ⟨1, 0x80, 0xBF, b.toNat % 32⟩
  else if 0xE0 ≤ b ∧ b ≤ 0xEF then
    .inr ⟨2, if b = 0xE0 then 0xA0 else 0x80, if b = 0xED then 0x9F else 0xBF, b.toNat % 16⟩
  else if 0xF0 ≤ b ∧ b ≤ 0xF4 then
    .inr ⟨3, if b = 0xF0 then 0x90 else 0x80, if b = 0xF4 then 0x8F else 0xBF, b.toNat % 8⟩
  else .inl replacement

/-- An incomplete character is replaced as a whole, and the byte that cut it
off is read again as a first byte. -/
def decodeLossy : Option Pending → List UInt8 → List Char
  | none, [] => []
  | some _, [] => [replacement]
  | none, b :: bytes =>
      match firstByte b with
      | .inl c => c :: decodeLossy none bytes
      | .inr pending => decodeLossy (some pending) bytes
  | some pending, b :: bytes =>
      if pending.lower ≤ b ∧ b ≤ pending.upper then
        let value := pending.value * 64 + b.toNat % 64
        if pending.needed = 1 then Char.ofNat value :: decodeLossy none bytes
        else decodeLossy (some ⟨pending.needed - 1, 0x80, 0xBF, value⟩) bytes
      else
        replacement :: match firstByte b with
          | .inl c => c :: decodeLossy none bytes
          | .inr pending => decodeLossy (some pending) bytes

/-- `String::from_utf8_lossy`. -/
def fromUtf8Lossy (bytes : List UInt8) : String := String.ofList (decodeLossy none bytes)

example : fromUtf8Lossy (asBytes "aé€😀" ++ [0xE2, 0x82, 0x41]) = "aé€😀�A" := by decide

end Base.Text
