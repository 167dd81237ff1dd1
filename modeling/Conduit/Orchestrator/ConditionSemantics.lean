import Conduit.Base.Formula
import Conduit.Orchestrator.Condition
import Mathlib

/-!
# What a condition means

A condition tree is an and/or tree over its leaves. `evaluate` checks every
leaf and then reads the tree, and it is false where a check fails. What no
check looks at is the range of a `daily_time` leaf: a text that is no
`HH:mm-HH:mm` range is within no time, so `not_within` holds of it at any time.
-/

namespace Conduit.Orchestrator

open Base Base.ParseInt Base.Text
open Pipeline (JsonValue)

/-! ## The standard reading -/

/-- A time of the day. -/
structure DailyClock where
  hour : Fin 24
  minute : Fin 60
deriving DecidableEq, Repr

def twoDigits (n : Nat) : List Char := [Nat.digitChar (n / 10), Nat.digitChar (n % 10)]

namespace DailyClock

/-- `HH:mm`. -/
def text (clock : DailyClock) : List Char :=
  twoDigits clock.hour ++ ':' :: twoDigits clock.minute

def minutes (clock : DailyClock) : Int := clock.hour.val * 60 + clock.minute.val

end DailyClock

structure DailyRange where
  start : DailyClock
  finish : DailyClock
deriving DecidableEq, Repr

namespace DailyRange

/-- `HH:mm-HH:mm`. -/
def text (range : DailyRange) : String :=
  String.ofList (range.start.text ++ '-' :: range.finish.text)

/-- From the start up to the finish, over midnight where that comes first. -/
def Contains (range : DailyRange) (now : Int) : Prop :=
  if range.start.minutes ≤ range.finish.minutes then
    range.start.minutes ≤ now ∧ now < range.finish.minutes
  else range.start.minutes ≤ now ∨ now < range.finish.minutes

end DailyRange

/-- The time is within a range written as `HH:mm-HH:mm`. -/
def WithinRange (text : String) (now : Int) : Prop :=
  ∃ range : DailyRange, text = range.text ∧ range.Contains now

inductive SameValue (reader : ValueReader) : JsonValue → JsonValue → Prop
  | number (a e : String) : reader.asF64 a = reader.asF64 e →
      SameValue reader (.number a) (.number e)
  | string (text : String) : SameValue reader (.string text) (.string text)
  | bool (value : Bool) : SameValue reader (.bool value) (.bool value)

/-- Numbers in a relation. -/
def Ordered (reader : ValueReader) (r : ℚ → ℚ → Prop) (actual expected : JsonValue) : Prop :=
  ∃ a e : String, actual = .number a ∧ expected = .number e ∧ r (reader.asF64 a) (reader.asF64 e)

def Compares (reader : ValueReader) (op : Operator) (actual expected : JsonValue) : Prop :=
  match op with
  | .lt => Ordered reader (· < ·) actual expected
  | .lte => Ordered reader (· ≤ ·) actual expected
  | .gt => Ordered reader (· > ·) actual expected
  | .gte => Ordered reader (· ≥ ·) actual expected
  | .eq => SameValue reader actual expected
  | .ne => ¬ SameValue reader actual expected

def IsDailyTime (leaf : Condition) : Prop := eqIgnoreAsciiCase (trim leaf.field) "daily_time" = true

instance (leaf : Condition) : Decidable (IsDailyTime leaf) :=
  inferInstanceAs (Decidable (_ = true))

/-- The reading of a leaf, for a reading of the ranges. -/
def LeafHolds (reader : ValueReader) (data : JsonValue) (within : String → Int → Prop)
    (leaf : Condition) : Prop :=
  if IsDailyTime leaf then
    ∃ (range : String) (now : Int) (inside : Bool), leaf.value = some (.string range) ∧
      nowMinutes reader data = some now ∧ normalizeDailyOperator leaf.operator = some inside ∧
      (within range now ↔ inside = true)
  else
    ∃ (actual expected : JsonValue) (op : Operator),
      getField data (trim leaf.field) = some actual ∧ leaf.value = some expected ∧
      normalizeOperator leaf.operator = some op ∧ Compares reader op actual expected

mutual

/-- The tree as a formula over its leaves; a group without children holds. -/
def formula (top : Bool) : Condition → Formula Condition
  | ⟨type, logic, conditions, field, operator, value⟩ =>
      match classify type top with
      | .leaf => .atom ⟨type, logic, conditions, field, operator, value⟩
      | .group =>
          if conditions.isEmpty then .all []
          else if isOr logic then .any (formulas conditions) else .all (formulas conditions)

def formulas : List Condition → List (Formula Condition)
  | [] => []
  | child :: rest => formula false child :: formulas rest

end

/-- The leaves of a tree, as `classify` finds them. -/
def leaves (tree : Condition) : List Condition := (formula true tree).atoms

/-- The boolean reading of a tree. -/
def Reading (reader : ValueReader) (data : JsonValue) (within : String → Int → Prop)
    (tree : Condition) : Prop :=
  (formula true tree).Holds (LeafHolds reader data within)

/-! ## Well-formed leaves -/

/-- What the check of a leaf asks for. -/
def Checked (leaf : Condition) : Prop :=
  trim leaf.field ≠ "" ∧
    if IsDailyTime leaf then leaf.value.isSome = true ∧ (normalizeDailyOperator leaf.operator).isSome
    else (∃ value : JsonValue, leaf.value = some value ∧ isLiteralValue value = true) ∧
      (normalizeOperator leaf.operator).isSome

/-- A daily time has a range, written as such. -/
def RangeWritten (leaf : Condition) : Prop :=
  IsDailyTime leaf → ∃ range : DailyRange, leaf.value = some (.string range.text)

structure WellFormed (leaf : Condition) : Prop where
  checked : Checked leaf
  range : RangeWritten leaf

/-- The evaluation is the standard reading of a well-formed tree, and false of any other. -/
def FailsClosed (reader : ValueReader) (data : JsonValue) (tree : Condition) : Prop :=
  ((∀ leaf ∈ leaves tree, WellFormed leaf) →
      (evaluate reader tree data = true ↔ Reading reader data WithinRange tree)) ∧
    ((∃ leaf ∈ leaves tree, ¬ WellFormed leaf) → evaluate reader tree data = false)

/-! ## A written range is read as it stands -/

theorem trimmed_of_visible {text : String} (h : ∀ c ∈ text.toList, isWhitespace c = false) :
    trimmed text = text.toList := by
  have hkeep : ∀ {chars : List Char}, (∀ c ∈ chars, isWhitespace c = false) →
      chars.dropWhile isWhitespace = chars := by
    intro chars hchars
    cases chars with
    | nil => rfl
    | cons c chars => exact List.dropWhile_cons_of_neg (by simp [hchars c List.mem_cons_self])
  unfold trimmed trimEnd
  rw [hkeep h, hkeep fun c hc => h c (List.mem_reverse.mp hc), List.reverse_reverse]

/-- A digit is its number, and no separator. -/
theorem digitChar_read : ∀ d : Fin 10,
    (Nat.digitChar d).isDigit = true ∧ (Nat.digitChar d).toNat - '0'.toNat = d ∧
      isWhitespace (Nat.digitChar d) = false ∧ Nat.digitChar d ∉ [':', '-', '+'] := by
  decide

theorem mem_twoDigits {n : Nat} (hn : n < 100) {c : Char} (hc : c ∈ twoDigits n) :
    ∃ d : Fin 10, c = Nat.digitChar d := by
  rcases List.mem_cons.mp hc with rfl | hc
  · exact ⟨⟨n / 10, by omega⟩, rfl⟩
  · exact ⟨⟨n % 10, by omega⟩, List.mem_singleton.mp hc⟩

theorem twoDigits_chars {n : Nat} (hn : n < 100) :
    ∀ c ∈ twoDigits n, isWhitespace c = false ∧ c ∉ [':', '-', '+'] := by
  intro c hc
  obtain ⟨d, rfl⟩ := mem_twoDigits hn hc
  exact (digitChar_read d).2.2

theorem decimal_twoDigits {n : Nat} (hn : n < 100) : decimal (twoDigits n) = some n := by
  have hdigits : (twoDigits n).all Char.isDigit = true := by
    rw [List.all_eq_true]
    intro c hc
    obtain ⟨d, rfl⟩ := mem_twoDigits hn hc
    exact (digitChar_read d).1
  have htens := (digitChar_read ⟨n / 10, by omega⟩).2.1
  have hones := (digitChar_read ⟨n % 10, by omega⟩).2.1
  unfold decimal
  rw [if_pos ⟨by simp [twoDigits], hdigits⟩]
  unfold twoDigits
  rw [List.foldl_cons, List.foldl_cons, List.foldl_nil]
  dsimp only at htens hones
  rw [htens, hones]
  exact congrArg some (by omega)

/-- Two digits are read as their number. -/
theorem parseSigned_twoDigits {n : Nat} (hn : n < 100) :
    parseSigned 2147483648 (trim (String.ofList (twoDigits n))) = some (n : Int) := by
  have hchars := twoDigits_chars hn
  have htext : (trim (String.ofList (twoDigits n))).toList = twoDigits n := by
    unfold trim
    rw [String.toList_ofList, trimmed_of_visible, String.toList_ofList]
    rw [String.toList_ofList]
    exact fun c hc => (hchars c hc).1
  have hsign : ∀ (c : Char) (digits : List Char), twoDigits n = c :: digits →
      c ∉ [':', '-', '+'] :=
    fun c digits h => (hchars c (h ▸ List.mem_cons_self)).2
  unfold parseSigned parseUnsigned
  rw [htext]
  split
  next digits h => exact absurd (by simp) (hsign '-' digits h)
  next =>
    split
    next digits h => exact absurd (by simp) (hsign '+' digits h)
    next =>
      rw [decimal_twoDigits hn, Option.filter_some, if_pos (by simp; omega)]
      rfl

theorem splitAtFirst_of_not_mem {c : Char} {before : List Char} (h : c ∉ before)
    (after : List Char) : splitAtFirst [c] (before ++ c :: after) = some (before, after) := by
  induction before with
  | nil => simp [splitAtFirst]
  | cons b before ih =>
      have hb : ¬ c = b := fun hcb => h (hcb ▸ List.mem_cons_self)
      have hbefore : c ∉ before := fun hc => h (List.mem_cons_of_mem _ hc)
      rw [List.cons_append, splitAtFirst, ih hbefore]
      simp [List.isPrefixOf, hb]

namespace DailyClock

theorem hour_lt (clock : DailyClock) : clock.hour.val < 100 := by omega

theorem minute_lt (clock : DailyClock) : clock.minute.val < 100 := by omega

theorem text_chars (clock : DailyClock) :
    ∀ c ∈ clock.text, isWhitespace c = false ∧ c ≠ '-' := by
  have hdigits : ∀ {n : Nat}, n < 100 → ∀ c ∈ twoDigits n, isWhitespace c = false ∧ c ≠ '-' := by
    intro n hn c hc
    obtain ⟨hvisible, hseparator⟩ := twoDigits_chars hn c hc
    exact ⟨hvisible, fun h => hseparator (by simp [h])⟩
  intro c hc
  rcases List.mem_append.mp hc with hc | hc
  · exact hdigits clock.hour_lt c hc
  rcases List.mem_cons.mp hc with rfl | hc
  · decide
  · exact hdigits clock.minute_lt c hc

theorem parseDailyClock_text (clock : DailyClock) :
    parseDailyClock (String.ofList clock.text) = some clock.minutes := by
  have htrimmed : trimmed (String.ofList clock.text) = clock.text := by
    rw [trimmed_of_visible, String.toList_ofList]
    rw [String.toList_ofList]
    exact fun c hc => (clock.text_chars c hc).1
  have hcolon : ∀ {n : Nat}, n < 100 → ':' ∉ twoDigits n :=
    fun hn h => (twoDigits_chars hn ':' h).2 (by simp)
  have hsplit : clock.text.splitOn ':' = [twoDigits clock.hour, twoDigits clock.minute] := by
    unfold text
    rw [List.splitOn_append_cons_self, List.splitOn_eq_singleton (hcolon clock.hour_lt),
      List.splitOn_eq_singleton (hcolon clock.minute_lt)]
    rfl
  have hbounds : 0 ≤ (clock.hour.val : Int) ∧ (clock.hour.val : Int) ≤ 23 ∧
      0 ≤ (clock.minute.val : Int) ∧ (clock.minute.val : Int) ≤ 59 := by
    omega
  unfold parseDailyClock
  rw [htrimmed, hsplit]
  dsimp only
  rw [parseSigned_twoDigits clock.hour_lt, parseSigned_twoDigits clock.minute_lt]
  exact if_pos hbounds

end DailyClock

namespace DailyRange

theorem parseDailyRange_text (range : DailyRange) :
    parseDailyRange range.text = some (range.start.minutes, range.finish.minutes) := by
  have hsplit : splitOnce "-" range.text =
      some (String.ofList range.start.text, String.ofList range.finish.text) := by
    unfold splitOnce text
    rw [String.toList_ofList, String.toList_ofList,
      splitAtFirst_of_not_mem fun h => (range.start.text_chars '-' h).2 rfl]
    rfl
  unfold parseDailyRange
  simp only [hsplit, Option.bind_eq_bind, Option.bind_some, DailyClock.parseDailyClock_text]

theorem dailyTimeWithin_text (range : DailyRange) (now : Int) :
    dailyTimeWithin now range.text = true ↔ range.Contains now := by
  unfold dailyTimeWithin Contains
  rw [range.parseDailyRange_text]
  dsimp only
  by_cases hsame : range.start.minutes = range.finish.minutes
  · rw [if_pos hsame, if_pos (le_of_eq hsame)]
    constructor
    · intro h
      exact absurd h (by decide)
    · rintro ⟨hstart, hfinish⟩
      omega
  rw [if_neg hsame]
  by_cases hover : range.finish.minutes < range.start.minutes
  · rw [if_pos hover, if_neg (not_le.mpr hover)]
    simp
  · rw [if_neg hover, if_pos (not_lt.mp hover)]
    simp

end DailyRange

/-- On a written range the two readings of ranges agree. -/
theorem withinRange_text (range : DailyRange) (now : Int) :
    WithinRange range.text now ↔ dailyTimeWithin now range.text = true := by
  constructor
  · rintro ⟨range', htext, hcontains⟩
    rw [htext]
    exact (range'.dailyTimeWithin_text now).mpr hcontains
  · intro h
    exact ⟨range, rfl, (range.dailyTimeWithin_text now).mp h⟩

/-! ## Leaves -/

theorem valuesEqual_iff (reader : ValueReader) (actual expected : JsonValue) :
    valuesEqual reader actual expected = true ↔ SameValue reader actual expected := by
  constructor
  · intro h
    cases actual <;> cases expected <;> simp only [valuesEqual, beq_iff_eq, Bool.false_eq_true] at h
    · rw [h]
      exact .bool _
    · exact .number _ _ h
    · rw [h]
      exact .string _
  · intro h
    cases h with
    | number a e h => simp [valuesEqual, h]
    | string text => simp [valuesEqual]
    | bool value => simp [valuesEqual]

theorem applyOperator_iff (reader : ValueReader) (op : Operator) (actual expected : JsonValue) :
    applyOperator reader op actual expected = true ↔ Compares reader op actual expected := by
  cases op with
  | eq => exact valuesEqual_iff reader actual expected
  | ne =>
      unfold applyOperator Compares
      rw [← valuesEqual_iff reader actual expected]
      simp
  | lt | lte | gt | gte =>
      unfold applyOperator Compares Ordered
      cases actual <;> cases expected <;> simp

theorem runLeaf_iff (reader : ValueReader) (data : JsonValue) (leaf : Condition) :
    runLeaf reader leaf data = true ↔
      LeafHolds reader data (fun range now => dailyTimeWithin now range = true) leaf := by
  unfold runLeaf LeafHolds
  cases hvalue : leaf.value with
  | none => simp
  | some value =>
      dsimp only
      by_cases hdaily : IsDailyTime leaf
      · rw [if_pos hdaily, if_pos (show eqIgnoreAsciiCase (trim leaf.field) _ = true from hdaily)]
        split
        next inside range now hinside hnow =>
          rw [hinside, hnow]
          simp
        next hother =>
          constructor
          · intro h
            exact absurd h (by decide)
          · rintro ⟨range, now, inside, hrange, hnow, hinside, -⟩
            exact (hother inside range now hinside (Option.some.inj hrange) hnow).elim
      · rw [if_neg hdaily,
          if_neg (show ¬ eqIgnoreAsciiCase (trim leaf.field) "daily_time" = true from hdaily)]
        split
        next actual op hactual hop =>
          rw [hactual, hop, applyOperator_iff]
          simp
        next hother =>
          constructor
          · intro h
            exact absurd h (by decide)
          · rintro ⟨actual, expected, op, hactual, -, hop, -⟩
            exact (hother actual op hactual hop).elim

theorem validateLeaf_isOk (leaf : Condition) :
    (validateLeaf leaf).isOk = true ↔ Checked leaf := by
  unfold validateLeaf Checked
  by_cases hfield : trim leaf.field = ""
  · simp [hfield, Except.isOk, Except.toBool]
  rw [if_neg hfield]
  cases leaf.value with
  | none => simp [Except.isOk, Except.toBool]
  | some value =>
      dsimp only
      by_cases hdaily : IsDailyTime leaf
      · rw [if_pos hdaily, if_pos (show eqIgnoreAsciiCase (trim leaf.field) _ = true from hdaily)]
        cases normalizeDailyOperator leaf.operator <;> simp [hfield, Except.isOk, Except.toBool]
      · rw [if_neg hdaily,
          if_neg (show ¬ eqIgnoreAsciiCase (trim leaf.field) "daily_time" = true from hdaily)]
        cases normalizeOperator leaf.operator <;> cases hliteral : isLiteralValue value <;>
          simp [hfield, hliteral, Except.isOk, Except.toBool]

/-! ## Trees -/

mutual

/-- The evaluator is the one of and/or trees. -/
theorem runNode_eq (reader : ValueReader) (data : JsonValue) (top : Bool) :
    ∀ tree : Condition, runNode reader data top tree =
      (formula top tree).run fun leaf => runLeaf reader leaf data
  | ⟨type, logic, conditions, field, operator, value⟩ => by
      unfold runNode formula
      cases classify type top with
      | leaf => rfl
      | group =>
          dsimp only
          cases conditions with
          | nil => rfl
          | cons child rest =>
              rw [runNodes_eq reader data (isOr logic) (child :: rest)]
              cases isOr logic <;> rfl

theorem runNodes_eq (reader : ValueReader) (data : JsonValue) (or : Bool) :
    ∀ trees : List Condition, runNodes reader data or trees =
      Formula.runUntil (fun leaf => runLeaf reader leaf data) or (formulas trees)
  | [] => rfl
  | child :: rest => by
      unfold runNodes formulas Formula.runUntil
      rw [runNode_eq reader data false child, runNodes_eq reader data or rest]

end

mutual

/-- The check passes when it does on every leaf. -/
theorem validateNode_isOk (top : Bool) : ∀ tree : Condition,
    (validateNode top tree).isOk = true ↔ ∀ leaf ∈ (formula top tree).atoms, Checked leaf
  | ⟨type, logic, conditions, field, operator, value⟩ => by
      unfold validateNode formula
      cases classify type top with
      | leaf =>
          dsimp only
          rw [validateLeaf_isOk]
          unfold Formula.atoms
          simp
      | group =>
          have hatoms : (if conditions.isEmpty then Formula.all []
              else if isOr logic then .any (formulas conditions)
              else .all (formulas conditions)).atoms = Formula.atomsOf (formulas conditions) := by
            cases conditions with
            | nil => rfl
            | cons child rest => cases isOr logic <;> rfl
          dsimp only
          rw [hatoms]
          exact validateNodes_isOk conditions

theorem validateNodes_isOk : ∀ trees : List Condition,
    (validateNodes trees).isOk = true ↔ ∀ leaf ∈ Formula.atomsOf (formulas trees), Checked leaf
  | [] => by
      unfold validateNodes formulas Formula.atomsOf
      simp [Except.isOk, Except.toBool]
  | child :: rest => by
      have hchild := validateNode_isOk false child
      have hrest := validateNodes_isOk rest
      unfold validateNodes formulas Formula.atomsOf
      simp only [List.mem_append, or_imp, forall_and]
      rw [← hchild, ← hrest]
      cases validateNode false child with
      | error e =>
          show (Except.error e : Except ConditionError Unit).isOk = true ↔ _
          simp [Except.isOk, Except.toBool]
      | ok u =>
          show (validateNodes rest).isOk = true ↔ _
          simp [Except.isOk, Except.toBool]

end

/-- `evaluate`: every leaf passes its check, and the tree holds in the reading where
`daily_time_within` decides what is within a range. -/
theorem evaluate_iff (reader : ValueReader) (data : JsonValue) (tree : Condition) :
    evaluate reader tree data = true ↔ (∀ leaf ∈ leaves tree, Checked leaf) ∧
      Reading reader data (fun range now => dailyTimeWithin now range = true) tree := by
  unfold evaluate validate leaves Reading
  rw [Bool.and_eq_true, validateNode_isOk, runNode_eq, Formula.run_iff]
  refine and_congr_right fun _ => Formula.holds_congr _ fun leaf _ => ?_
  exact runLeaf_iff reader data leaf

/-- Where the ranges are written, it is the standard reading. -/
theorem reading_of_written {reader : ValueReader} {data : JsonValue} {tree : Condition}
    (h : ∀ leaf ∈ leaves tree, RangeWritten leaf) :
    Reading reader data (fun range now => dailyTimeWithin now range = true) tree ↔
      Reading reader data WithinRange tree := by
  refine Formula.holds_congr _ fun leaf hleaf => ?_
  unfold LeafHolds
  by_cases hdaily : IsDailyTime leaf
  · obtain ⟨written, hwritten⟩ := h leaf hleaf hdaily
    have hwithin : ∀ (range : String) (now : Int), leaf.value = some (.string range) →
        (dailyTimeWithin now range = true ↔ WithinRange range now) := by
      intro range now hrange
      obtain rfl : range = written.text := by
        simpa using hrange.symm.trans hwritten
      exact (withinRange_text written now).symm
    rw [if_pos hdaily, if_pos hdaily]
    refine exists_congr fun range => exists_congr fun now => exists_congr fun inside => ?_
    refine and_congr_right fun hrange => ?_
    show _ ∧ _ ∧ (dailyTimeWithin now range = true ↔ inside = true) ↔ _
    rw [hwithin range now hrange]
  · rw [if_neg hdaily, if_neg hdaily]

theorem evaluate_failsClosed_iff (reader : ValueReader) (data : JsonValue) (tree : Condition) :
    FailsClosed reader data tree ↔
      ((∃ leaf ∈ leaves tree, ¬ RangeWritten leaf) →
        (∃ leaf ∈ leaves tree, ¬ Checked leaf) ∨
          ¬ Reading reader data (fun range now => dailyTimeWithin now range = true) tree) := by
  have heval := evaluate_iff reader data tree
  constructor
  · rintro ⟨-, hclosed⟩ ⟨leaf, hleaf, hrange⟩
    have hfalse := hclosed ⟨leaf, hleaf, fun h => hrange h.range⟩
    rw [← Bool.not_eq_true, heval, not_and_or] at hfalse
    exact hfalse.imp_left fun hnot => by simpa using hnot
  · intro h
    constructor
    · intro hwell
      rw [heval, ← reading_of_written fun leaf hleaf => (hwell leaf hleaf).range]
      exact and_iff_right fun leaf hleaf => (hwell leaf hleaf).checked
    · rintro ⟨leaf, hleaf, hill⟩
      rw [← Bool.not_eq_true, heval]
      rintro ⟨hchecked, hreading⟩
      have hrange : ¬ RangeWritten leaf := fun hrange => hill ⟨hchecked leaf hleaf, hrange⟩
      rcases h ⟨leaf, hleaf, hrange⟩ with ⟨other, hother, hfails⟩ | hnot
      · exact hfails (hchecked other hother)
      · exact hnot hreading

/-- A reader that knows one instant, ten in the morning. -/
def sampleReader : ValueReader where
  asF64 _ := 0
  minuteOfDay text := if text = "2024-01-01T10:00:00Z" then some 600 else none

/-- A group of one leaf whose range is no range. -/
def sampleMalformed : Condition :=
  ⟨.group, "", [⟨.condition, "", [], "daily_time", "not_within", some (.string "nonsense")⟩], "", "",
    none⟩

theorem malformed_range_holds :
    ¬ FailsClosed sampleReader (.object [("now", .string "2024-01-01T10:00:00Z")])
      sampleMalformed := by
  have hleaf : ∀ range : DailyRange, range.text ≠ "nonsense" := by
    intro range h
    have hlength : "nonsense".toList.length = 11 := by
      rw [← h]
      unfold DailyRange.text
      rw [String.toList_ofList]
      rfl
    exact absurd hlength (by decide)
  intro h
  have hfalse : evaluate sampleReader sampleMalformed
      (.object [("now", .string "2024-01-01T10:00:00Z")]) = false := by
    refine h.2 ⟨_, List.mem_singleton_self _, fun hwell => ?_⟩
    obtain ⟨range, hrange⟩ := hwell.range (by decide)
    exact hleaf range (by simpa using hrange.symm)
  exact absurd hfalse (by decide)

end Conduit.Orchestrator
