import Mathlib

/-!
# JSON texts

The grammar of JSON, as a predicate on texts. A scanner that counts brackets and
skips strings finds the commas between the elements of an array, so that a text
is an array of at most one list of elements.
-/

namespace Base.JsonText

/-! ## Grammar -/

def IsSpace (text : List Char) : Prop := ∀ c ∈ text, c ∈ [' ', '\n', '\r', '\t']

def IsDigits (text : List Char) : Prop := text ≠ [] ∧ ∀ c ∈ text, c.isDigit = true

/-- Nothing, or a dot and digits. -/
def IsFraction (text : List Char) : Prop :=
  text = [] ∨ ∃ digits : List Char, IsDigits digits ∧ text = '.' :: digits

/-- Nothing, or an `e`, a sign and digits. -/
def IsExponent (text : List Char) : Prop :=
  text = [] ∨ ∃ (e : Char) (sign digits : List Char), e ∈ ['e', 'E'] ∧
    sign ∈ [[], ['+'], ['-']] ∧ IsDigits digits ∧ text = e :: (sign ++ digits)

/-- A number has no leading zeros. -/
def IsNumber (text : List Char) : Prop :=
  ∃ sign whole fraction exponent : List Char, text = sign ++ whole ++ fraction ++ exponent ∧
    sign ∈ [[], ['-']] ∧ IsDigits whole ∧ (whole.head? = some '0' → whole = ['0']) ∧
    IsFraction fraction ∧ IsExponent exponent

/-- What stands between the quotes of a string. -/
inductive IsStringBody : List Char → Prop
  | nil : IsStringBody []
  | char {c : Char} {body : List Char} : c ≠ '"' → c ≠ '\\' → 32 ≤ c.toNat → IsStringBody body →
      IsStringBody (c :: body)
  | escape {c : Char} {body : List Char} : c ∈ ['"', '\\', '/', 'b', 'f', 'n', 'r', 't'] →
      IsStringBody body → IsStringBody ('\\' :: c :: body)
  | unicode {code body : List Char} : code.length = 4 →
      (∀ c ∈ code, c ∈ "0123456789abcdefABCDEF".toList) → IsStringBody body →
      IsStringBody ('\\' :: 'u' :: (code ++ body))

def IsString (text : List Char) : Prop :=
  ∃ body : List Char, IsStringBody body ∧ text = '"' :: (body ++ ['"'])

/-- A string with white space around it. -/
def IsName (text : List Char) : Prop :=
  ∃ before name after : List Char, IsSpace before ∧ IsString name ∧ IsSpace after ∧
    text = before ++ name ++ after

def commaList (texts : List (List Char)) : List Char := [','].intercalate texts

/-- A text is one JSON value, with white space around it. -/
inductive IsJson : List Char → Prop
  | literal {text : List Char} : text ∈ ["null".toList, "true".toList, "false".toList] → IsJson text
  | number {text : List Char} : IsNumber text → IsJson text
  | string {text : List Char} : IsString text → IsJson text
  | emptyArray {space : List Char} : IsSpace space → IsJson ('[' :: (space ++ [']']))
  | array {elements : List (List Char)} : elements ≠ [] → (∀ e ∈ elements, IsJson e) →
      IsJson ('[' :: (commaList elements ++ [']']))
  | emptyObject {space : List Char} : IsSpace space → IsJson ('\x7b' :: (space ++ ['\x7d']))
  | object {members : List (List Char × List Char)} : members ≠ [] →
      (∀ m ∈ members, IsName m.1) → (∀ m ∈ members, IsJson m.2) →
      IsJson ('\x7b' :: (commaList (members.map fun m => m.1 ++ ':' :: m.2) ++ ['\x7d']))
  | padded {before text after : List Char} : IsSpace before → IsSpace after → IsJson text →
      IsJson (before ++ text ++ after)

/-- A text is the array of these elements, each with the white space around it. -/
inductive IsArrayOf : List Char → List (List Char) → Prop
  | empty {space : List Char} : IsSpace space → IsArrayOf ('[' :: (space ++ [']'])) []
  | elements {elements : List (List Char)} : elements ≠ [] → (∀ e ∈ elements, IsJson e) →
      IsArrayOf ('[' :: (commaList elements ++ [']'])) elements

/-! ## The scanner -/

inductive Lex
  | code
  | string
  | escape
deriving DecidableEq, Repr

structure Scan where
  depth : Nat
  lex : Lex
deriving DecidableEq, Repr

namespace Scan

/-- Between the elements of the outermost list. -/
def top : Scan := ⟨0, .code⟩

def next (s : Scan) (c : Char) : Scan :=
  match s.lex with
  | .code =>
      if c = '"' then ⟨s.depth, .string⟩
      else if c = '[' ∨ c = '\x7b' then ⟨s.depth + 1, .code⟩
      else if c = ']' ∨ c = '\x7d' then ⟨s.depth - 1, .code⟩
      else s
  | .string =>
      if c = '\\' then ⟨s.depth, .escape⟩
      else if c = '"' then ⟨s.depth, .code⟩
      else s
  | .escape => ⟨s.depth, .string⟩

end Scan

/-- The text, cut at the commas outside of brackets and strings. -/
def pieces (s : Scan) : List Char → List (List Char)
  | [] => [[]]
  | c :: text =>
      if c = ',' ∧ s = .top then [] :: pieces s text
      else (pieces (s.next c) text).modifyHead (c :: ·)

/-- The scanner goes over the text without a cut. -/
def Passes (text : List Char) (s s' : Scan) : Prop :=
  ∀ rest : List Char, pieces s (text ++ rest) = (pieces s' rest).modifyHead (text ++ ·)

/-- It is outside of strings before and after, at the same depth. -/
def Neutral (text : List Char) : Prop := ∀ depth : Nat, Passes text ⟨depth, .code⟩ ⟨depth, .code⟩

theorem Passes.nil (s : Scan) : Passes [] s s := by
  intro rest
  rw [List.nil_append]
  cases pieces s rest <;> rfl

theorem Passes.append {text text' : List Char} {s s' s'' : Scan} (h : Passes text s s')
    (h' : Passes text' s' s'') : Passes (text ++ text') s s'' := by
  intro rest
  rw [List.append_assoc, h, h', List.modifyHead_modifyHead]
  simp only [Function.comp_def, List.append_assoc]

theorem Passes.char {c : Char} {s : Scan} (h : ¬ (c = ',' ∧ s = .top)) :
    Passes [c] s (s.next c) := by
  intro rest
  exact if_neg h

theorem Passes.cons {c : Char} {text : List Char} {s s' : Scan} (h : ¬ (c = ',' ∧ s = .top))
    (htext : Passes text (s.next c) s') : Passes (c :: text) s s' :=
  (Passes.char h).append htext

/-! ## A JSON value is gone over without a cut -/

/-- A character that means nothing to the scanner. -/
def Plain (c : Char) : Prop := c ∉ ['"', '[', ']', '\x7b', '\x7d', ',']

theorem neutral_plain {text : List Char} (h : ∀ c ∈ text, Plain c) : Neutral text := by
  intro depth
  induction text with
  | nil => exact .nil _
  | cons c text ih =>
      have hc := h c List.mem_cons_self
      simp only [Plain, List.mem_cons, List.not_mem_nil, or_false, not_or] at hc
      refine .cons (fun hcut => hc.2.2.2.2.2 hcut.1) ?_
      have hnext : Scan.next ⟨depth, .code⟩ c = ⟨depth, .code⟩ := by
        simp [Scan.next, hc]
      rw [hnext]
      exact ih fun d hd => h d (List.mem_cons_of_mem _ hd)

theorem Neutral.append {text text' : List Char} (h : Neutral text) (h' : Neutral text') :
    Neutral (text ++ text') :=
  fun depth => (h depth).append (h' depth)

theorem neutral_space {text : List Char} (h : IsSpace text) : Neutral text := by
  refine neutral_plain fun c hc => ?_
  have hspace := h c hc
  simp only [List.mem_cons, List.not_mem_nil, or_false] at hspace
  rcases hspace with rfl | rfl | rfl | rfl <;> unfold Plain <;> decide

theorem plain_of_isDigit {c : Char} (h : c.isDigit = true) : Plain c := by
  intro hspecial
  simp only [List.mem_cons, List.not_mem_nil, or_false] at hspecial
  rcases hspecial with rfl | rfl | rfl | rfl | rfl | rfl <;> exact absurd h (by decide)

theorem neutral_digits {text : List Char} (h : IsDigits text) : Neutral text :=
  neutral_plain fun c hc => plain_of_isDigit (h.2 c hc)

theorem neutral_char {c : Char} (h : Plain c) : Neutral [c] :=
  neutral_plain fun _ hd => List.mem_singleton.mp hd ▸ h

theorem neutral_sign {sign : List Char} (h : sign ∈ [[], ['+'], ['-']]) : Neutral sign := by
  simp only [List.mem_cons, List.not_mem_nil, or_false] at h
  rcases h with rfl | rfl | rfl
  · exact fun depth => .nil _
  · exact neutral_char (by unfold Plain; decide)
  · exact neutral_char (by unfold Plain; decide)

theorem neutral_number {text : List Char} (h : IsNumber text) : Neutral text := by
  obtain ⟨sign, whole, fraction, exponent, rfl, hsign, hwhole, -, hfraction, hexponent⟩ := h
  have hfraction : Neutral fraction := by
    rcases hfraction with rfl | ⟨digits, hdigits, rfl⟩
    · exact fun depth => .nil _
    · exact (neutral_char (by unfold Plain; decide)).append (neutral_digits hdigits)
  have hexponent : Neutral exponent := by
    rcases hexponent with rfl | ⟨e, sign, digits, he, hsign, hdigits, rfl⟩
    · exact fun depth => .nil _
    · have hplain : Plain e := by
        simp only [List.mem_cons, List.not_mem_nil, or_false] at he
        rcases he with rfl | rfl <;> unfold Plain <;> decide
      exact (neutral_char hplain).append ((neutral_sign hsign).append (neutral_digits hdigits))
  have hsign : Neutral sign := by
    refine neutral_sign ?_
    simp only [List.mem_cons, List.not_mem_nil, or_false] at hsign ⊢
    exact hsign.imp_right .inr
  exact ((hsign.append (neutral_digits hwhole)).append hfraction).append hexponent

/-- In a string the scanner looks for the closing quote only. -/
theorem passes_in_string {c : Char} {body : List Char} {depth : Nat} (hquote : c ≠ '"')
    (hescape : c ≠ '\\') (h : Passes body ⟨depth, .string⟩ ⟨depth, .string⟩) :
    Passes (c :: body) ⟨depth, .string⟩ ⟨depth, .string⟩ := by
  refine .cons (fun hcut => ?_) ?_
  · exact nomatch (congrArg Scan.lex hcut.2 : Lex.string = Lex.code)
  · simpa [Scan.next, hquote, hescape] using h

theorem passes_escape {c : Char} {body : List Char} {depth : Nat}
    (h : Passes body ⟨depth, .string⟩ ⟨depth, .string⟩) :
    Passes ('\\' :: c :: body) ⟨depth, .string⟩ ⟨depth, .string⟩ := by
  refine .cons (fun hcut => absurd hcut.1 (by decide)) ?_
  have hescape : Scan.next ⟨depth, .string⟩ '\\' = ⟨depth, .escape⟩ := rfl
  rw [hescape]
  refine .cons (fun hcut => ?_) h
  exact nomatch (congrArg Scan.lex hcut.2 : Lex.escape = Lex.code)

theorem passes_stringBody {body : List Char} (h : IsStringBody body) (depth : Nat) :
    Passes body ⟨depth, .string⟩ ⟨depth, .string⟩ := by
  induction h with
  | nil => exact .nil _
  | char hquote hescape _ _ ih => exact passes_in_string hquote hescape ih
  | escape _ _ ih => exact passes_escape ih
  | @unicode code body _ hcode _ ih =>
      refine passes_escape ?_
      clear * - hcode ih
      induction code with
      | nil => exact ih
      | cons c code ihcode =>
          have hc := hcode c List.mem_cons_self
          refine passes_in_string ?_ ?_ (ihcode fun d hd => hcode d (List.mem_cons_of_mem _ hd))
          · rintro rfl
            exact absurd hc (by decide)
          · rintro rfl
            exact absurd hc (by decide)

theorem neutral_string {text : List Char} (h : IsString text) : Neutral text := by
  obtain ⟨body, hbody, rfl⟩ := h
  intro depth
  refine .cons (fun hcut => absurd hcut.1 (by decide)) ((passes_stringBody hbody depth).append ?_)
  exact .char fun hcut => absurd hcut.1 (by decide)

theorem neutral_name {text : List Char} (h : IsName text) : Neutral text := by
  obtain ⟨before, name, after, hbefore, hname, hafter, rfl⟩ := h
  exact ((neutral_space hbefore).append (neutral_string hname)).append (neutral_space hafter)

/-- Inside brackets a comma is no cut. -/
theorem passes_commaList {texts : List (List Char)} (h : ∀ text ∈ texts, Neutral text)
    (depth : Nat) : Passes (commaList texts) ⟨depth + 1, .code⟩ ⟨depth + 1, .code⟩ := by
  induction texts with
  | nil => exact .nil _
  | cons text texts ih =>
      have htext := h text List.mem_cons_self (depth + 1)
      have hrest := ih fun t ht => h t (List.mem_cons_of_mem _ ht)
      unfold commaList at hrest ⊢
      cases texts with
      | nil =>
          rw [List.intercalate_singleton]
          exact htext
      | cons next texts =>
          rw [List.intercalate_cons_cons]
          refine (htext.append ?_).append hrest
          exact .char fun hcut => absurd (congrArg Scan.depth hcut.2) (Nat.succ_ne_zero depth)

/-- Brackets around what passes one level deeper. -/
theorem neutral_bracketed {first last : Char} {inside : List Char}
    (hfirst : first = '[' ∨ first = '\x7b') (hlast : last = ']' ∨ last = '\x7d')
    (h : ∀ depth : Nat, Passes inside ⟨depth + 1, .code⟩ ⟨depth + 1, .code⟩) :
    Neutral (first :: (inside ++ [last])) := by
  intro depth
  have hopen : Scan.next ⟨depth, .code⟩ first = ⟨depth + 1, .code⟩ := by
    rcases hfirst with rfl | rfl <;> rfl
  have hclose : Scan.next ⟨depth + 1, .code⟩ last = ⟨depth, .code⟩ := by
    rcases hlast with rfl | rfl <;> rfl
  refine .cons ?_ ?_
  · rintro ⟨rfl, -⟩
    exact absurd hfirst (by decide)
  · rw [hopen]
    refine (h depth).append ?_
    rw [← hclose]
    refine .char ?_
    rintro ⟨rfl, -⟩
    exact absurd hlast (by decide)

theorem IsJson.neutral {text : List Char} (h : IsJson text) : Neutral text := by
  induction h with
  | literal h =>
      refine neutral_plain fun c hc => ?_
      simp only [List.mem_cons, List.not_mem_nil, or_false] at h
      intro hspecial
      simp only [List.mem_cons, List.not_mem_nil, or_false] at hspecial
      rcases h with rfl | rfl | rfl <;> rcases hspecial with rfl | rfl | rfl | rfl | rfl | rfl <;>
        exact absurd hc (by decide)
  | number h => exact neutral_number h
  | string h => exact neutral_string h
  | emptyArray h =>
      exact neutral_bracketed (.inl rfl) (.inl rfl) fun depth => neutral_space h (depth + 1)
  | array _ _ ih => exact neutral_bracketed (.inl rfl) (.inl rfl) (passes_commaList ih)
  | emptyObject h =>
      exact neutral_bracketed (.inr rfl) (.inr rfl) fun depth => neutral_space h (depth + 1)
  | object _ hnames _ ih =>
      refine neutral_bracketed (.inr rfl) (.inr rfl) (passes_commaList ?_)
      intro text htext
      obtain ⟨m, hm, rfl⟩ := List.mem_map.mp htext
      exact (neutral_name (hnames m hm)).append
        ((neutral_char (c := ':') (by unfold Plain; decide)).append (ih m hm))
  | padded hbefore hafter _ ih =>
      exact ((neutral_space hbefore).append ih).append (neutral_space hafter)

/-! ## An array has one list of elements -/

/-- The cuts give back the list that was joined. -/
theorem pieces_commaList {texts : List (List Char)} (hne : texts ≠ [])
    (h : ∀ text ∈ texts, Neutral text) : pieces .top (commaList texts) = texts := by
  induction texts with
  | nil => exact absurd rfl hne
  | cons text texts ih =>
      have htext := h text List.mem_cons_self 0
      unfold commaList at ih ⊢
      cases texts with
      | nil =>
          have hlast := htext []
          rw [List.append_nil] at hlast
          rw [List.intercalate_singleton]
          refine hlast.trans ?_
          simp [pieces]
      | cons next texts =>
          have hrest := ih (List.cons_ne_nil _ _) fun t ht => h t (List.mem_cons_of_mem _ ht)
          rw [List.intercalate_cons_cons, List.append_assoc]
          refine (htext _).trans ?_
          have hcut : pieces ⟨0, .code⟩ ([','] ++ [','].intercalate (next :: texts)) =
              [] :: (next :: texts) := (if_pos ⟨rfl, rfl⟩).trans (congrArg _ hrest)
          rw [hcut]
          simp

/-- There is more to a JSON value than white space. -/
theorem IsJson.not_isSpace {text : List Char} (h : IsJson text) : ¬ IsSpace text := by
  have hhead : ∀ {c : Char} {rest : List Char}, c ∉ [' ', '\n', '\r', '\t'] →
      ¬ IsSpace (c :: rest) := fun hc hspace => hc (hspace _ List.mem_cons_self)
  induction h with
  | literal h =>
      simp only [List.mem_cons, List.not_mem_nil, or_false] at h
      rcases h with rfl | rfl | rfl <;> exact hhead (by decide)
  | number h =>
      obtain ⟨sign, whole, fraction, exponent, rfl, -, ⟨hne, hdigits⟩, -⟩ := h
      intro hspace
      obtain ⟨c, hc⟩ := List.exists_mem_of_ne_nil whole hne
      have hsame := hspace c (by simp [hc])
      have hdigit := hdigits c hc
      simp only [List.mem_cons, List.not_mem_nil, or_false] at hsame
      rcases hsame with rfl | rfl | rfl | rfl <;> exact absurd hdigit (by decide)
  | string h =>
      obtain ⟨body, -, rfl⟩ := h
      exact hhead (by decide)
  | emptyArray | array | emptyObject | object => exact hhead (by decide)
  | padded _ _ _ ih =>
      exact fun hspace => ih fun c hc => hspace c (by simp [hc])

theorem commaList_isSpace {texts : List (List Char)} (hne : texts ≠ [])
    (h : IsSpace (commaList texts)) : texts = [commaList texts] := by
  unfold commaList at h ⊢
  match texts with
  | [] => exact absurd rfl hne
  | [text] => rw [List.intercalate_singleton]
  | text :: next :: texts =>
      rw [List.intercalate_cons_cons] at h
      exact absurd (h ',' (by simp)) (by decide)

/-- Two readings of a text as an array are the same. -/
theorem IsArrayOf.unique {text : List Char} {elements elements' : List (List Char)}
    (h : IsArrayOf text elements) (h' : IsArrayOf text elements') : elements = elements' := by
  have hspaced : ∀ {space : List Char} {es : List (List Char)}, IsSpace space → es ≠ [] →
      (∀ e ∈ es, IsJson e) → '[' :: (space ++ [']']) ≠ '[' :: (commaList es ++ [']']) := by
    intro space es hspace hne hjson heq
    have hinside : space = commaList es := List.append_cancel_right (List.cons.inj heq).2
    rw [hinside] at hspace
    have hone := commaList_isSpace hne hspace
    refine (hjson (commaList es) ?_).not_isSpace hspace
    rw [hone]
    simp [commaList]
  generalize htext : text = text' at h'
  cases h with
  | empty hspace =>
      cases h' with
      | empty => rfl
      | elements hne hjson => exact absurd htext (hspaced hspace hne hjson)
  | elements hne hjson =>
      cases h' with
      | empty hspace => exact absurd htext.symm (hspaced hspace hne hjson)
      | elements hne' hjson' =>
          have hinside : commaList elements = commaList elements' :=
            List.append_cancel_right (List.cons.inj htext).2
          rw [← pieces_commaList hne fun e he => (hjson e he).neutral, hinside,
            pieces_commaList hne' fun e he => (hjson' e he).neutral]

/-! ## A list that may hold more -/

theorem commaList_cons (text : List Char) (texts : List (List Char)) :
    commaList (text :: texts) = text ++ texts.flatMap (',' :: ·) := by
  unfold commaList
  induction texts generalizing text with
  | nil => simp
  | cons next texts ih =>
      rw [List.intercalate_cons_cons, ih, List.flatMap_cons]
      simp

theorem length_commaList {texts : List (List Char)} (hne : texts ≠ []) :
    (commaList texts).length + 1 = (texts.map List.length).sum + texts.length := by
  cases texts with
  | nil => exact absurd rfl hne
  | cons text texts =>
      rw [commaList_cons, List.length_append, List.length_flatMap, List.map_cons, List.sum_cons,
        List.length_cons]
      have hrest : (texts.map fun t => (',' :: t).length).sum =
          (texts.map List.length).sum + texts.length := by
        induction texts with
        | nil => rfl
        | cons next texts ih =>
            simp only [List.map_cons, List.sum_cons, List.length_cons] at ih ⊢
            rw [ih (List.cons_ne_nil _ _)]
            omega
      rw [hrest]
      omega

/-- Items in brackets are the array of some of them only if these are all, or there is one
blank item for the empty array. -/
theorem isArrayOf_iff_of_sublist {items elements : List (List Char)}
    (hsub : elements.Sublist items) (hjson : ∀ e ∈ elements, IsJson e) :
    IsArrayOf ('[' :: (commaList items ++ [']'])) elements ↔
      elements = items ∨ elements = [] ∧ ∃ blank : List Char, items = [blank] ∧ IsSpace blank := by
  constructor
  · intro h
    generalize htext : '[' :: (commaList items ++ [']']) = text at h
    cases h with
    | @empty space hspace =>
        have hinside : commaList items = space := List.append_cancel_right (List.cons.inj htext).2
        rw [← hinside] at hspace
        by_cases hitems : items = []
        · exact .inl hitems.symm
        · exact .inr ⟨rfl, commaList items, commaList_isSpace hitems hspace, hspace⟩
    | elements hne _ =>
        have hinside : commaList items = commaList elements :=
          List.append_cancel_right (List.cons.inj htext).2
        have hitems : items ≠ [] := fun h => hne (List.sublist_nil.mp (h ▸ hsub))
        have hlength := length_commaList hne
        rw [← hinside, length_commaList hitems] at hlength
        have hsum : (elements.map List.length).sum ≤ (items.map List.length).sum :=
          (hsub.map List.length).sum_le_sum fun _ _ => Nat.zero_le _
        exact .inl (hsub.eq_of_length_le (by omega))
  · rintro (rfl | ⟨rfl, blank, rfl, hblank⟩)
    · by_cases hempty : elements = []
      · rw [hempty]
        exact .empty fun c hc => absurd hc List.not_mem_nil
      · exact .elements hempty hjson
    · refine .empty ?_
      unfold commaList
      rw [List.intercalate_singleton]
      exact hblank

end Base.JsonText
