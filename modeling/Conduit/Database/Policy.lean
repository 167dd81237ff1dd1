import Conduit.Base.Text
import Conduit.Base.Words
import Mathlib.Data.List.Chain
import Mathlib.Data.List.Infix
import Mathlib.Tactic.Common

/-!
# The non-destructive policy

`validate_plan_non_destructive` refuses a migration in which, after comments
and quotes are taken out and case and spacing are made even, the words
`drop table` or `replace table` occur. The source of a migration is described
by its lexemes; the policy reads back their words (`words_normalize`), so its
answer depends on nothing else.
-/

namespace Conduit.Database

open Base Base.Text

/-! ## Plans -/

inductive Dialect
  | postgres
  deriving DecidableEq, Repr

structure RunnerPolicy where
  allowDestructiveSql : Bool := false
  requireDialectMatch : Bool := true
  deriving DecidableEq, Repr

structure MigrationStep where
  id : String
  dialect : Dialect
  sql : String
  deriving DecidableEq, Repr

structure MigrationPlan where
  dialect : Dialect
  steps : List MigrationStep := []
  policy : RunnerPolicy := {}

inductive MigrationPlanError
  | dialectMismatch (stepId : String) (planDialect stepDialect : Dialect)
  | destructiveSql (stepId reason : String)
  deriving DecidableEq, Repr

/-! ## Normal form -/

def isWordCharacter (c : Char) : Bool := c.isAlphanum || c = '_'

/-- Where the reader is: in `opened` and `doubled` the next character is the
second one of a pair that was looked ahead at. -/
inductive Reading
  | code
  | lineComment
  | opened
  | blockComment (previous : Char)
  | quoted (quote : Char)
  | doubled (quote : Char)

/-- The loop of `normalize_sql_for_policy`. -/
def normalizeFrom : Reading → List Char → List Char
  | _, [] => []
  | .code, c :: rest =>
      if c = '-' ∧ rest.head? = some '-' then ' ' :: normalizeFrom .lineComment rest
      else if c = '/' ∧ rest.head? = some '*' then ' ' :: normalizeFrom .opened rest
      else if c = '\'' ∨ c = '"' then ' ' :: normalizeFrom (.quoted c) rest
      else if isWordCharacter c then c.toLower :: normalizeFrom .code rest
      else ' ' :: normalizeFrom .code rest
  | .lineComment, c :: rest =>
      if c = '\n' then normalizeFrom .code rest else normalizeFrom .lineComment rest
  | .opened, _ :: rest => normalizeFrom (.blockComment (Char.ofNat 0)) rest
  | .blockComment previous, c :: rest =>
      if previous = '*' ∧ c = '/' then normalizeFrom .code rest
      else normalizeFrom (.blockComment c) rest
  | .quoted quote, c :: rest =>
      if c = quote then
        if rest.head? = some quote then normalizeFrom (.doubled quote) rest
        else normalizeFrom .code rest
      else normalizeFrom (.quoted quote) rest
  | .doubled quote, _ :: rest => normalizeFrom (.quoted quote) rest

/-- The words between white space, with a space between and around them. -/
def compact (normalized : List Char) : List Char :=
  ' ' :: ([' '].intercalate (wordsBy isWhitespace normalized) ++ [' '])

def normalizeSqlForPolicy (sql : String) : List Char :=
  compact (' ' :: normalizeFrom .code sql.toList)

def validateSqlNonDestructive (stepId sql : String) : Except MigrationPlanError Unit :=
  let normalized := normalizeSqlForPolicy sql
  if " drop table ".toList <:+: normalized then
    .error (.destructiveSql stepId "DROP TABLE is not allowed")
  else if " create or replace table ".toList <:+: normalized ∨
      " replace table ".toList <:+: normalized then
    .error (.destructiveSql stepId "destructive table recreate is not allowed")
  else .ok ()

/-- One round of the loop over a plan's steps. -/
def validateStep (plan : MigrationPlan) (step : MigrationStep) : Except MigrationPlanError Unit :=
  if plan.policy.requireDialectMatch ∧ step.dialect ≠ plan.dialect then
    .error (.dialectMismatch step.id plan.dialect step.dialect)
  else if ¬ plan.policy.allowDestructiveSql then validateSqlNonDestructive step.id step.sql
  else .ok ()

def validatePlanNonDestructive (plan : MigrationPlan) : Except MigrationPlanError Unit :=
  plan.steps.forM (validateStep plan)

/-! ## Lexemes -/

/-- A piece of SQL source. -/
inductive Lexeme
  | word (text : List Char)
  | mark (c : Char)
  | lineComment (text : List Char)
  | blockComment (text : List Char)
  | quoted (quote : Char) (text : List Char)

namespace Lexeme

/-- A quote inside of quotes is written twice. -/
def escape (quote : Char) (text : List Char) : List Char :=
  text.flatMap fun c => if c = quote then [quote, quote] else [c]

def render : Lexeme → List Char
  | word text => text
  | mark c => [c]
  | lineComment text => '-' :: '-' :: text ++ ['\n']
  | blockComment text => '/' :: '*' :: text ++ ['*', '/']
  | quoted quote text => quote :: escape quote text ++ [quote]

/-- A word is not empty, a line comment has one line, a block comment does not
end early, and there are two kinds of quotes. -/
def WellFormed : Lexeme → Prop
  | word text => text ≠ [] ∧ ∀ c ∈ text, isWordCharacter c = true
  | mark c => isWordCharacter c = false ∧ c ≠ '\'' ∧ c ≠ '"'
  | lineComment text => '\n' ∉ text
  | blockComment text => ¬ ['*', '/'] <:+: text
  | quoted quote _ => quote = '\'' ∨ quote = '"'

/-- Two lexemes that are not read as something else together. -/
def Separate : Lexeme → Lexeme → Prop
  | word _, word _ => False
  | mark c, next => ¬ (c = '-' ∧ next.render.head? = some '-') ∧ ¬
    (c = '/' ∧ next.render.head? = some '*')
  | quoted quote _, next => next.render.head? ≠ some quote
  | _, _ => True

instance : DecidablePred WellFormed
  | word text =>
      -- over the text, not over all characters
      letI := List.decidableBAll (fun c => isWordCharacter c = true) text
      inferInstanceAs (Decidable (text ≠ [] ∧ ∀ c ∈ text, isWordCharacter c = true))
  | mark c => inferInstanceAs (Decidable (isWordCharacter c = false ∧ c ≠ '\'' ∧ c ≠ '"'))
  | lineComment text => inferInstanceAs (Decidable ('\n' ∉ text))
  | blockComment text => inferInstanceAs (Decidable (¬ ['*', '/'] <:+: text))
  | quoted quote _ => inferInstanceAs (Decidable (quote = '\'' ∨ quote = '"'))

instance : DecidableRel Separate
  | word _, word _ => inferInstanceAs (Decidable False)
  | mark c, next => inferInstanceAs (Decidable (¬ (c = '-' ∧ next.render.head? = some '-') ∧
      ¬ (c = '/' ∧ next.render.head? = some '*')))
  | quoted quote _, next => inferInstanceAs (Decidable (next.render.head? ≠ some quote))
  | word _, mark _ | word _, lineComment _ | word _, blockComment _ | word _, quoted _ _ |
    lineComment _, _ | blockComment _, _ => inferInstanceAs (Decidable True)

/-- What is read of a lexeme: its word, or a space. -/
def read : Lexeme → List Char
  | word text => text.map Char.toLower
  | _ => [' ']

/-- The words of the code. -/
def words : Lexeme → List (List Char)
  | word text => [text.map Char.toLower]
  | _ => []

end Lexeme

/-- A source text by its lexemes. -/
structure Script where
  lexemes : List Lexeme
  wellFormed : ∀ lexeme ∈ lexemes, lexeme.WellFormed
  separate : lexemes.IsChain Lexeme.Separate

def Script.text (script : Script) : List Char := script.lexemes.flatMap Lexeme.render

def Script.words (script : Script) : List (List Char) := script.lexemes.flatMap Lexeme.words

/-! ## Reading lexemes back -/

theorem wordCharacter_lt {c : Char} (h : isWordCharacter c = true) : c.toNat < 128 := by
  unfold isWordCharacter Char.isAlphanum Char.isAlpha Char.isUpper Char.isLower Char.isDigit at h
  simp only [Bool.or_eq_true, Bool.and_eq_true, decide_eq_true_eq] at h
  rcases h with ((⟨_, h⟩ | ⟨_, h⟩) | ⟨_, h⟩) | rfl
  · exact Nat.lt_of_le_of_lt (UInt32.le_iff_toNat_le.mp h) (by decide)
  · exact Nat.lt_of_le_of_lt (UInt32.le_iff_toNat_le.mp h) (by decide)
  · exact Nat.lt_of_le_of_lt (UInt32.le_iff_toNat_le.mp h) (by decide)
  · decide

theorem wordCharacter_table : ∀ n < 128, isWordCharacter (Char.ofNat n) = true →
    isWhitespace (Char.ofNat n).toLower = false ∧ (Char.ofNat n).toLower ≠ ' ' ∧
      Char.ofNat n ≠ '-' ∧ Char.ofNat n ≠ '/' ∧ Char.ofNat n ≠ '\'' ∧ Char.ofNat n ≠ '"' := by
  decide

theorem wordCharacter_spec {c : Char} (h : isWordCharacter c = true) :
    isWhitespace c.toLower = false ∧ c.toLower ≠ ' ' ∧ c ≠ '-' ∧ c ≠ '/' ∧ c ≠ '\'' ∧ c ≠ '"' := by
  have htable := wordCharacter_table c.toNat (wordCharacter_lt h)
  rw [Char.ofNat_toNat] at htable
  exact htable h

section NormalizeFrom

attribute [local simp] normalizeFrom

theorem normalizeFrom_word {text : List Char} (h : ∀ c ∈ text, isWordCharacter c = true)
    (rest : List Char) :
    normalizeFrom .code (text ++ rest) = text.map Char.toLower ++ normalizeFrom .code rest := by
  induction text with
  | nil => rfl
  | cons c text ih =>
      have hword := h c List.mem_cons_self
      obtain ⟨_, _, hdash, hslash, hsingle, hdouble⟩ := wordCharacter_spec hword
      have hrest := ih fun d hd => h d (List.mem_cons_of_mem c hd)
      simp [normalizeFrom, hdash, hslash, hsingle, hdouble, hword, hrest]

theorem normalizeFrom_lineComment {text : List Char} (h : '\n' ∉ text) (rest : List Char) :
    normalizeFrom .lineComment (text ++ '\n' :: rest) = normalizeFrom .code rest := by
  induction text with
  | nil => simp [normalizeFrom]
  | cons c text ih =>
      rw [List.mem_cons, not_or] at h
      have hc : c ≠ '\n' := Ne.symm h.1
      simp [normalizeFrom, hc, ih h.2]

theorem normalizeFrom_blockComment (text rest : List Char) : ∀ previous : Char,
    ¬ ['*', '/'] <:+: previous :: text →
    normalizeFrom (.blockComment previous) (text ++ '*' :: '/' :: rest) =
      normalizeFrom .code rest := by
  induction text with
  | nil =>
      intro previous _
      simp [normalizeFrom]
  | cons c text ih =>
      intro previous h
      have hc : ¬ (previous = '*' ∧ c = '/') := by
        rintro ⟨rfl, rfl⟩
        exact h ⟨[], text, rfl⟩
      have htext : ¬ ['*', '/'] <:+: c :: text := fun hin => h (List.infix_cons hin)
      rw [List.cons_append, normalizeFrom, if_neg hc]
      exact ih c htext

theorem normalizeFrom_quoted {quote : Char} (text : List Char) {rest : List Char}
    (h : rest.head? ≠ some quote) :
    normalizeFrom (.quoted quote) (Lexeme.escape quote text ++ quote :: rest) =
      normalizeFrom .code rest := by
  induction text with
  | nil => simp [Lexeme.escape, normalizeFrom, h]
  | cons c text ih =>
      have hcons : Lexeme.escape quote (c :: text) =
          (if c = quote then [quote, quote] else [c]) ++ Lexeme.escape quote text := rfl
      rw [hcons]
      by_cases hc : c = quote
      · simp [hc, normalizeFrom, ih]
      · simp [hc, normalizeFrom, ih]

end NormalizeFrom

namespace Lexeme

theorem render_ne_nil {lexeme : Lexeme} (h : lexeme.WellFormed) : lexeme.render ≠ [] := by
  cases lexeme with
  | word text => exact h.1
  | mark c => exact List.cons_ne_nil _ _
  | lineComment text => exact List.cons_ne_nil _ _
  | blockComment text => exact List.cons_ne_nil _ _
  | quoted quote text => exact List.cons_ne_nil _ _

/-- The next character of a script is the first one of its next lexeme. -/
theorem head?_flatMap {next : Lexeme} (h : next.WellFormed) (more : List Lexeme) :
    ((next :: more).flatMap render).head? = next.render.head? := by
  cases hrender : next.render with
  | nil => exact absurd hrender (render_ne_nil h)
  | cons c text => simp [hrender]

/-- One lexeme is read, given what comes next. -/
theorem normalizeFrom_render {lexeme : Lexeme} (h : lexeme.WellFormed) {rest : List Char}
    (hmark : ∀ c, lexeme = .mark c →
      ¬ (c = '-' ∧ rest.head? = some '-') ∧ ¬ (c = '/' ∧ rest.head? = some '*'))
    (hquoted : ∀ quote text, lexeme = .quoted quote text → rest.head? ≠ some quote) :
    normalizeFrom .code (lexeme.render ++ rest) = lexeme.read ++ normalizeFrom .code rest := by
  cases lexeme with
  | word text => exact normalizeFrom_word h.2 rest
  | mark c =>
      obtain ⟨hdash, hslash⟩ := hmark c rfl
      obtain ⟨hword, hsingle, hdouble⟩ := h
      simp [render, read, normalizeFrom, hdash, hslash, hword, hsingle, hdouble]
  | lineComment text =>
      have hdash : '\n' ∉ '-' :: text := by
        rw [List.mem_cons, not_or]
        exact ⟨by decide, h⟩
      have hcomment := normalizeFrom_lineComment hdash rest
      simpa [render, read, normalizeFrom] using hcomment
  | blockComment text =>
      have hopen : ¬ ['*', '/'] <:+: Char.ofNat 0 :: text := by
        intro hin
        rcases List.infix_cons_iff.mp hin with hprefix | hin
        · exact absurd (List.cons_prefix_cons.mp hprefix).1 (by decide)
        · exact h hin
      have hcomment := normalizeFrom_blockComment text rest (Char.ofNat 0) hopen
      simpa [render, read, normalizeFrom] using hcomment
  | quoted quote text =>
      have hquote := normalizeFrom_quoted text (hquoted quote text rfl)
      have hopen : normalizeFrom .code (quote :: (escape quote text ++ quote :: rest)) =
          ' ' :: normalizeFrom (.quoted quote) (escape quote text ++ quote :: rest) := by
        rcases h with rfl | rfl
        · simp [normalizeFrom]
        · simp [normalizeFrom]
      rw [hquote] at hopen
      simpa [render, read] using hopen

/-- A chain of lexemes is read one by one. -/
theorem normalizeFrom_flatMap {lexemes : List Lexeme} (h : ∀ lexeme ∈ lexemes, lexeme.WellFormed)
    (hchain : lexemes.IsChain Separate) :
    normalizeFrom .code (lexemes.flatMap render) = lexemes.flatMap read := by
  induction lexemes with
  | nil => rfl
  | cons lexeme rest ih =>
      have hrest := ih (fun l hl => h l (List.mem_cons_of_mem _ hl)) hchain.tail
      have hnext : ∀ c : Char, (rest.flatMap render).head? = some c →
          ∃ next more, rest = next :: more ∧ next.render.head? = some c := by
        intro c hc
        cases rest with
        | nil => cases hc
        | cons next more =>
            rw [head?_flatMap (h next (by simp)) more] at hc
            exact ⟨next, more, rfl, hc⟩
      rw [List.flatMap_cons, List.flatMap_cons, ← hrest]
      apply normalizeFrom_render (h lexeme List.mem_cons_self)
      · rintro c rfl
        constructor
        · rintro ⟨hdash, hhead⟩
          obtain ⟨next, more, rfl, hfirst⟩ := hnext '-' hhead
          exact (List.isChain_cons_cons.mp hchain).1.1 ⟨hdash, hfirst⟩
        · rintro ⟨hslash, hhead⟩
          obtain ⟨next, more, rfl, hfirst⟩ := hnext '*' hhead
          exact (List.isChain_cons_cons.mp hchain).1.2 ⟨hslash, hfirst⟩
      · rintro quote text rfl hhead
        obtain ⟨next, more, rfl, hfirst⟩ := hnext quote hhead
        exact (List.isChain_cons_cons.mp hchain).1 hfirst

theorem wordsBy_flatMap {lexemes : List Lexeme} (h : ∀ lexeme ∈ lexemes, lexeme.WellFormed)
    (hchain : lexemes.IsChain Separate) :
    wordsBy isWhitespace (lexemes.flatMap read) = lexemes.flatMap words := by
  have hspace : isWhitespace ' ' = true := by decide
  induction lexemes with
  | nil => exact wordsBy_nil
  | cons lexeme rest ih =>
      have hrest := ih (fun l hl => h l (List.mem_cons_of_mem _ hl)) hchain.tail
      have hblank : lexeme.read = [' '] → wordsBy isWhitespace ((lexeme :: rest).flatMap read) =
          rest.flatMap words := by
        intro hread
        rw [List.flatMap_cons, hread, ← hrest]
        exact wordsBy_cons_blank hspace _
      cases lexeme with
      | word text =>
          obtain ⟨hne, htext⟩ := h (.word text) List.mem_cons_self
          have hword : ∀ c ∈ text.map Char.toLower, isWhitespace c = false := by
            intro c hc
            obtain ⟨d, hd, rfl⟩ := List.mem_map.mp hc
            exact (wordCharacter_spec (htext d hd)).1
          have hmap : text.map Char.toLower ≠ [] := by simpa using hne
          cases rest with
          | nil => simpa [read, words] using wordsBy_word hword hmap
          | cons next more =>
              -- the next lexeme is no word, so a space is read of it
              have hsep := (List.isChain_cons_cons.mp hchain).1
              have hread : next.read = [' '] := by
                cases next with
                | word other => exact absurd hsep id
                | mark c => rfl
                | lineComment other => rfl
                | blockComment other => rfl
                | quoted quote other => rfl
              rw [List.flatMap_cons, hread, List.singleton_append, wordsBy_cons_blank hspace]
                at hrest
              show wordsBy isWhitespace
                (text.map Char.toLower ++ (next.read ++ more.flatMap read)) =
                [text.map Char.toLower] ++ (next :: more).flatMap words
              rw [hread, List.singleton_append, wordsBy_word_append hword hmap hspace, hrest]
              rfl
      | mark c => exact hblank rfl
      | lineComment text => exact hblank rfl
      | blockComment text => exact hblank rfl
      | quoted quote text => exact hblank rfl

end Lexeme

/-- What the policy looks at is the words of the script. -/
theorem words_normalize (script : Script) :
    wordsBy isWhitespace (' ' :: normalizeFrom .code script.text) = script.words := by
  unfold Script.text
  rw [wordsBy_cons_blank (by decide),
    Lexeme.normalizeFrom_flatMap script.wellFormed script.separate]
  exact Lexeme.wordsBy_flatMap script.wellFormed script.separate

/-! ## Verdicts -/

theorem compact_eq (normalized : List Char) :
    compact normalized = framed ' ' (if wordsBy isWhitespace normalized = [] then [[]]
      else wordsBy isWhitespace normalized) := by
  have hjoin : ∀ words : List (List Char), words ≠ [] →
      [' '].intercalate words ++ [' '] = words.flatMap fun word => word ++ [' '] := by
    intro words hwords
    induction words with
    | nil => exact absurd rfl hwords
    | cons word rest ih =>
        cases rest with
        | nil => simp
        | cons next more =>
            have hmore := ih (List.cons_ne_nil next more)
            rw [List.intercalate_cons_cons, List.append_assoc, List.append_assoc, hmore]
            simp
  unfold compact framed
  by_cases hempty : wordsBy isWhitespace normalized = []
  · rw [if_pos hempty, hempty]
    rfl
  · rw [if_neg hempty, hjoin _ hempty]

/-- Words are looked for as a text, and found as words. -/
theorem framed_isInfix_compact {pattern : List (List Char)} (hne : pattern ≠ [])
    (hpattern : ∀ word ∈ pattern, word ≠ [] ∧ ' ' ∉ word) (normalized : List Char) :
    framed ' ' pattern <:+: compact normalized ↔ pattern <:+: wordsBy isWhitespace normalized := by
  have hwords : ∀ word ∈ wordsBy isWhitespace normalized, ' ' ∉ word := by
    intro word hword hspace
    exact absurd (blank_of_mem_wordsBy hword ' ' hspace) (by decide)
  have hspaces : ∀ word ∈ pattern, ' ' ∉ word := fun word hword => (hpattern word hword).2
  rw [compact_eq]
  by_cases hempty : wordsBy isWhitespace normalized = []
  · rw [if_pos hempty, hempty, framed_isInfix hspaces (by simp)]
    constructor
    · intro hin
      obtain ⟨word, hword⟩ := List.exists_mem_of_ne_nil pattern hne
      have hmem := List.mem_singleton.mp (hin.subset hword)
      exact absurd hmem (hpattern word hword).1
    · intro hin
      exact absurd (List.infix_nil.mp hin) hne
  · rw [if_neg hempty, framed_isInfix hspaces hwords]

def dropTable : List (List Char) := ["drop".toList, "table".toList]

def replaceTable : List (List Char) := ["replace".toList, "table".toList]

/-- Why a script is refused, by its words. -/
def Script.violation? (script : Script) : Option String :=
  if dropTable <:+: script.words then some "DROP TABLE is not allowed"
  else if replaceTable <:+: script.words then some "destructive table recreate is not allowed"
  else none

theorem validateSqlNonDestructive_eq (stepId : String) (script : Script) :
    validateSqlNonDestructive stepId (String.ofList script.text) =
      (script.violation?.map (MigrationPlanError.destructiveSql stepId)).elim (.ok ()) .error := by
  have hcontains {pattern : List (List Char)} (hne : pattern ≠ [])
      (hpattern : ∀ word ∈ pattern, word ≠ [] ∧ ' ' ∉ word) :
      framed ' ' pattern <:+: normalizeSqlForPolicy (String.ofList script.text) ↔
        pattern <:+: script.words := by
    unfold normalizeSqlForPolicy
    rw [framed_isInfix_compact hne hpattern, String.toList_ofList, words_normalize]
  have hdrop : " drop table ".toList <:+: normalizeSqlForPolicy (String.ofList script.text) ↔
      dropTable <:+: script.words := by
    have hframed : framed ' ' dropTable = " drop table ".toList := by decide
    rw [← hframed]
    exact hcontains (by decide) (by decide)
  have hreplace : " replace table ".toList <:+: normalizeSqlForPolicy (String.ofList script.text) ↔
      replaceTable <:+: script.words := by
    have hframed : framed ' ' replaceTable = " replace table ".toList := by decide
    rw [← hframed]
    exact hcontains (by decide) (by decide)
  have hcreate : " create or replace table ".toList <:+:
        normalizeSqlForPolicy (String.ofList script.text) →
      replaceTable <:+: script.words := by
    intro hin
    have hlonger : " replace table ".toList <:+: " create or replace table ".toList :=
      ⟨" create or".toList, [], by decide⟩
    exact hreplace.mp (hlonger.trans hin)
  unfold validateSqlNonDestructive Script.violation?
  dsimp only
  by_cases hdropped : dropTable <:+: script.words
  · rw [if_pos (hdrop.mpr hdropped), if_pos hdropped]
    rfl
  · rw [if_neg (mt hdrop.mp hdropped), if_neg hdropped]
    by_cases hreplaced : replaceTable <:+: script.words
    · rw [if_pos (.inr (hreplace.mpr hreplaced)), if_pos hreplaced]
      rfl
    · have hclean := not_or.mpr ⟨mt hcreate hreplaced, mt hreplace.mp hreplaced⟩
      rw [if_neg hclean, if_neg hreplaced]
      rfl

/-- The step of a script. -/
def stepOf (script : String × Script) : MigrationStep :=
  ⟨script.1, .postgres, String.ofList script.2.text⟩

/-- The plan a catalogue is checked as. -/
def planOf (scripts : List (String × Script)) : MigrationPlan where
  dialect := .postgres
  steps := scripts.map stepOf

/-- The error of one script. -/
def violationOf (script : String × Script) : Option MigrationPlanError :=
  script.2.violation?.map (.destructiveSql script.1)

/-- A plan is refused for its first script whose code has the words of a
destructive statement one after the other, whatever stands in comments and
quotes, whatever the case and whatever is between the words, and for nothing
else. -/
theorem validate_plan_non_destructive_eq (scripts : List (String × Script)) :
    validatePlanNonDestructive (planOf scripts) =
      (scripts.findSome? violationOf).elim (.ok ()) .error := by
  have hstep (script : String × Script) :
      validateStep (planOf scripts) (stepOf script) = (violationOf script).elim (.ok ()) .error :=
        by
    have hsql := validateSqlNonDestructive_eq script.1 script.2
    simp only [validateStep, planOf, stepOf, violationOf] at hsql ⊢
    simpa using hsql
  have hloop : ∀ rest : List (String × Script),
      (rest.map stepOf).forM (validateStep (planOf scripts)) =
        (rest.findSome? violationOf).elim (.ok ()) .error := by
    intro rest
    induction rest with
    | nil => rfl
    | cons script rest ih =>
        have hcons : ((script :: rest).map stepOf).forM (validateStep (planOf scripts)) =
            (validateStep (planOf scripts) (stepOf script) >>= fun _ =>
              (rest.map stepOf).forM (validateStep (planOf scripts))) := rfl
        rw [hcons, hstep, ih, List.findSome?_cons]
        cases violationOf script with
        | none => rfl
        | some e => rfl
  exact hloop scripts

/-- `select 'drop table'-- drop table`: the words are in quotes and in a comment. -/
def quotedDrop : Script where
  lexemes := [.word "select".toList, .mark ' ', .quoted '\'' "drop table".toList,
    .lineComment " drop table".toList]
  wellFormed := by decide
  separate := by decide

/-- `DROP/* 'x' */Table t`: a comment stands between the words. -/
def commentedDrop : Script where
  lexemes := [.word "DROP".toList, .blockComment " 'x' ".toList, .word "Table".toList, .mark ' ',
    .word "t".toList]
  wellFormed := by decide
  separate := by decide

theorem validate_plan_non_destructive_sample :
    validatePlanNonDestructive (planOf [("quoted", quotedDrop), ("commented", commentedDrop)]) =
      .error (.destructiveSql "commented" "DROP TABLE is not allowed") := by
  rw [validate_plan_non_destructive_eq]
  rfl

end Conduit.Database
