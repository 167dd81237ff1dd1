import Conduit.Base.Text
import Conduit.Base.Words
import Mathlib.Tactic.Common

/-!
# Cutting a migration into statements

`split_ddl_statements` reads a migration line by line and cuts it behind each
line whose code ends in a semicolon, unless a dollar quote is open there. It
is the general reader of shortest groups over the lines, where a group closes
when it ends so; what it cuts off is white space only.
-/

namespace Conduit.Database

open Base Base.Text

/-! ## Lines -/

/-- The line feed of a line takes a carriage return before it along. -/
def stripReturn (line : List Char) : List Char :=
  if line.getLast? = some '\r' then line.dropLast else line

/-- `str::lines`, with what the current line has so far. -/
def linesFrom (line : List Char) : List Char → List (List Char)
  | [] => if line = [] then [] else [line]
  | c :: text =>
      if c = '\n' then stripReturn line :: linesFrom [] text else linesFrom (line ++ [c]) text

def lines (sql : String) : List (List Char) := linesFrom [] sql.toList

/-- A line up to its comment. -/
def codeOf (line : List Char) : List Char :=
  match splitAtFirst ['-', '-'] line with
  | some (code, _) => code
  | none => line

/-! ## Dollar quotes -/

def isTagCharacter (c : Char) : Bool := c.isAlphanum || c = '_'

/-- The delimiter that is open behind a line's code, from the one open before
it. Every round but the last consumes a dollar sign, so the length of the code
is fuel enough. -/
def scan : Nat → Option (List Char) → List Char → Option (List Char)
  | 0, dollarQuote, _ => dollarQuote
  | fuel + 1, some delimiter, code =>
      match splitAtFirst delimiter code with
      | none => some delimiter
      | some (_, rest) => scan fuel none rest
  | fuel + 1, none, code =>
      match splitAtFirst ['$'] code with
      | none => none
      | some (_, afterStart) =>
          match splitAtFirst ['$'] afterStart with
          | none => none
          | some (tag, rest) =>
              if tag.all isTagCharacter then scan fuel (some ('$' :: tag ++ ['$'])) rest
              else scan fuel none afterStart

def dollarQuoteAfter (dollarQuote : Option (List Char)) (line : List Char) : Option (List Char) :=
  scan (codeOf line).length dollarQuote (codeOf line)

/-- `code.trim_end().ends_with(';')`. -/
def endsInSemicolon (line : List Char) : Bool :=
  (trimEnd isWhitespace (codeOf line)).getLast? = some ';'

/-! ## The splitter -/

structure Splitter where
  statements : List String := []
  current : List Char := []
  dollarQuote : Option (List Char) := none

/-- The statement made of these characters, if there is any. -/
def statement? (current : List Char) : List String :=
  let statement := trim (String.ofList current)
  if statement = "" then [] else [statement]

/-- One round of the loop over the lines. -/
def Splitter.push (s : Splitter) (line : List Char) : Splitter :=
  let current := s.current ++ line ++ ['\n']
  let dollarQuote := dollarQuoteAfter s.dollarQuote line
  if dollarQuote = none ∧ endsInSemicolon line = true then
    { statements := s.statements ++ statement? current }
  else { s with current := current, dollarQuote := dollarQuote }

def splitDdlStatements (sql : String) : List String :=
  let s := (lines sql).foldl Splitter.push {}
  s.statements ++ statement? s.current

example : splitDdlStatements
      "CREATE FUNCTION f() AS $$\nBEGIN;\nEND;\n$$ LANGUAGE plpgsql;\n\nCREATE INDEX i ON t(id);" =
    ["CREATE FUNCTION f() AS $$\nBEGIN;\nEND;\n$$ LANGUAGE plpgsql;", "CREATE INDEX i ON t(id);"] :=
      by
  decide

/-! ## White space -/

/-- The characters that are no white space. -/
def visible (text : List Char) : List Char := text.filter fun c => !isWhitespace c

@[simp] theorem visible_nil : visible [] = [] := rfl

@[simp] theorem visible_append (a b : List Char) : visible (a ++ b) = visible a ++ visible b :=
  List.filter_append a b

theorem visible_dropWhile (text : List Char) : visible (text.dropWhile isWhitespace) =
    visible text := by
  unfold visible
  induction text with
  | nil => rfl
  | cons c text ih =>
      by_cases hc : isWhitespace c = true
      · rw [List.dropWhile_cons_of_pos hc, ih, List.filter_cons_of_neg (by simp [hc])]
      · rw [List.dropWhile_cons_of_neg hc]

theorem visible_trimEnd (text : List Char) : visible (trimEnd isWhitespace text) = visible text :=
    by
  have hreverse (l : List Char) : visible l.reverse = (visible l).reverse := List.filter_reverse
  unfold trimEnd
  rw [hreverse, visible_dropWhile, hreverse, List.reverse_reverse]

/-- Trimming takes white space only. -/
@[simp] theorem visible_trim (text : String) : visible (trim text).toList = visible text.toList :=
    by
  unfold trim trimmed
  rw [String.toList_ofList, visible_trimEnd, visible_dropWhile]

/-- Leaving out an empty statement loses nothing either. -/
theorem visible_statement? (current : List Char) :
    (statement? current).flatMap (fun s => visible s.toList) = visible current := by
  have htrim := visible_trim (String.ofList current)
  rw [String.toList_ofList] at htrim
  unfold statement?
  by_cases hempty : trim (String.ofList current) = ""
  · rw [hempty] at htrim
    simpa [hempty] using htrim
  · simp [hempty, htrim]

theorem visible_stripReturn (line : List Char) : visible (stripReturn line) = visible line := by
  unfold stripReturn
  by_cases hreturn : line.getLast? = some '\r'
  · obtain ⟨start, rfl⟩ := List.getLast?_eq_some_iff.mp hreturn
    have hblank : visible ['\r'] = [] := by decide
    simp [hblank]
  · rw [if_neg hreturn]

theorem visible_linesFrom (text : List Char) : ∀ line : List Char,
    (linesFrom line text).flatMap visible = visible line ++ visible text := by
  induction text with
  | nil =>
      intro line
      unfold linesFrom
      by_cases hline : line = []
      · simp [hline]
      · simp [hline]
  | cons c text ih =>
      intro line
      unfold linesFrom
      by_cases hc : c = '\n'
      · have hblank : visible ('\n' :: text) = visible text := by
          unfold visible
          exact List.filter_cons_of_neg (by decide)
        rw [if_pos hc, List.flatMap_cons, ih, visible_stripReturn, hc, hblank]
        rfl
      · have hcons : visible (c :: text) = visible [c] ++ visible text := visible_append [c] text
        rw [if_neg hc, ih, visible_append, hcons, List.append_assoc]

/-! ## Groups of lines -/

/-- The delimiter open after a group of lines. -/
def openAfter (group : List (List Char)) : Option (List Char) := group.foldl dollarQuoteAfter none

/-- A group of lines closes when its last line's code ends in a semicolon
outside of a dollar quote. -/
def closes (group : List (List Char)) : Bool :=
  openAfter group = none ∧ group.getLast?.any endsInSemicolon = true

def textOf (group : List (List Char)) : List Char := group.flatMap fun line => line ++ ['\n']

/-- A group as it is executed. -/
def statementOf (group : List (List Char)) : String := trim (String.ofList (textOf group))

theorem openAfter_concat (group : List (List Char)) (line : List Char) :
    openAfter (group ++ [line]) = dollarQuoteAfter (openAfter group) line := by
  simp [openAfter]

theorem textOf_concat (group : List (List Char)) (line : List Char) :
    textOf (group ++ [line]) = textOf group ++ line ++ ['\n'] := by
  simp [textOf]

theorem closes_concat (group : List (List Char)) (line : List Char) :
    closes (group ++ [line]) = true ↔
      dollarQuoteAfter (openAfter group) line = none ∧ endsInSemicolon line = true := by
  simp [closes, openAfter_concat]

theorem mem_of_splitAtFirst {pattern before after : List Char} {c : Char} (hc : c ∈ before) :
    ∀ text, splitAtFirst pattern text = some (before, after) → c ∈ text := by
  intro text
  induction text generalizing before with
  | nil =>
      intro h
      unfold splitAtFirst at h
      split at h
      · simp_all
      · cases h
  | cons d text ih =>
      intro h
      unfold splitAtFirst at h
      split at h
      · simp_all
      · obtain ⟨parts, hparts, heq⟩ := Option.map_eq_some_iff.mp h
        obtain ⟨rfl, rfl⟩ := Prod.mk.inj heq
        rcases List.mem_cons.mp hc with rfl | hc
        · exact List.mem_cons_self
        · exact List.mem_cons_of_mem d (ih hc hparts)

theorem mem_of_codeOf {line : List Char} {c : Char} (h : c ∈ codeOf line) : c ∈ line := by
  unfold codeOf at h
  split at h
  · rename_i code _ hsplit
    exact mem_of_splitAtFirst h line hsplit
  · exact h

/-- A line that ends in a semicolon makes a statement. -/
theorem statement?_of_endsInSemicolon {line : List Char} (h : endsInSemicolon line = true)
    (text : List Char) :
    statement? (text ++ line ++ ['\n']) = [trim (String.ofList (text ++ line ++ ['\n']))] := by
  unfold endsInSemicolon at h
  rw [decide_eq_true_eq] at h
  have hcode : ';' ∈ visible (codeOf line) := by
    rw [← visible_trimEnd]
    exact List.mem_filter.mpr ⟨List.mem_of_getLast? h, by decide⟩
  have hline : ';' ∈ visible (text ++ line ++ ['\n']) := by
    rw [visible_append, visible_append]
    refine List.mem_append_left _ (List.mem_append_right _ ?_)
    exact List.mem_filter.mpr ⟨mem_of_codeOf (List.mem_filter.mp hcode).1, by decide⟩
  have htrim := visible_trim (String.ofList (text ++ line ++ ['\n']))
  rw [String.toList_ofList] at htrim
  refine if_neg fun hempty => ?_
  rw [hempty] at htrim
  rw [← htrim] at hline
  exact absurd hline List.not_mem_nil

/-- The splitter after some lines: a pending group is its current text and
the quote open in it. -/
theorem foldl_push (ls : List (List Char)) : ∀ (statements : List String)
    (group : List (List Char)),
    ls.foldl Splitter.push ⟨statements, textOf group, openAfter group⟩ =
      ⟨statements ++ (Segments.cut closes group ls).1.map statementOf,
        textOf (Segments.cut closes group ls).2, openAfter (Segments.cut closes group ls).2⟩ := by
  induction ls with
  | nil =>
      intro statements group
      simp [Segments.cut]
  | cons line ls ih =>
      intro statements group
      have hcloses := closes_concat group line
      rw [List.foldl_cons]
      by_cases hends : closes (group ++ [line]) = true
      · have hpush : Splitter.push ⟨statements, textOf group, openAfter group⟩ line =
            ⟨statements ++ [statementOf (group ++ [line])], textOf [], openAfter []⟩ := by
          unfold Splitter.push
          dsimp only
          rw [if_pos (hcloses.mp hends), statement?_of_endsInSemicolon (hcloses.mp hends).2]
          unfold statementOf
          rw [textOf_concat]
          rfl
        rw [hpush, ih]
        simp [Segments.cut, hends]
      · have hpush : Splitter.push ⟨statements, textOf group, openAfter group⟩ line =
            ⟨statements, textOf (group ++ [line]), openAfter (group ++ [line])⟩ := by
          unfold Splitter.push
          dsimp only
          rw [if_neg (mt hcloses.mpr hends), textOf_concat, openAfter_concat]
        rw [hpush, ih]
        simp [Segments.cut, hends]

theorem splitDdlStatements_eq (sql : String) :
    splitDdlStatements sql = (Segments.cut closes [] (lines sql)).1.map statementOf ++
      statement? (textOf (Segments.cut closes [] (lines sql)).2) := by
  have hrun := foldl_push (lines sql) [] []
  unfold splitDdlStatements
  dsimp only
  rw [show ({} : Splitter) = ⟨[], textOf [], openAfter []⟩ from rfl, hrun]
  rfl

theorem visible_textOf (group : List (List Char)) : visible (textOf group) =
    group.flatMap visible := by
  induction group with
  | nil => rfl
  | cons line group ih =>
      have hblank : visible ['\n'] = [] := by decide
      show visible (line ++ ['\n'] ++ textOf group) = visible line ++ group.flatMap visible
      rw [visible_append, visible_append, hblank, List.append_nil, ih]

/-- A migration's statements are its lines in order, each statement the
shortest run of lines that ends in a semicolon outside of a dollar quote, and
what the splitter takes away is white space only. -/
theorem split_ddl_statements_spec (sql : String) : ∃ (groups : List (List (List Char)))
    (tail : List (List Char)),
    lines sql = groups.flatten ++ tail ∧
      (∀ group ∈ groups, Segments.Shortest closes group) ∧ Segments.Unfinished closes tail ∧
      splitDdlStatements sql = groups.map statementOf ++ statement? (textOf tail) ∧
      (splitDdlStatements sql).flatMap (fun s => visible s.toList) = visible sql.toList := by
  have hnil : Segments.Unfinished closes [] := Segments.unfinished_nil
  obtain ⟨hflatten, hshortest, htail⟩ := Segments.cut_spec (lines sql) [] hnil
  refine ⟨_, _, hflatten.symm, hshortest, htail, splitDdlStatements_eq sql, ?_⟩
  have hgroups (groups : List (List (List Char))) :
      (groups.map statementOf).flatMap (fun s => visible s.toList) =
      groups.flatten.flatMap visible := by
    induction groups with
    | nil => rfl
    | cons group groups ih =>
        rw [List.map_cons, List.flatMap_cons, List.flatten_cons, List.flatMap_append, ih]
        unfold statementOf
        rw [visible_trim, String.toList_ofList, visible_textOf]
  rw [splitDdlStatements_eq, List.flatMap_append, hgroups, visible_statement?, visible_textOf,
    ← List.flatMap_append, hflatten, List.nil_append]
  exact visible_linesFrom sql.toList []

end Conduit.Database
