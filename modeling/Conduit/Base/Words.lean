import Mathlib.Data.List.Basic

/-!
# Words between blanks

The words of a text are its longest runs without a blank. Framed, that is with
one separator before, between and after them, words occur in a text exactly
when they occur one after the other among its words (`framed_isInfix`).
-/

namespace Base

variable {α : Type}

/-- The longest runs without a blank. -/
def wordsBy (blank : α → Bool) (text : List α) : List (List α) :=
  (text.splitOnP blank).filter fun word => !word.isEmpty

section WordsBy

variable {blank : α → Bool} {word : List α}

theorem wordsBy_nil : wordsBy blank [] = [] := by
  unfold wordsBy
  rw [List.splitOnP_nil]
  rfl

theorem wordsBy_cons_blank {c : α} (hc : blank c = true) (text : List α) :
    wordsBy blank (c :: text) = wordsBy blank text := by
  have hsplit := List.splitOnP_append_cons [] text hc
  unfold wordsBy
  rw [List.nil_append, List.splitOnP_nil] at hsplit
  rw [hsplit]
  rfl

variable (hword : ∀ c ∈ word, blank c = false) (hne : word ≠ [])

include hword hne in
theorem wordsBy_word : wordsBy blank word = [word] := by
  unfold wordsBy
  rw [List.splitOnP_eq_singleton hword]
  simpa using hne

include hword hne in
theorem wordsBy_word_append {c : α} (hc : blank c = true) (text : List α) :
    wordsBy blank (word ++ c :: text) = word :: wordsBy blank text := by
  unfold wordsBy
  rw [List.splitOnP_append_cons word text hc, List.splitOnP_eq_singleton hword]
  exact List.filter_cons_of_pos (by simpa using hne)

/-- A word is made of characters that are no blanks. -/
theorem blank_of_mem_wordsBy {text : List α} (h : word ∈ wordsBy blank text) :
    ∀ c ∈ word, blank c = false := by
  have hparts : ∀ text part, part ∈ List.splitOnP blank text → ∀ c ∈ part, blank c = false := by
    intro text
    induction text with
    | nil =>
        intro part hpart c hc
        rw [List.splitOnP_nil, List.mem_singleton] at hpart
        exact absurd hc (by simp [hpart])
    | cons d text ih =>
        intro part hpart c hc
        rw [List.splitOnP_cons_eq_if_modifyHead] at hpart
        by_cases hd : blank d = true
        · rw [if_pos hd] at hpart
          rcases List.mem_cons.mp hpart with rfl | hpart
          · exact absurd hc List.not_mem_nil
          · exact ih part hpart c hc
        · rw [if_neg hd] at hpart
          cases hsplit : List.splitOnP blank text with
          | nil => exact absurd hsplit (List.splitOnP_ne_nil blank text)
          | cons first rest =>
              rw [hsplit, List.modifyHead_cons] at hpart
              rcases List.mem_cons.mp hpart with rfl | hpart
              · rcases List.mem_cons.mp hc with rfl | hc
                · simpa using hd
                · exact ih first (hsplit ▸ List.mem_cons_self) c hc
              · exact ih part (hsplit ▸ List.mem_cons_of_mem _ hpart) c hc
  exact hparts text word (List.mem_filter.mp h).1

end WordsBy

/-! ## Framed words -/

/-- Words with a separator before, between and after them. -/
def framed (separator : α) (words : List (List α)) : List α :=
  separator :: words.flatMap fun word => word ++ [separator]

section Framed

variable [BEq α] [LawfulBEq α] {separator : α}

theorem splitOn_flatMap {words : List (List α)} (h : ∀ word ∈ words, separator ∉ word)
    (rest : List α) :
    (words.flatMap (fun word => word ++ [separator]) ++ rest).splitOn separator =
      words ++ rest.splitOn separator := by
  induction words with
  | nil => rfl
  | cons word words ih =>
      have hrest := ih fun w hw => h w (List.mem_cons_of_mem _ hw)
      rw [List.flatMap_cons, List.append_assoc, List.append_assoc, List.singleton_append,
        List.splitOn_append_cons_self, List.splitOn_eq_singleton (h word List.mem_cons_self), hrest]
      rfl

/-- Framed words occur in a framed text exactly when they occur among its
words. -/
theorem framed_isInfix {pattern words : List (List α)}
    (hpattern : ∀ word ∈ pattern, separator ∉ word)
    (hwords : ∀ word ∈ words, separator ∉ word) :
    framed separator pattern <:+: framed separator words ↔ pattern <:+: words := by
  constructor
  · rintro ⟨before, after, heq⟩
    have hsplit := congrArg (List.splitOn separator) heq
    have hwhole : (framed separator words).splitOn separator = [] :: (words ++ [[]]) := by
      have hrest := splitOn_flatMap hwords []
      rw [List.append_nil, List.splitOn_nil] at hrest
      have hcons := List.splitOn_append_cons_self (a := separator) []
        (words.flatMap fun word => word ++ [separator])
      rw [hrest, List.splitOn_nil] at hcons
      exact hcons
    rw [hwhole] at hsplit
    unfold framed at hsplit
    rw [List.append_assoc, List.cons_append, List.splitOn_append_cons_self,
      splitOn_flatMap hpattern] at hsplit
    -- both ends of the text are parts of the split, so the words are between them
    cases hbefore : before.splitOn separator with
    | nil => exact absurd hbefore (List.splitOn_ne_nil separator before)
    | cons first start =>
        rcases List.eq_nil_or_concat (after.splitOn separator) with hafter | ⟨last, final, hafter⟩
        · exact absurd hafter (List.splitOn_ne_nil separator after)
        · rw [hbefore, hafter, List.cons_append, List.cons.injEq, List.concat_eq_append,
            ← List.append_assoc, ← List.append_assoc] at hsplit
          exact ⟨start, last, by simpa using List.append_inj_left' hsplit.2 rfl⟩
  · rintro ⟨before, after, rfl⟩
    refine ⟨before.flatMap fun word => separator :: word,
      after.flatMap fun word => word ++ [separator], ?_⟩
    have hshift (ws : List (List α)) : (ws.flatMap fun word => separator :: word) ++ [separator] =
        separator :: ws.flatMap fun word => word ++ [separator] := by
      induction ws with
      | nil => rfl
      | cons word ws ih => simpa using ih
    have hbefore := hshift before
    unfold framed
    rw [List.flatMap_append, List.flatMap_append, ← List.cons_append, ← List.cons_append, ← hbefore]
    simp

end Framed

end Base

/-!
## Cutting a list into shortest groups

A reader that collects elements until the group is complete cuts a list into
groups. `cut` is that reader; each of its groups closes and no shorter start
of it does.
-/

namespace Base.Segments

variable {α : Type} (closes : List α → Bool)

/-- Collects into `group` until it closes; what is left over comes last. -/
def cut (group : List α) : List α → List (List α) × List α
  | [] => ([], group)
  | a :: rest =>
      if closes (group ++ [a]) then
        ((group ++ [a]) :: (cut [] rest).1, (cut [] rest).2)
      else cut (group ++ [a]) rest

/-- No start of a group closes, but for the empty one. -/
def Unfinished (group : List α) : Prop := ∀ start, start <+: group → start ≠ [] → closes start =
    false

/-- A group closes with its last element and not before. -/
def Shortest (group : List α) : Prop :=
  ∃ start last, group = start ++ [last] ∧ Unfinished closes start ∧ closes group = true

variable {closes} {group : List α} {a : α}

theorem unfinished_nil : Unfinished closes [] := by
  intro start hstart hne
  exact absurd (List.prefix_nil.mp hstart) hne

theorem Unfinished.concat (h : Unfinished closes group) (ha : closes (group ++ [a]) = false) :
    Unfinished closes (group ++ [a]) := by
  intro start hstart hne
  rcases List.prefix_concat_iff.mp hstart with rfl | hprefix
  · exact ha
  · exact h start hprefix hne

/-- The groups are the list, each is shortest, and the rest is unfinished. -/
theorem cut_spec (l : List α) : ∀ group, Unfinished closes group →
    (cut closes group l).1.flatten ++ (cut closes group l).2 = group ++ l ∧
      (∀ g ∈ (cut closes group l).1, Shortest closes g) ∧
      Unfinished closes (cut closes group l).2 := by
  induction l with
  | nil =>
      intro group hgroup
      refine ⟨(List.append_nil group).symm, ?_, hgroup⟩
      intro g hg
      exact absurd hg List.not_mem_nil
  | cons a rest ih =>
      intro group hgroup
      by_cases ha : closes (group ++ [a]) = true
      · obtain ⟨hflatten, hshortest, htail⟩ := ih [] unfinished_nil
        simp only [cut, ha, if_true]
        refine ⟨?_, ?_, htail⟩
        · rw [List.flatten_cons, List.append_assoc, hflatten]
          simp
        · intro g hg
          rcases List.mem_cons.mp hg with rfl | hg
          · exact ⟨group, a, rfl, hgroup, ha⟩
          · exact hshortest g hg
      · have hopen : closes (group ++ [a]) = false := Bool.not_eq_true _ ▸ ha
        obtain ⟨hflatten, hshortest, htail⟩ := ih (group ++ [a]) (hgroup.concat hopen)
        simp only [cut, ha]
        exact ⟨by simpa using hflatten, hshortest, htail⟩

end Base.Segments
