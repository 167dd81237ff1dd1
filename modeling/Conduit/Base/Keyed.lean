import Mathlib

/-!
# Folds by key

A `BTreeMap` filled by a loop: each element changes the entry of its key,
which starts from an initial value. What ends up under a key is the fold of
the elements with that key alone, so the order between different keys does not
matter.
-/

namespace Base.Keyed

variable {κ α ε : Type} [LinearOrder κ]

/-! ## Maps as sorted lists -/

/-- Change the entry of a key, or insert it where it belongs. -/
def upsert (key : κ) (initial : α) (f : α → α) : List (κ × α) → List (κ × α)
  | [] => [(key, f initial)]
  | (k, a) :: entries =>
      if key < k then (key, f initial) :: (k, a) :: entries
      else if key = k then (k, f a) :: entries
      else (k, a) :: upsert key initial f entries

def get (entries : List (κ × α)) (key : κ) : Option α :=
  match entries with
  | [] => none
  | (k, a) :: entries => if k = key then some a else get entries key

def Sorted (entries : List (κ × α)) : Prop := (entries.map Prod.fst).Pairwise (· < ·)

@[simp] theorem get_nil (key : κ) : get ([] : List (κ × α)) key = none := rfl

theorem get_cons (k key : κ) (a : α) (entries : List (κ × α)) :
    get ((k, a) :: entries) key = if k = key then some a else get entries key := rfl

theorem get_none_of_lt {entries : List (κ × α)} {key : κ} (h : ∀ entry ∈ entries, key < entry.1) :
    get entries key = none := by
  induction entries with
  | nil => rfl
  | cons entry entries ih =>
      obtain ⟨k, a⟩ := entry
      rw [get_cons, if_neg (h (k, a) List.mem_cons_self).ne']
      exact ih fun other hmem => h other (List.mem_cons_of_mem _ hmem)

/-- A pair of a sorted list is what its key gives. -/
theorem get_of_mem {entries : List (κ × α)} {entry : κ × α} (h : Sorted entries)
    (hmem : entry ∈ entries) : get entries entry.1 = some entry.2 := by
  induction entries with
  | nil => exact absurd hmem List.not_mem_nil
  | cons first entries ih =>
      obtain ⟨hall, hsorted⟩ := List.pairwise_cons.mp h
      rw [get_cons]
      rcases List.mem_cons.mp hmem with rfl | hlater
      · rw [if_pos rfl]
      · have hlt : first.1 < entry.1 := hall _ (List.mem_map_of_mem hlater)
        rw [if_neg hlt.ne]
        exact ih hsorted hlater

theorem sorted_nil : Sorted ([] : List (κ × α)) := List.Pairwise.nil

theorem sorted_cons {k : κ} {a : α} {entries : List (κ × α)} :
    Sorted ((k, a) :: entries) ↔ (∀ entry ∈ entries, k < entry.1) ∧ Sorted entries := by
  unfold Sorted
  rw [List.map_cons, List.pairwise_cons]
  simp

theorem get_upsert (key : κ) (initial : α) (f : α → α) {entries : List (κ × α)}
    (h : Sorted entries) (other : κ) :
    get (upsert key initial f entries) other =
      if key = other then some (f ((get entries key).getD initial)) else get entries other := by
  induction entries with
  | nil =>
      unfold upsert
      rw [get_cons]
      rfl
  | cons entry entries ih =>
      obtain ⟨k, a⟩ := entry
      obtain ⟨hall, hsorted⟩ := sorted_cons.mp h
      unfold upsert
      by_cases hlt : key < k
      · have habsent : get ((k, a) :: entries) key = none := by
          refine get_none_of_lt fun entry hmem => ?_
          rcases List.mem_cons.mp hmem with rfl | hmem
          · exact hlt
          · exact hlt.trans (hall entry hmem)
        rw [if_pos hlt, get_cons, habsent]
        rfl
      · rw [if_neg hlt]
        by_cases heq : key = k
        · subst heq
          rw [if_pos rfl, get_cons, get_cons, if_pos rfl, get_cons]
          by_cases hother : key = other
          · rw [if_pos hother, if_pos hother]
            rfl
          · rw [if_neg hother, if_neg hother, if_neg hother]
        · rw [if_neg heq, get_cons, get_cons, ih hsorted, if_neg (Ne.symm heq), get_cons]
          by_cases hk : k = other
          · rw [if_pos hk, if_pos hk, if_neg fun hother => heq (hother.trans hk.symm)]
          · rw [if_neg hk, if_neg hk]

theorem mem_upsert {key : κ} {initial : α} {f : α → α} {entries : List (κ × α)} {entry : κ × α}
    (h : entry ∈ upsert key initial f entries) : entry.1 = key ∨ ∃ a, (entry.1, a) ∈ entries := by
  induction entries with
  | nil => exact .inl (congrArg Prod.fst (List.mem_singleton.mp h))
  | cons first entries ih =>
      obtain ⟨k, a⟩ := first
      unfold upsert at h
      split_ifs at h with hlt heq
      · rcases List.mem_cons.mp h with rfl | h
        · exact .inl rfl
        · exact .inr ⟨entry.2, h⟩
      · rcases List.mem_cons.mp h with rfl | h
        · exact .inr ⟨a, List.mem_cons_self⟩
        · exact .inr ⟨entry.2, List.mem_cons_of_mem _ h⟩
      · rcases List.mem_cons.mp h with rfl | h
        · exact .inr ⟨a, List.mem_cons_self⟩
        · rcases ih h with hkey | ⟨b, hb⟩
          · exact .inl hkey
          · exact .inr ⟨b, List.mem_cons_of_mem _ hb⟩

theorem sorted_upsert (key : κ) (initial : α) (f : α → α) {entries : List (κ × α)}
    (h : Sorted entries) : Sorted (upsert key initial f entries) := by
  induction entries with
  | nil => exact List.pairwise_singleton _ _
  | cons entry entries ih =>
      obtain ⟨k, a⟩ := entry
      obtain ⟨hall, hsorted⟩ := sorted_cons.mp h
      unfold upsert
      split_ifs with hlt heq
      · refine sorted_cons.mpr ⟨fun entry hmem => ?_, h⟩
        rcases List.mem_cons.mp hmem with rfl | hmem
        · exact hlt
        · exact hlt.trans (hall entry hmem)
      · exact sorted_cons.mpr ⟨hall, hsorted⟩
      · refine sorted_cons.mpr ⟨fun entry hmem => ?_, ih hsorted⟩
        rcases mem_upsert hmem with hkey | ⟨b, hb⟩
        · rw [hkey]
          exact lt_of_le_of_ne (not_lt.mp hlt) (Ne.symm heq)
        · exact hall (entry.1, b) hb

/-- A sorted map is determined by its lookups. -/
theorem ext_get {entries others : List (κ × α)} (h : Sorted entries) (h' : Sorted others)
    (hget : ∀ key, get entries key = get others key) : entries = others := by
  induction entries generalizing others with
  | nil =>
      cases others with
      | nil => rfl
      | cons other others =>
          have hfirst := hget other.1
          rw [get_cons, if_pos rfl] at hfirst
          exact absurd hfirst (by simp)
  | cons entry entries ih =>
      obtain ⟨k, a⟩ := entry
      obtain ⟨hall, hsorted⟩ := sorted_cons.mp h
      cases others with
      | nil =>
          have hfirst := hget k
          rw [get_cons, if_pos rfl] at hfirst
          exact absurd hfirst (by simp)
      | cons other others =>
          obtain ⟨k', a'⟩ := other
          obtain ⟨hall', hsorted'⟩ := sorted_cons.mp h'
          have hkey : k = k' := by
            rcases lt_trichotomy k k' with hlt | heq | hgt
            · have hk := hget k
              rw [get_cons, if_pos rfl, get_cons, if_neg hlt.ne',
                get_none_of_lt fun entry hmem => hlt.trans (hall' entry hmem)] at hk
              exact absurd hk (by simp)
            · exact heq
            · have hk := hget k'
              rw [get_cons, if_neg hgt.ne', get_cons, if_pos rfl,
                get_none_of_lt fun entry hmem => hgt.trans (hall entry hmem)] at hk
              exact absurd hk (by simp)
          subst hkey
          have hvalue := hget k
          rw [get_cons, if_pos rfl, get_cons, if_pos rfl] at hvalue
          rw [Option.some.inj hvalue, ih hsorted hsorted' fun key => ?_]
          have hk := hget key
          rw [get_cons, get_cons] at hk
          by_cases heq : k = key
          · subst heq
            rw [get_none_of_lt hall, get_none_of_lt hall']
          · rw [if_neg heq, if_neg heq] at hk
            exact hk

/-! ## Entries that are new, and entries that go -/

/-- `entry(key).or_insert`. -/
def insertNew (entries : List (κ × α)) (entry : κ × α) : List (κ × α) :=
  upsert entry.1 entry.2 id entries

theorem get_insertNew {entries : List (κ × α)} (h : Sorted entries) (entry : κ × α) (key : κ) :
    get (insertNew entries entry) key =
      (get entries key).or (if entry.1 = key then some entry.2 else none) := by
  unfold insertNew
  rw [get_upsert _ _ _ h]
  by_cases hkey : entry.1 = key
  · rw [if_pos hkey, if_pos hkey, hkey]
    cases get entries key <;> rfl
  · rw [if_neg hkey, if_neg hkey, Option.or_none]

theorem sorted_insertNew {entries : List (κ × α)} (h : Sorted entries) (entry : κ × α) :
    Sorted (insertNew entries entry) := sorted_upsert _ _ _ h

theorem sorted_insertAll {entries : List (κ × α)} (h : Sorted entries) (new : List (κ × α)) :
    Sorted (new.foldl insertNew entries) := by
  induction new generalizing entries with
  | nil => exact h
  | cons entry new ih => exact ih (sorted_insertNew h entry)

/-- The first of a key wins. -/
theorem get_insertAll {entries : List (κ × α)} (h : Sorted entries) (new : List (κ × α)) (key : κ) :
    get (new.foldl insertNew entries) key =
      (get entries key).or ((new.find? fun entry => entry.1 = key).map Prod.snd) := by
  induction new generalizing entries with
  | nil => exact (Option.or_none).symm
  | cons entry new ih =>
      rw [List.foldl_cons, ih (sorted_insertNew h entry), get_insertNew h, Option.or_assoc]
      by_cases hkey : entry.1 = key
      · rw [if_pos hkey, List.find?_cons_of_pos (by simpa using hkey)]
        rfl
      · rw [if_neg hkey, List.find?_cons_of_neg (by simpa using hkey), Option.none_or]

theorem sorted_filter {entries : List (κ × α)} (h : Sorted entries) (keep : κ × α → Bool) :
    Sorted (entries.filter keep) := by
  unfold Sorted at h ⊢
  exact h.sublist (List.filter_sublist.map Prod.fst)

/-- `retain`. -/
theorem get_filter {entries : List (κ × α)} (h : Sorted entries) (keep : κ × α → Bool) (key : κ) :
    get (entries.filter keep) key = (get entries key).filter fun a => keep (key, a) := by
  induction entries with
  | nil => rfl
  | cons entry entries ih =>
      obtain ⟨k, a⟩ := entry
      obtain ⟨hall, hsorted⟩ := sorted_cons.mp h
      rw [get_cons]
      by_cases hkey : k = key
      · subst hkey
        rw [if_pos rfl]
        cases hkeep : keep (k, a) with
        | true =>
            rw [List.filter_cons_of_pos hkeep, get_cons, if_pos rfl, Option.filter_some, if_pos hkeep]
        | false =>
            rw [List.filter_cons_of_neg (by simp [hkeep]), ih hsorted, get_none_of_lt hall,
              Option.filter_some, if_neg (by simp [hkeep]), Option.filter_none]
      · rw [if_neg hkey, ← ih hsorted]
        cases hkeep : keep (k, a) with
        | true => rw [List.filter_cons_of_pos hkeep, get_cons, if_neg hkey]
        | false => rw [List.filter_cons_of_neg (by simp [hkeep])]

theorem mem_of_get {entries : List (κ × α)} {key : κ} {a : α} (h : get entries key = some a) :
    (key, a) ∈ entries := by
  induction entries with
  | nil => exact absurd h (by simp)
  | cons entry entries ih =>
      obtain ⟨k, b⟩ := entry
      rw [get_cons] at h
      by_cases hkey : k = key
      · rw [if_pos hkey] at h
        rw [← hkey, Option.some.inj h]
        exact List.mem_cons_self
      · rw [if_neg hkey] at h
        exact List.mem_cons_of_mem _ (ih h)

/-! ## The fold -/

section Fold

variable (key : ε → κ) (initial : κ → α) (f : ε → α → α)

/-- One element. -/
def insert (entries : List (κ × α)) (e : ε) : List (κ × α) :=
  upsert (key e) (initial (key e)) (f e) entries

def foldFrom (entries : List (κ × α)) (elements : List ε) : List (κ × α) :=
  elements.foldl (insert key initial f) entries

def fold (elements : List ε) : List (κ × α) := foldFrom key initial f [] elements

theorem sorted_foldFrom {entries : List (κ × α)} (h : Sorted entries) (elements : List ε) :
    Sorted (foldFrom key initial f entries elements) := by
  induction elements generalizing entries with
  | nil => exact h
  | cons e elements ih => exact ih (sorted_upsert _ _ _ h)

theorem sorted_fold (elements : List ε) : Sorted (fold key initial f elements) :=
  sorted_foldFrom key initial f sorted_nil elements

/-- Under a key: the elements with that key, one after the other. -/
theorem get_foldFrom {entries : List (κ × α)} (h : Sorted entries) (elements : List ε) (k : κ) :
    get (foldFrom key initial f entries elements) k =
      if (elements.filter fun e => key e = k) = [] then get entries k
      else some ((elements.filter fun e => key e = k).foldl (fun a e => f e a)
        ((get entries k).getD (initial k))) := by
  induction elements generalizing entries with
  | nil => rfl
  | cons e elements ih =>
      show get (foldFrom key initial f (insert key initial f entries e) elements) k = _
      have hinsert : Sorted (insert key initial f entries e) := sorted_upsert _ _ _ h
      rw [ih hinsert]
      unfold insert
      rw [get_upsert _ _ _ h]
      by_cases hkey : key e = k
      · subst hkey
        rw [if_pos rfl, List.filter_cons_of_pos (by simp), if_neg (List.cons_ne_nil _ _)]
        by_cases hrest : (elements.filter fun e' => key e' = key e) = []
        · rw [if_pos hrest, hrest]
          rfl
        · rw [if_neg hrest]
          rfl
      · rw [if_neg hkey, List.filter_cons_of_neg (by simpa using hkey)]

theorem get_fold (elements : List ε) (k : κ) :
    get (fold key initial f elements) k =
      if (elements.filter fun e => key e = k) = [] then none
      else some ((elements.filter fun e => key e = k).foldl (fun a e => f e a) (initial k)) := by
  unfold fold
  rw [get_foldFrom key initial f sorted_nil]
  rfl

end Fold

end Base.Keyed
