import Mathlib

/-!
# Append-only tables with serial ids

A table is the list of its rows; the id of a row is its position, so an
inserted row gets the length of the table as its id, ids are never reused
and never change. `updateRow` is an update by primary key, `updateWhere` an
update by predicate, `selectWhere` fetches `(id, row)` pairs in id order.

`total` is the aggregate `SUM(f)` over a table. The lemmas say what one
statement does to it: an insert adds the new row, an update by key replaces
one summand, and a change of the summand function is the total of the
difference. Invariants of the form "a stored counter equals a `SUM`" are
proved from these three.
-/

namespace Base

/-- Rows in id order; the id of a row is its position. -/
abbrev Table (α : Type) := List α

namespace Table

variable {α : Type}

/-- `INSERT`: the new row's id is the old length. -/
def insertRow (t : Table α) (row : α) : Table α := t ++ [row]

/-- `UPDATE … WHERE id = i`. -/
def updateRow (t : Table α) (i : Nat) (f : α → α) : Table α := t.modify i f

/-- `UPDATE … WHERE p`. -/
def updateWhere (t : Table α) (p : α → Bool) (f : α → α) : Table α :=
  t.map fun row => if p row then f row else row

/-- `SELECT id, * … WHERE p ORDER BY id`. -/
def selectWhere (t : Table α) (p : α → Bool) : List (Nat × α) :=
  (t.zipIdx.filter fun entry => p entry.1).map Prod.swap

/-- `SELECT id, * … WHERE p ORDER BY id LIMIT 1`. -/
def selectOne (t : Table α) (p : α → Bool) : Option (Nat × α) := (t.selectWhere p).head?

/-- `SELECT SUM(f)`. -/
def total (t : Table α) (f : α → Int) : Int := (t.map f).sum

/-- `SELECT COUNT(*) … WHERE p`. -/
def countWhere (t : Table α) (p : α → Bool) : Nat := t.countP p

/-! ## Row access -/

@[simp] theorem length_insertRow (t : Table α) (row : α) :
    (t.insertRow row).length = t.length + 1 := by simp [insertRow]

@[simp] theorem length_updateRow (t : Table α) (i : Nat) (f : α → α) :
    (t.updateRow i f).length = t.length := by simp [updateRow]

@[simp] theorem length_updateWhere (t : Table α) (p : α → Bool) (f : α → α) :
    (t.updateWhere p f).length = t.length := by simp [updateWhere]

theorem getElem?_lt {t : Table α} {i : Nat} {row : α} (h : t[i]? = some row) :
    i < t.length := (List.getElem?_eq_some_iff.mp h).1

theorem getElem?_insertRow (t : Table α) (row : α) (i : Nat) :
    (t.insertRow row)[i]? = if i = t.length then some row else t[i]? := by
  unfold insertRow
  split
  · next h => subst h; simp
  · next h =>
      rcases Nat.lt_or_ge i t.length with hlt | hge
      · rw [List.getElem?_append_left hlt]
      · rw [List.getElem?_append_right hge, List.getElem?_eq_none hge]
        exact List.getElem?_eq_none (by simp; omega)

/-- An inserted row is found under its id. -/
theorem getElem?_insertRow_self (t : Table α) (row : α) :
    (t.insertRow row)[t.length]? = some row := by rw [getElem?_insertRow, if_pos rfl]

/-- Existing rows keep their ids across an insert. -/
theorem getElem?_insertRow_of_some {t : Table α} {i : Nat} {x : α} (row : α)
    (h : t[i]? = some x) : (t.insertRow row)[i]? = some x := by
  rw [getElem?_insertRow, if_neg (Nat.ne_of_lt (getElem?_lt h)), h]

/-- A row found after an insert is the new row or was there before. -/
theorem getElem?_insertRow_cases {t : Table α} {i : Nat} {row x : α}
    (h : (t.insertRow row)[i]? = some x) :
    (i = t.length ∧ x = row) ∨ t[i]? = some x := by
  rw [getElem?_insertRow] at h
  split at h
  · exact .inl ⟨by assumption, (Option.some.inj h).symm⟩
  · exact .inr h

theorem getElem?_updateRow (t : Table α) (i j : Nat) (f : α → α) :
    (t.updateRow i f)[j]? = if i = j then (t[j]?).map f else t[j]? := by
  unfold updateRow
  rw [List.getElem?_modify]
  split <;> simp_all

theorem getElem?_updateRow_self {t : Table α} {i : Nat} {x : α} (f : α → α)
    (h : t[i]? = some x) : (t.updateRow i f)[i]? = some (f x) := by
  rw [getElem?_updateRow, if_pos rfl, h]; rfl

theorem getElem?_updateRow_ne (t : Table α) {i j : Nat} (f : α → α) (h : i ≠ j) :
    (t.updateRow i f)[j]? = t[j]? := by
  rw [getElem?_updateRow, if_neg h]

/-- A row found after an update by key is the changed row or an untouched one. -/
theorem getElem?_updateRow_cases {t : Table α} {i j : Nat} {f : α → α} {x : α}
    (h : (t.updateRow i f)[j]? = some x) :
    (i = j ∧ ∃ y, t[i]? = some y ∧ x = f y) ∨ (i ≠ j ∧ t[j]? = some x) := by
  rw [getElem?_updateRow] at h
  split at h
  · next hij =>
      subst hij
      obtain ⟨y, hy, rfl⟩ := Option.map_eq_some_iff.mp h
      exact .inl ⟨rfl, y, hy, rfl⟩
  · next hij => exact .inr ⟨hij, h⟩

/-- An insert and an update of an older row commute. -/
theorem updateRow_insertRow {t : Table α} {i : Nat} (row : α) (f : α → α) (h : i < t.length) :
    (t.insertRow row).updateRow i f = (t.updateRow i f).insertRow row := by
  refine List.ext_getElem? fun j => ?_
  rw [getElem?_updateRow, getElem?_insertRow, getElem?_insertRow, getElem?_updateRow,
    length_updateRow]
  by_cases hij : i = j
  · subst hij
    rw [if_pos rfl, if_pos rfl, if_neg (Nat.ne_of_lt h)]
    rw [if_neg (Nat.ne_of_lt h)]
  · rw [if_neg hij, if_neg hij]

theorem updateRow_insertRow_self (t : Table α) (row : α) (f : α → α) :
    (t.insertRow row).updateRow t.length f = t.insertRow (f row) := by
  refine List.ext_getElem? fun j => ?_
  rw [getElem?_updateRow, getElem?_insertRow, getElem?_insertRow]
  by_cases hj : j = t.length
  · rw [if_pos hj.symm, if_pos hj, if_pos hj]
    rfl
  · rw [if_neg (Ne.symm hj), if_neg hj, if_neg hj]

theorem getElem?_updateWhere (t : Table α) (p : α → Bool) (f : α → α) (j : Nat) :
    (t.updateWhere p f)[j]? = (t[j]?).map fun row => if p row then f row else row := by
  simp [updateWhere]

/-- A row found after an update by predicate comes from the row with its id. -/
theorem getElem?_updateWhere_cases {t : Table α} {p : α → Bool} {f : α → α} {j : Nat}
    {x : α} (h : (t.updateWhere p f)[j]? = some x) :
    ∃ y, t[j]? = some y ∧ x = if p y then f y else y := by
  rw [getElem?_updateWhere] at h
  obtain ⟨y, hy, rfl⟩ := Option.map_eq_some_iff.mp h
  exact ⟨y, hy, rfl⟩

/-- Updates that keep a column. -/
theorem map_updateRow_of_eq {β : Type} {t : Table α} {i : Nat} {f : α → α} {column : α → β}
    (h : ∀ x, column (f x) = column x) : (t.updateRow i f).map column = t.map column := by
  refine List.ext_getElem? fun j => ?_
  rw [List.getElem?_map, List.getElem?_map, getElem?_updateRow]
  by_cases hij : i = j
  · rw [if_pos hij, Option.map_map]
    exact congrArg (fun g => (t[j]?).map g) (funext h)
  · rw [if_neg hij]

theorem map_updateWhere_of_eq {β : Type} {t : Table α} {p : α → Bool} {f : α → α} {column : α → β}
    (h : ∀ x, column (f x) = column x) : (t.updateWhere p f).map column = t.map column := by
  unfold updateWhere
  rw [List.map_map]
  refine List.map_congr_left fun x _ => ?_
  show column (if p x then f x else x) = column x
  split
  · exact h x
  · rfl

/-! ## Selection -/

theorem mem_selectWhere {t : Table α} {p : α → Bool} {entry : Nat × α} :
    entry ∈ t.selectWhere p ↔ t[entry.1]? = some entry.2 ∧ p entry.2 = true := by
  simp only [selectWhere, List.mem_map, List.mem_filter]
  constructor
  · rintro ⟨⟨row, i⟩, ⟨hmem, hp⟩, rfl⟩
    exact ⟨List.mem_zipIdx_iff_getElem?.mp hmem, hp⟩
  · rintro ⟨hget, hp⟩
    exact ⟨(entry.2, entry.1), ⟨List.mem_zipIdx_iff_getElem?.mpr hget, hp⟩, rfl⟩

/-- Fetched ids are distinct. -/
theorem selectWhere_ids_nodup (t : Table α) (p : α → Bool) :
    ((t.selectWhere p).map Prod.fst).Nodup := by
  have hids : (t.zipIdx.map Prod.snd).Nodup := by
    rw [List.zipIdx_map_snd]
    exact List.nodup_range'
  have hsub : ((t.zipIdx.filter fun entry => p entry.1).map Prod.snd).Sublist
      (t.zipIdx.map Prod.snd) := List.Sublist.map _ List.filter_sublist
  simpa [selectWhere, Function.comp_def] using hids.sublist hsub

theorem selectOne_some {t : Table α} {p : α → Bool} {i : Nat} {row : α}
    (h : t.selectOne p = some (i, row)) : t[i]? = some row ∧ p row = true :=
  mem_selectWhere.mp (List.mem_of_head? h)

theorem selectOne_none {t : Table α} {p : α → Bool} (h : t.selectOne p = none) {i : Nat}
    {row : α} (hrow : t[i]? = some row) : p row = false := by
  have hnil : t.selectWhere p = [] := List.head?_eq_none_iff.mp h
  refine Bool.eq_false_iff.mpr fun hp => ?_
  have hmem : (i, row) ∈ t.selectWhere p := mem_selectWhere.mpr ⟨hrow, hp⟩
  rw [hnil] at hmem
  exact absurd hmem List.not_mem_nil

/-- The only matching row is the one that is found. -/
theorem selectOne_of_unique {t : Table α} {p : α → Bool} {i : Nat} {row : α}
    (hrow : t[i]? = some row) (hp : p row = true)
    (hunique : ∀ (j : Nat) (x : α), t[j]? = some x → p x = true → j = i) :
    t.selectOne p = some (i, row) := by
  cases hone : t.selectOne p with
  | none =>
      have hfalse := selectOne_none hone hrow
      rw [hp] at hfalse
      exact absurd hfalse (by simp)
  | some entry =>
      obtain ⟨hx, hpx⟩ := selectOne_some hone
      obtain rfl := hunique entry.1 entry.2 hx hpx
      obtain heq := Option.some.inj (hx.symm.trans hrow)
      rw [← heq]

/-- Rows fetched earlier that are still current, each once. -/
structure Fetched (t : Table α) (rows : List (Nat × α)) : Prop where
  nodup : (rows.map Prod.fst).Nodup
  current : ∀ entry ∈ rows, t[entry.1]? = some entry.2

theorem fetched_selectWhere (t : Table α) (p : α → Bool) : Fetched t (t.selectWhere p) where
  nodup := selectWhere_ids_nodup t p
  current _ h := (mem_selectWhere.mp h).1

theorem Fetched.perm {t : Table α} {rows rows' : List (Nat × α)} (h : Fetched t rows)
    (hperm : rows'.Perm rows) : Fetched t rows' where
  nodup := (hperm.map Prod.fst).nodup_iff.mpr h.nodup
  current entry hmem := h.current entry (hperm.mem_iff.mp hmem)

theorem Fetched.head {t : Table α} {entry : Nat × α} {rest : List (Nat × α)}
    (h : Fetched t (entry :: rest)) : t[entry.1]? = some entry.2 :=
  h.current entry List.mem_cons_self

/-- Changes to the first fetched row leave the others current. -/
theorem Fetched.tail {t t' : Table α} {entry : Nat × α} {rest : List (Nat × α)}
    (h : Fetched t (entry :: rest)) (hother : ∀ i, i ≠ entry.1 → i < t.length → t'[i]? = t[i]?) :
    Fetched t' rest := by
  have hnodup := List.nodup_cons.mp (List.map_cons ▸ h.nodup)
  refine ⟨hnodup.2, fun other hmem => ?_⟩
  have hcurrent := h.current other (List.mem_cons_of_mem _ hmem)
  rw [hother other.1 ?_ (getElem?_lt hcurrent)]
  · exact hcurrent
  · rintro heq
    exact hnodup.1 (heq ▸ List.mem_map_of_mem hmem)

/-! ## Totals -/

@[simp] theorem total_nil (f : α → Int) : total ([] : Table α) f = 0 := rfl

@[simp] theorem total_cons (x : α) (t : Table α) (f : α → Int) :
    total (x :: t) f = f x + total t f := by simp [total]

@[simp] theorem total_insertRow (t : Table α) (row : α) (f : α → Int) :
    (t.insertRow row).total f = t.total f + f row := by simp [total, insertRow]

theorem total_updateRow {t : Table α} {i : Nat} {x : α} (g : α → α) (f : α → Int)
    (h : t[i]? = some x) :
    (t.updateRow i g).total f = t.total f + (f (g x) - f x) := by
  unfold updateRow
  induction t generalizing i with
  | nil => simp at h
  | cons y t ih =>
      cases i with
      | zero =>
          obtain rfl : y = x := by simpa using h
          simp only [List.modify_zero_cons, total_cons]
          omega
      | succ i =>
          simp only [List.modify_succ_cons, total_cons, ih (by simpa using h)]
          omega

/-- Two summands that agree on the rows have the same total. -/
theorem total_congr {t : Table α} {f g : α → Int} (h : ∀ (i : Nat) (x : α), t[i]? = some x → f x = g x) :
    t.total f = t.total g := by
  unfold total
  congr 1
  refine List.map_congr_left fun x hx => ?_
  obtain ⟨i, hi⟩ := List.getElem?_of_mem hx
  exact h i x hi

/-- An update by key that keeps the summand keeps the total. -/
theorem total_updateRow_of_eq {t : Table α} {i : Nat} {g : α → α} {f : α → Int}
    (h : ∀ x, t[i]? = some x → f (g x) = f x) : (t.updateRow i g).total f = t.total f := by
  cases hx : t[i]? with
  | none =>
      have : t.updateRow i g = t := List.modify_eq_self (List.getElem?_eq_none_iff.mp hx)
      rw [this]
  | some x => rw [total_updateRow g f hx, h x hx]; omega

/-- A change of summand changes the total by the total of the difference. -/
theorem total_sub (t : Table α) (f g : α → Int) :
    t.total (fun x => f x - g x) = t.total f - t.total g := by
  induction t with
  | nil => rfl
  | cons x t ih => simp only [total_cons, ih]; omega

/-- Tables whose rows agree on the summand have the same total. -/
theorem total_eq_of_rows {t t' : Table α} {f : α → Int} (hlength : t'.length = t.length)
    (h : ∀ (i : Nat) (x y : α), t[i]? = some x → t'[i]? = some y → f y = f x) :
    t'.total f = t.total f := by
  unfold total
  congr 1
  refine List.ext_getElem (by simp [hlength]) fun i h₁ h₂ => ?_
  rw [List.getElem_map, List.getElem_map]
  exact h i _ _ (List.getElem?_eq_getElem _) (List.getElem?_eq_getElem _)

theorem total_nonneg {t : Table α} {f : α → Int} (h : ∀ (i : Nat) (x : α), t[i]? = some x → 0 ≤ f x) :
    0 ≤ t.total f := by
  refine List.sum_nonneg fun y hy => ?_
  obtain ⟨x, hx, rfl⟩ := List.mem_map.mp hy
  obtain ⟨i, hi⟩ := List.getElem?_of_mem hx
  exact h i x hi

theorem total_eq_zero {t : Table α} {f : α → Int} (h : ∀ (i : Nat) (x : α), t[i]? = some x → f x = 0) :
    t.total f = 0 := by
  rw [total_congr h]
  simp [total]

theorem total_le {t : Table α} {f g : α → Int} (h : ∀ (i : Nat) (x : α), t[i]? = some x → f x ≤ g x) :
    t.total f ≤ t.total g := by
  have hsub : 0 ≤ t.total (fun x => g x - f x) :=
    total_nonneg fun i x hx => Int.sub_nonneg_of_le (h i x hx)
  rw [total_sub] at hsub
  omega

/-- One nonnegative summand is at most the total. -/
theorem le_total {t : Table α} {f : α → Int} {i : Nat} {x : α}
    (h : ∀ (j : Nat) (y : α), t[j]? = some y → 0 ≤ f y) (hx : t[i]? = some x) : f x ≤ t.total f :=
  List.single_le_sum (fun y hy => by
    obtain ⟨z, hz, rfl⟩ := List.mem_map.mp hy
    obtain ⟨j, hj⟩ := List.getElem?_of_mem hz
    exact h j z hj) _ (List.mem_map_of_mem (List.mem_of_getElem? hx))

/-- A conditional total is the sum over the selected rows. -/
theorem total_selectWhere (t : Table α) (p : α → Bool) (f : α → Int) :
    ((t.selectWhere p).map fun entry => f entry.2).sum =
      t.total fun x => if p x then f x else 0 := by
  have key : ∀ (t : List α) (k : Nat),
      (((t.zipIdx k).filter fun entry => p entry.1).map fun entry => f entry.1).sum =
        total t fun x => if p x then f x else 0 := by
    intro t
    induction t with
    | nil => intro k; rfl
    | cons x t ih =>
        intro k
        cases hp : p x <;> simp [hp, ih]
  simpa [selectWhere, Function.comp_def] using key t 0

/-! ## Counts -/

@[simp] theorem countWhere_nil (p : α → Bool) : countWhere ([] : Table α) p = 0 := rfl

@[simp] theorem countWhere_insertRow (t : Table α) (row : α) (p : α → Bool) :
    (t.insertRow row).countWhere p = t.countWhere p + if p row then 1 else 0 := by
  simp [countWhere, insertRow, List.countP_singleton]

/-- An update by key takes the old row out of the count and puts the new one in. -/
theorem countWhere_updateRow {t : Table α} {i : Nat} {x : α} (g : α → α) (p : α → Bool)
    (h : t[i]? = some x) :
    (t.updateRow i g).countWhere p + (if p x then 1 else 0) =
      t.countWhere p + if p (g x) then 1 else 0 := by
  unfold updateRow countWhere
  induction t generalizing i with
  | nil => simp at h
  | cons y t ih =>
      cases i with
      | zero =>
          obtain rfl : y = x := by simpa using h
          simp only [List.modify_zero_cons, List.countP_cons]
          omega
      | succ i =>
          simp only [List.modify_succ_cons, List.countP_cons]
          have := ih (by simpa using h)
          omega

/-- Rows that are unique are counted at most once. -/
theorem countWhere_le_one {t : Table α} {p : α → Bool}
    (h : ∀ (i j : Nat) (x y : α), t[i]? = some x → t[j]? = some y → p x = true → p y = true → i = j) :
    t.countWhere p ≤ 1 := by
  unfold countWhere
  induction t with
  | nil => exact Nat.zero_le 1
  | cons x t ih =>
      have htail : t.countP p ≤ 1 := ih fun i j y z hy hz hpy hpz =>
        Nat.succ.inj (h (i + 1) (j + 1) y z hy hz hpy hpz)
      rw [List.countP_cons]
      split
      · next hpx =>
          have hzero : t.countP p = 0 := List.countP_eq_zero.mpr fun y hy hpy => by
            obtain ⟨j, hj⟩ := List.getElem?_of_mem hy
            exact absurd (h 0 (j + 1) x y rfl hj hpx hpy) (Nat.succ_ne_zero j).symm
          omega
      · omega

theorem countWhere_eq_zero {t : Table α} {p : α → Bool} :
    t.countWhere p = 0 ↔ ∀ (i : Nat) (x : α), t[i]? = some x → p x = false := by
  unfold countWhere
  rw [List.countP_eq_zero]
  constructor
  · intro h i x hx
    exact Bool.eq_false_iff.mpr (h x (List.mem_of_getElem? hx))
  · intro h x hx
    obtain ⟨i, hi⟩ := List.getElem?_of_mem hx
    exact Bool.eq_false_iff.mp (h i x hi)

end Table

end Base
