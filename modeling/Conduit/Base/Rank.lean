import Mathlib.Data.List.Sort
import Mathlib.Data.List.Perm.Subperm
import Mathlib.Data.List.Nodup

/-!
# The first of a ranking

`rankTop key k l` sorts a list stably by a key and keeps the first `k`. When
the list was itself picked from a longer one, the ranking may miss an element
that was not picked; `rankTop_complete_iff` says when it does not.
-/

namespace Base

variable {α κ : Type} [LinearOrder κ] (key : α → κ)

def rank (l : List α) : List α := l.insertionSort fun a b => key a ≤ key b

def rankTop (k : Nat) (l : List α) : List α := (rank key l).take k

private instance total_rank : Std.Total fun a b : α => key a ≤ key b where
  total a b := le_total (key a) (key b)

private instance isTrans_rank : IsTrans α fun a b => key a ≤ key b where
  trans _ _ _ := le_trans

variable {key} {k : Nat} {l : List α}

theorem perm_rank : (rank key l).Perm l := List.perm_insertionSort _ _

theorem pairwise_rank : (rank key l).Pairwise fun a b => key a ≤ key b :=
  List.pairwise_insertionSort _ _

theorem pairwise_rankTop : (rankTop key k l).Pairwise fun a b => key a ≤ key b :=
  pairwise_rank.sublist (List.take_sublist _ _)

theorem subperm_rankTop : List.Subperm (rankTop key k l) l :=
  (List.take_sublist _ _).subperm.trans perm_rank.subperm

theorem length_rankTop : (rankTop key k l).length = min k l.length := by
  unfold rankTop
  rw [List.length_take, perm_rank.length_eq]

theorem nodup_rankTop (h : l.Nodup) : (rankTop key k l).Nodup :=
  (perm_rank.nodup_iff.mpr h).sublist (List.take_sublist _ _)

/-- What is left out has no smaller key than what is kept. -/
theorem key_le_of_not_mem_rankTop {a b : α} (ha : a ∈ l) (hout : a ∉ rankTop key k l)
    (hb : b ∈ rankTop key k l) : key b ≤ key a := by
  have hsplit : rank key l = rankTop key k l ++ (rank key l).drop k :=
    (List.take_append_drop _ _).symm
  have hmem : a ∈ rank key l := perm_rank.mem_iff.mpr ha
  have hsorted : (rank key l).Pairwise fun a b => key a ≤ key b := pairwise_rank
  rw [hsplit] at hmem hsorted
  have hdrop : a ∈ (rank key l).drop k := (List.mem_append.mp hmem).resolve_left hout
  exact (List.pairwise_append.mp hsorted).2.2 b hb a hdrop

/-- A first element stays first as long as no key is smaller. -/
theorem head?_rank_cons {a : α} :
    (rank key (a :: l)).head? = some a ↔ ∀ b ∈ l, key a ≤ key b := by
  constructor
  · intro hhead b hb
    have hsorted : (rank key (a :: l)).Pairwise fun a b => key a ≤ key b := pairwise_rank
    have hmem : b ∈ rank key (a :: l) := perm_rank.mem_iff.mpr (List.mem_cons_of_mem _ hb)
    cases hrank : rank key (a :: l) with
    | nil =>
        rw [hrank] at hmem
        exact absurd hmem List.not_mem_nil
    | cons c rest =>
        rw [hrank] at hhead hsorted hmem
        obtain rfl : c = a := Option.some.inj hhead
        rcases List.mem_cons.mp hmem with rfl | hrest
        · exact le_refl _
        · exact List.rel_of_pairwise_cons hsorted hrest
  · intro hle
    unfold rank
    rw [List.insertionSort_cons]
    cases hrest : l.insertionSort fun a b => key a ≤ key b with
    | nil => rfl
    | cons b rest =>
        have hb : b ∈ l := by
          rw [← List.mem_insertionSort (fun a b => key a ≤ key b), hrest]
          exact List.mem_cons_self
        rw [List.orderedInsert, if_pos (hle b hb)]
        rfl

theorem head?_rankTop {l : List α} (hk : 0 < k) :
    (rankTop key k l).head? = (rank key l).head? := by
  unfold rankTop
  cases k with
  | zero => exact absurd hk (Nat.lt_irrefl 0)
  | succ k => cases rank key l <;> rfl

section Picked

variable {π : Type} [LinearOrder π] {priority : α → π} {u : List α}

/-- Rank the picked elements `l` of `u`. The result is as long as if all of
`u` had been ranked, and leaves elements out only for such of no larger
priority, exactly if every element that was not picked has `k` picked ones of
no larger priority. -/
theorem rankTop_complete_iff (hu : u.Nodup) (hl : l.Nodup)
    (hpicked : ∀ a ∈ l, a ∈ u) (hpriority : ∀ a b : α, key a ≤ key b → priority a ≤ priority b) :
    ((rankTop key k l).length = min k u.length ∧
        ∀ a ∈ u, a ∉ rankTop key k l → ∀ b ∈ rankTop key k l, priority b ≤ priority a) ↔
      ∀ a ∈ u, a ∉ l → k ≤ (l.filter fun b => priority b ≤ priority a).length := by
  have hsub : ∀ b ∈ rankTop key k l, b ∈ l := fun b hb => subperm_rankTop.subset hb
  constructor
  · rintro ⟨hlength, hleft⟩ a ha hout
    have hkept : ∀ b ∈ rankTop key k l, priority b ≤ priority a :=
      hleft a ha fun hmem => hout (hsub a hmem)
    -- With `a` in `u` but not in `l`, the ranking is full.
    have hshorter : l.length < u.length := by
      have hsubperm : List.Subperm (a :: l) u :=
        (List.nodup_cons.mpr ⟨hout, hl⟩).subperm fun b hb => by
          rcases List.mem_cons.mp hb with rfl | hb
          · exact ha
          · exact hpicked b hb
      exact hsubperm.length_le
    have hfull : (rankTop key k l).length = k := by
      have htop : (rankTop key k l).length = min k l.length := length_rankTop
      omega
    have hfilter : List.Subperm (rankTop key k l) (l.filter fun b => priority b ≤ priority a) := by
      apply List.subperm_of_subset (nodup_rankTop hl)
      intro b hb
      exact List.mem_filter.mpr ⟨hsub b hb, decide_eq_true (hkept b hb)⟩
    exact hfull ▸ hfilter.length_le
  · intro h
    have hle : l.length ≤ u.length := (List.subperm_of_subset hl hpicked).length_le
    refine ⟨?_, ?_⟩
    · rw [length_rankTop]
      by_cases hall : ∀ a ∈ u, a ∈ l
      · have hge : u.length ≤ l.length := (List.subperm_of_subset hu hall).length_le
        omega
      · obtain ⟨a, ha⟩ := not_forall.mp hall
        obtain ⟨ha, hout⟩ := Classical.not_imp.mp ha
        have hcount := (h a ha hout).trans (List.length_filter_le _ _)
        omega
    · intro a ha hout b hb
      by_cases hal : a ∈ l
      · exact hpriority b a (key_le_of_not_mem_rankTop hal hout hb)
      · by_contra hlarger
        -- The picked elements of no larger priority than `a` all come before `b`.
        have hbefore : List.Subperm (b :: l.filter fun c => priority c ≤ priority a)
            (rankTop key k l) := by
          apply List.subperm_of_subset
          · refine List.nodup_cons.mpr ⟨fun hmem => ?_, hl.filter _⟩
            exact hlarger (of_decide_eq_true (List.mem_filter.mp hmem).2)
          · intro c hc
            rcases List.mem_cons.mp hc with rfl | hc
            · exact hb
            · obtain ⟨hcl, hcp⟩ := List.mem_filter.mp hc
              by_contra hcout
              have hkey := key_le_of_not_mem_rankTop hcl hcout hb
              exact hlarger ((hpriority b c hkey).trans (of_decide_eq_true hcp))
        have hcount := hbefore.length_le
        rw [List.length_cons, length_rankTop] at hcount
        have hk := h a ha hal
        omega

end Picked

end Base
