import Mathlib
import Conduit.Base.Greedy
import Conduit.Orchestrator.LoadBalancer

/-!
# The share of the adaptive strategy

Sequential selections over a fixed candidate set, each recorded by the
adaptive strategy. The strategy is a least-load selection whose load is the
clamped scaled count, so `Base.Loads.Balanced` carries over whatever breaks
the ties (input order, ordering weight, tie rotation). Past the clamp the
scaled counts no longer order the channels, and the bound on the exact
quotients is lost.
-/

namespace Conduit.Orchestrator

open Base

/-- One selection: `selectChannels`, or the rotating variant with its offset. -/
structure SelectCall where
  policy : RetryPolicy
  offset : Option Nat
deriving DecidableEq, Repr

/-- The selection counts after one call without a sticky channel. -/
def selectStep (candidates : List Candidate) (selections : Selections) (call : SelectCall) :
    Selections :=
  match call.offset with
  | none => (selectChannels adaptiveWeighted selections candidates call.policy none).2
  | some offset =>
      (selectChannelsWithTieRotation adaptiveWeighted selections candidates call.policy none
        offset).2

def adaptiveSys (candidates : List Candidate) : TSys Selections SelectCall where
  init := fun _ => 0
  step := selectStep candidates

/-- The adaptive strategy as a least-load selection. -/
def adaptiveLoads : Loads Candidate String Int where
  key := Candidate.id
  load := AdaptiveWeightedScoring.normalized

namespace AdaptiveWeightedScoring

theorem weight_pos (c : Candidate) : 0 < weight c := by
  unfold weight
  split <;> omega

theorem normalized_mono (c : Candidate) : Monotone (normalized c) := by
  intro m n hmn
  have hcount : (m : Int) * 100000 ≤ n * 100000 := by omega
  have hdiv := Int.ediv_le_ediv (weight_pos c) hcount
  unfold normalized
  omega

@[simp] theorem normalized_zero (c : Candidate) : normalized c 0 = 0 := by
  simp [normalized, i64Max]

/-- Recording a selection counts the selected channel only, up to `u64::MAX`. -/
theorem selected_recordSelection {s : Selections} (c : Candidate) (hs : ∀ id, s id ≤ u64Max) :
    Loads.Selected s (recordSelection s c) c.id where
  grows j := by
    unfold recordSelection
    by_cases h : j = c.id
    · subst h
      have := hs c.id
      simp only [Function.update_self]
      omega
    · rw [Function.update_of_ne h]
  byOne := by
    simp only [recordSelection, Function.update_self]
    omega
  others j h := Function.update_of_ne h _ _

theorem recordSelection_le {s : Selections} (c : Candidate) (hs : ∀ id, s id ≤ u64Max)
    (id : String) : recordSelection s c id ≤ u64Max := by
  unfold recordSelection
  by_cases h : id = c.id
  · subst h
    simp only [Function.update_self]
    omega
  · rw [Function.update_of_ne h]
    exact hs id

end AdaptiveWeightedScoring

open AdaptiveWeightedScoring

/-- One call records a channel that leads; with no candidates it does nothing. -/
theorem selectStep_leads {candidates : List Candidate} (hne : candidates ≠ [])
    (s : Selections) (call : SelectCall) :
    ∃ c, Leads candidates (AdaptiveWeightedScoring.score s) c ∧
      selectStep candidates s call = recordSelection s c := by
  unfold selectStep
  cases call.offset with
  | none =>
      obtain ⟨c, hleads, -, hrec⟩ := selectChannels_leads adaptiveWeighted s call.policy hne
      exact ⟨c, hleads, hrec⟩
  | some offset =>
      obtain ⟨c, hleads, -, hrec⟩ :=
        selectChannelsWithTieRotation_leads adaptiveWeighted s call.policy hne offset
      exact ⟨c, hleads, hrec⟩

theorem selectStep_nil (s : Selections) (call : SelectCall) : selectStep [] s call = s := by
  unfold selectStep
  cases call.offset with
  | none => simp [selectChannels, sortCandidatesTopK, rotateSticky, recordFirst]
  | some offset => rfl

/-- The best score is the least load. -/
theorem least_of_leads {candidates : List Candidate} {s : Selections} {c : Candidate}
    (h : Leads candidates (AdaptiveWeightedScoring.score s) c) :
    adaptiveLoads.Least candidates s c := by
  refine ⟨h.1, fun d hd => ?_⟩
  have hbest := h.2 d hd
  simp only [AdaptiveWeightedScoring.score] at hbest
  show normalized c (s c.id) ≤ normalized d (s d.id)
  omega

theorem balanced_iff {candidates : List Candidate} {s : Selections} :
    adaptiveLoads.Balanced candidates s ↔ ∀ a ∈ candidates, ∀ b ∈ candidates,
      normalized a (s a.id - 1) ≤ normalized b (s b.id) := Iff.rfl

/-- The counts stay balanced and within `u64`. -/
theorem adaptive_balanced {candidates : List Candidate}
    (hweight : ∀ a ∈ candidates, ∀ b ∈ candidates, a.id = b.id →
      a.orderingWeight = b.orderingWeight) :
    (adaptiveSys candidates).Inductive fun s =>
      adaptiveLoads.Balanced candidates s ∧ ∀ id, s id ≤ u64Max where
  init := ⟨Loads.Balanced.initial fun a _ b _ => by simp [adaptiveLoads], fun _ => Nat.zero_le _⟩
  step s call hs := by
    show adaptiveLoads.Balanced candidates (selectStep candidates s call) ∧
      ∀ id, selectStep candidates s call id ≤ u64Max
    by_cases hne : candidates = []
    · subst hne
      rw [selectStep_nil]
      exact hs
    · obtain ⟨c, hleads, hstep⟩ := selectStep_leads hne s call
      rw [hstep]
      refine ⟨hs.1.select (fun a _ => normalized_mono a) ?_ (least_of_leads hleads)
        (selected_recordSelection c hs.2), recordSelection_le c hs.2⟩
      intro a ha b hb hid
      funext n
      simp only [adaptiveLoads, normalized, weight, hweight a ha b hb hid]

/-- After any sequence of selections, take one selection back from any
channel and its scaled count, clamped to `i64::MAX` as the score clamps it,
is at most the clamped scaled count of every other channel. -/
theorem adaptive_share_within_one_selection {candidates : List Candidate}
    (hweight : ∀ a ∈ candidates, ∀ b ∈ candidates, a.id = b.id →
      a.orderingWeight = b.orderingWeight) (calls : List SelectCall) :
    let counts := (adaptiveSys candidates).run (fun _ => 0) calls
    ∀ a ∈ candidates, ∀ b ∈ candidates,
      min (((counts a.id - 1 : Nat) : Int) * 100000 / weight a) i64Max ≤
        min ((counts b.id : Int) * 100000 / weight b) i64Max := by
  intro counts a ha b hb
  have hbal := (adaptive_balanced hweight).run calls (fun _ => 0) (adaptive_balanced hweight).init
  have hle := balanced_iff.mp hbal.1 a ha b hb
  unfold normalized at hle
  exact hle

/-- A channel of weight 100 and one of weight 50 after six selections. -/
theorem adaptive_share_six_calls :
    let counts := (adaptiveSys [⟨"high", 100⟩, ⟨"low", 50⟩]).run (fun _ => 0)
      (List.replicate 6 ⟨⟨false, 3⟩, some 0⟩)
    (counts "high" = 4 ∧ counts "low" = 2) ∧
      min (((counts "high" - 1 : Nat) : Int) * 100000 / weight ⟨"high", 100⟩) i64Max ≤
        min ((counts "low" : Int) * 100000 / weight ⟨"low", 50⟩) i64Max := by
  intro counts
  constructor
  · decide +kernel
  · have hweight : ∀ a ∈ [⟨"high", 100⟩, ⟨"low", 50⟩], ∀ b ∈ [⟨"high", 100⟩, ⟨"low", 50⟩],
        Candidate.id a = Candidate.id b → a.orderingWeight = b.orderingWeight := by decide
    exact adaptive_share_within_one_selection hweight _ ⟨"high", 100⟩ (by decide)
      ⟨"low", 50⟩ (by decide)

/-! ## Past the clamp -/

namespace TwoToOne

def heavy : Candidate := ⟨"heavy", 2⟩

def light : Candidate := ⟨"light", 1⟩

def calls (n : Nat) : List SelectCall := List.replicate n ⟨⟨false, 0⟩, some 0⟩

@[simp] theorem weight_heavy : weight heavy = 2 := rfl

@[simp] theorem weight_light : weight light = 1 := rfl

/-- The counts after `n` selections. -/
@[irreducible] def counts (n : Nat) : Selections := (adaptiveSys [heavy, light]).run (fun _ => 0) (calls n)

theorem counts_add (n k : Nat) :
    counts (n + k) = (adaptiveSys [heavy, light]).run (counts n) (calls k) := by
  unfold counts calls
  rw [← List.replicate_append_replicate, TSys.run_append]

theorem counts_succ (n : Nat) :
    counts (n + 1) = selectStep [heavy, light] (counts n) ⟨⟨false, 0⟩, some 0⟩ := by
  rw [counts_add, calls, List.replicate_one, TSys.run_cons, TSys.run_nil]
  rfl

/-- A call records the heavy channel, unless the light one has the smaller
load. -/
theorem counts_succ_cases (n : Nat) :
    counts (n + 1) = recordSelection (counts n) heavy ∨
      counts (n + 1) = recordSelection (counts n) light ∧
        normalized light (counts n "light") < normalized heavy (counts n "heavy") := by
  rw [counts_succ]
  have hne : [heavy, light] ≠ [] := by simp
  obtain ⟨c, ⟨hmem, hbest⟩, hstep⟩ := selectStep_leads hne (counts n) ⟨⟨false, 0⟩, some 0⟩
  rw [hstep]
  rcases List.mem_cons.mp hmem with rfl | hlight
  · exact .inl rfl
  · obtain rfl := List.mem_singleton.mp hlight
    refine .inr ⟨rfl, ?_⟩
    have h := hbest heavy List.mem_cons_self
    simp only [AdaptiveWeightedScoring.score, heavy, light] at h ⊢
    omega

theorem recordSelection_heavy (s : Selections) :
    recordSelection s heavy "heavy" = min (s "heavy" + 1) u64Max ∧
      recordSelection s heavy "light" = s "light" := by
  simp [recordSelection, heavy, Function.update]

theorem recordSelection_light (s : Selections) :
    recordSelection s light "light" = min (s "light" + 1) u64Max ∧
      recordSelection s light "heavy" = s "heavy" := by
  simp [recordSelection, light, Function.update]

/-- Every call selects one of the two. -/
theorem counts_sum (n : Nat) (hn : n ≤ u64Max) : counts n "heavy" + counts n "light" = n := by
  induction n with
  | zero => simp [counts, calls]
  | succ n ih =>
      have hsum := ih (by omega)
      rcases counts_succ_cases n with h | ⟨h, -⟩
      · obtain ⟨h1, h2⟩ := recordSelection_heavy (counts n)
        rw [h, h1, h2]
        omega
      · obtain ⟨h1, h2⟩ := recordSelection_light (counts n)
        rw [h, h1, h2]
        omega

/-- Once the light channel's score is clamped, the heavy channel wins every tie. -/
theorem counts_add_of_clamped (n : Nat)
    (hlight : i64Max ≤ (counts n "light" : Int) * 100000) (k : Nat)
    (hk : counts n "heavy" + k ≤ u64Max) :
    counts (n + k) "heavy" = counts n "heavy" + k ∧
      counts (n + k) "light" = counts n "light" := by
  induction k with
  | zero => exact ⟨rfl, rfl⟩
  | succ k ih =>
      obtain ⟨ih1, ih2⟩ := ih (by omega)
      rcases counts_succ_cases (n + k) with h | ⟨-, hlt⟩
      · obtain ⟨h1, h2⟩ := recordSelection_heavy (counts (n + k))
        rw [← Nat.add_assoc, h, h1, h2, ih1, ih2]
        exact ⟨Nat.min_eq_left hk, rfl⟩
      · -- the clamped loads are equal
        rw [ih1, ih2] at hlt
        simp only [normalized, weight_heavy, weight_light, Int.ediv_one] at hlt
        omega

/-- After `10 ^ 15` selections the light channel's score is clamped. -/
theorem light_clamped (n : Nat) (hmany : 10 ^ 15 ≤ n) (hn : n ≤ u64Max) :
    i64Max ≤ (counts n "light" : Int) * 100000 := by
  have hsum := counts_sum n hn
  have hweight : ∀ a ∈ [heavy, light], ∀ b ∈ [heavy, light], a.id = b.id →
      a.orderingWeight = b.orderingWeight := by decide
  have hbal : adaptiveLoads.Balanced [heavy, light] (counts n) := by
    unfold counts
    exact ((adaptive_balanced hweight).run (calls n) _ (adaptive_balanced hweight).init).1
  have hheavy := balanced_iff.mp hbal heavy (by decide) light (by decide)
  rw [show heavy.id = "heavy" from rfl, show light.id = "light" from rfl] at hheavy
  simp only [normalized, weight_heavy, weight_light, Int.ediv_one, i64Max] at hheavy ⊢
  omega

theorem runs_ahead_of_clamped (n k : Nat) (hmany : 10 ^ 15 ≤ n) (hk : 2 * n + 2 ≤ k)
    (hmax : n + k ≤ u64Max) :
    0 < counts (n + k) "heavy" ∧
      ¬((counts (n + k) "heavy" - 1 : Nat) : Int) * 100000 / weight heavy ≤
        (counts (n + k) "light" : Int) * 100000 / weight light := by
  have hsum := counts_sum n (by omega)
  have hlight := light_clamped n hmany (by omega)
  obtain ⟨h1, h2⟩ := counts_add_of_clamped n hlight k (by omega)
  rw [h1, h2, weight_heavy, weight_light, Int.ediv_one]
  omega

/-- Past the clamp the heavy channel runs ahead without bound: after
`10 ^ 15` selections and `3 * 10 ^ 15` more the exact quotients are out of
balance. -/
theorem heavy_runs_ahead :
    0 < counts (10 ^ 15 + 3 * 10 ^ 15) "heavy" ∧
      ¬((counts (10 ^ 15 + 3 * 10 ^ 15) "heavy" - 1 : Nat) : Int) * 100000 / weight heavy ≤
        (counts (10 ^ 15 + 3 * 10 ^ 15) "light" : Int) * 100000 / weight light :=
  runs_ahead_of_clamped (10 ^ 15) (3 * 10 ^ 15) (by decide) (by decide) (by decide)

end TwoToOne

end Conduit.Orchestrator
