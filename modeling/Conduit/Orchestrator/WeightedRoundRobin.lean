import Conduit.Base.SmoothRoundRobin
import Mathlib

/-!
# Weighted round robin

`select_internal` adds to every entry the weight of its candidate, takes the
candidate of the largest current weight, the first one on a tie, and subtracts
the total from its entry. With a fixed list of candidates the entries are the
candidates' (`Holds`), and a run of selections is a run of the smooth round
robin: the current weight of an entry is the credit of its candidate.

Weights are `u32`s and current weights `i64`s. `currentWeight_bounds` bounds
the latter by the number of candidates times the total weight.
-/

namespace Conduit.Orchestrator

open Base SmoothRoundRobin

/-! ## Entries and candidates -/

/-- The fields of a candidate that the selection reads. -/
structure WeightedCandidate where
  id : String
  weight : Nat
deriving DecidableEq, Repr

structure WeightedRoundRobinEntry where
  candidateId : String
  currentWeight : Int
deriving DecidableEq, Repr

structure ScoreComponent where
  name : String
  value : Int
deriving DecidableEq, Repr

structure DebugScore where
  strategy : String
  candidateId : String
  components : List ScoreComponent
deriving DecidableEq, Repr

structure OrderingWeightTieBreak where
  orderingWeight : Int
  inputIndex : Nat
deriving DecidableEq, Repr

/-- The smaller input index is the greater. -/
def compareOrderingWeightTieBreak (left right : OrderingWeightTieBreak) : Ordering :=
  (compare left.orderingWeight right.orderingWeight).then
    (compare right.inputIndex left.inputIndex)

/-- `Iterator::max_by`. -/
def maxBy {α : Type} (cmp : α → α → Ordering) : List α → Option α
  | [] => none
  | a :: rest => some (rest.foldl (fun best b => if cmp best b = .gt then best else b) a)

structure WeightedRoundRobin where
  entries : List WeightedRoundRobinEntry
deriving DecidableEq, Repr

structure LoadBalancerSelection where
  candidate : Option WeightedCandidate
  breakdown : Option (List DebugScore)
deriving DecidableEq, Repr

namespace WeightedRoundRobin

def new : WeightedRoundRobin := ⟨[]⟩

def currentWeightFor (rr : WeightedRoundRobin) (candidateId : String) : Int :=
  match rr.entries.find? (·.candidateId = candidateId) with
  | some entry => entry.currentWeight
  | none => 0

/-- Push an entry for a candidate that has none. -/
def pushMissing (entries : List WeightedRoundRobinEntry) (candidate : WeightedCandidate) :
    List WeightedRoundRobinEntry :=
  if entries.all (·.candidateId ≠ candidate.id) then entries ++ [⟨candidate.id, 0⟩] else entries

def syncEntries (rr : WeightedRoundRobin) (candidates : List WeightedCandidate) :
    WeightedRoundRobin :=
  ⟨candidates.foldl pushMissing
    (rr.entries.filter fun entry => candidates.any fun candidate => candidate.id = entry.candidateId)⟩

def totalWeight (candidates : List WeightedCandidate) : Int :=
  ((candidates.filter (0 < ·.weight)).map fun candidate => (candidate.weight : Int)).sum

/-- The candidate of an entry, if its weight is positive. -/
def weighted (candidates : List WeightedCandidate) (entry : WeightedRoundRobinEntry) :
    Option WeightedCandidate :=
  candidates.find? fun candidate => candidate.id = entry.candidateId && decide (0 < candidate.weight)

def raise (candidates : List WeightedCandidate) (entry : WeightedRoundRobinEntry) :
    WeightedRoundRobinEntry :=
  match weighted candidates entry with
  | some candidate => { entry with currentWeight := entry.currentWeight + candidate.weight }
  | none => entry

def debugScore (candidates : List WeightedCandidate) (entry : WeightedRoundRobinEntry) :
    Option DebugScore :=
  (weighted candidates entry).map fun candidate =>
    { strategy := "weighted_round_robin"
      candidateId := candidate.id
      components :=
        [⟨"previous_current_weight", entry.currentWeight⟩,
          ⟨"effective_weight", candidate.weight⟩,
          ⟨"current_weight", entry.currentWeight + candidate.weight⟩,
          ⟨"total_weight", totalWeight candidates⟩] }

def compareCurrent (rr : WeightedRoundRobin) (left right : WeightedCandidate × Nat) : Ordering :=
  (compare (rr.currentWeightFor left.1.id) (rr.currentWeightFor right.1.id)).then
    (compareOrderingWeightTieBreak ⟨0, left.2⟩ ⟨0, right.2⟩)

/-- The candidate of positive weight and largest current weight. -/
def heaviest (rr : WeightedRoundRobin) (candidates : List WeightedCandidate) :
    Option WeightedCandidate :=
  (maxBy rr.compareCurrent
    (candidates.zipIdx.filter fun candidate => 0 < candidate.1.weight)).map Prod.fst

/-- Subtract the total from the first entry of the candidate. -/
def payBack (candidateId : String) (total : Int) :
    List WeightedRoundRobinEntry → List WeightedRoundRobinEntry
  | [] => []
  | entry :: entries =>
      if entry.candidateId = candidateId then
        { entry with currentWeight := entry.currentWeight - total } :: entries
      else entry :: payBack candidateId total entries

def selectInternal (rr : WeightedRoundRobin) (candidates : List WeightedCandidate) (debug : Bool) :
    LoadBalancerSelection × WeightedRoundRobin :=
  let synced := rr.syncEntries candidates
  let total := totalWeight candidates
  if total = 0 then (⟨none, if debug then some [] else none⟩, synced)
  else
    let scores := if debug then some (synced.entries.filterMap (debugScore candidates)) else none
    let raised : WeightedRoundRobin := ⟨synced.entries.map (raise candidates)⟩
    match raised.heaviest candidates with
    | some selected => (⟨some selected, scores⟩, ⟨payBack selected.id total raised.entries⟩)
    | none => (⟨none, scores⟩, raised)

def select (rr : WeightedRoundRobin) (candidates : List WeightedCandidate) :
    Option WeightedCandidate × WeightedRoundRobin :=
  ((rr.selectInternal candidates false).1.candidate, (rr.selectInternal candidates false).2)

/-- The state after `k` selections from a fresh one, with the candidates selected. -/
def run (candidates : List WeightedCandidate) : Nat → WeightedRoundRobin × List WeightedCandidate
  | 0 => (new, [])
  | k + 1 =>
      let before := run candidates k
      let next := before.1.select candidates
      (next.2, before.2 ++ next.1.toList)

/-! ## The largest -/

theorem foldl_maxBy {α : Type} (key : α → Int) (cmp : α → α → Ordering)
    (hcmp : ∀ a b, (cmp a b = .gt → key b ≤ key a) ∧ (cmp a b ≠ .gt → key a ≤ key b))
    (rest : List α) (a : α) :
    let best := rest.foldl (fun best b => if cmp best b = .gt then best else b) a
    best ∈ a :: rest ∧ ∀ b ∈ a :: rest, key b ≤ key best := by
  induction rest generalizing a with
  | nil => simp
  | cons b rest ih =>
      dsimp only [List.foldl_cons]
      by_cases h : cmp a b = .gt
      · rw [if_pos h]
        obtain ⟨hmem, hbest⟩ := ih a
        refine ⟨?_, fun c hc => ?_⟩
        · rcases List.mem_cons.mp hmem with heq | hrest
          · rw [heq]
            exact List.mem_cons_self
          · exact List.mem_cons_of_mem _ (List.mem_cons_of_mem _ hrest)
        · rcases List.mem_cons.mp hc with rfl | hc
          · exact hbest _ List.mem_cons_self
          · rcases List.mem_cons.mp hc with rfl | hc
            · exact ((hcmp _ _).1 h).trans (hbest _ List.mem_cons_self)
            · exact hbest c (List.mem_cons_of_mem _ hc)
      · rw [if_neg h]
        obtain ⟨hmem, hbest⟩ := ih b
        refine ⟨List.mem_cons_of_mem _ hmem, fun c hc => ?_⟩
        rcases List.mem_cons.mp hc with rfl | hc
        · exact ((hcmp _ _).2 h).trans (hbest _ List.mem_cons_self)
        · exact hbest c hc

theorem compareCurrent_gt (rr : WeightedRoundRobin) (left right : WeightedCandidate × Nat) :
    (rr.compareCurrent left right = .gt →
        rr.currentWeightFor right.1.id ≤ rr.currentWeightFor left.1.id) ∧
      (rr.compareCurrent left right ≠ .gt →
        rr.currentWeightFor left.1.id ≤ rr.currentWeightFor right.1.id) := by
  unfold compareCurrent
  rcases lt_trichotomy (rr.currentWeightFor left.1.id) (rr.currentWeightFor right.1.id) with
    h | h | h
  · simp [compare_lt_iff_lt.mpr h, h.le]
  · simp [h]
  · simp [compare_gt_iff_gt.mpr h, h.le]

/-- With positive weights some candidate is the heaviest, and it is. -/
theorem heaviest_spec (rr : WeightedRoundRobin) {candidates : List WeightedCandidate}
    (hne : candidates ≠ []) (hpositive : ∀ c ∈ candidates, 0 < c.weight) :
    ∃ selected ∈ candidates, rr.heaviest candidates = some selected ∧
      ∀ c ∈ candidates, rr.currentWeightFor c.id ≤ rr.currentWeightFor selected.id := by
  have hall : (candidates.zipIdx.filter fun candidate => decide (0 < candidate.1.weight)) =
      candidates.zipIdx := by
    refine List.filter_eq_self.mpr fun entry hentry => ?_
    obtain ⟨c, i⟩ := entry
    exact decide_eq_true (hpositive c (List.fst_mem_of_mem_zipIdx hentry))
  cases hlist : candidates.zipIdx with
  | nil => exact absurd (List.zipIdx_eq_nil_iff.mp hlist) hne
  | cons first rest =>
      obtain ⟨hmem, hbest⟩ := foldl_maxBy (fun entry => rr.currentWeightFor entry.1.id)
        rr.compareCurrent rr.compareCurrent_gt rest first
      set best := rest.foldl (fun best b => if rr.compareCurrent best b = .gt then best else b) first
      rw [← hlist] at hmem hbest
      refine ⟨best.1, List.fst_mem_of_mem_zipIdx hmem, ?_, fun c hc => ?_⟩
      · unfold heaviest
        rw [hall, hlist]
        rfl
      · obtain ⟨i, hi⟩ := List.mem_iff_getElem?.mp hc
        exact hbest (c, i) (List.mk_mem_zipIdx_iff_getElem?.mpr hi)

/-! ## The entries of a fixed list -/

/-- One entry for each candidate, with the current weights `f`. -/
def entriesOf (candidates : List WeightedCandidate) (f : WeightedCandidate → Int) :
    List WeightedRoundRobinEntry :=
  candidates.map fun c => ⟨c.id, f c⟩

/-- The entries, once synced, are the candidates' with the current weights `f`. -/
def Holds (rr : WeightedRoundRobin) (candidates : List WeightedCandidate)
    (f : WeightedCandidate → Int) : Prop :=
  (rr.syncEntries candidates).entries = entriesOf candidates f

def DistinctIds (candidates : List WeightedCandidate) : Prop := (candidates.map (·.id)).Nodup

variable {candidates : List WeightedCandidate} {f : WeightedCandidate → Int}

theorem DistinctIds.eq (h : DistinctIds candidates) {c d : WeightedCandidate}
    (hc : c ∈ candidates) (hd : d ∈ candidates) (hid : c.id = d.id) : c = d :=
  List.inj_on_of_nodup_map h hc hd hid

/-- Distinct candidates are pushed one after the other. -/
theorem foldl_pushMissing (done rest : List WeightedCandidate)
    (h : DistinctIds (done ++ rest)) :
    rest.foldl pushMissing (entriesOf done fun _ => 0) = entriesOf (done ++ rest) fun _ => 0 := by
  induction rest generalizing done with
  | nil => rw [List.append_nil]; rfl
  | cons c rest ih =>
      have hmissing : (entriesOf done fun _ => 0).all (·.candidateId ≠ c.id) = true := by
        unfold DistinctIds at h
        rw [List.map_append, List.nodup_append] at h
        rw [List.all_eq_true]
        intro entry hentry
        obtain ⟨d, hd, rfl⟩ := List.mem_map.mp hentry
        exact decide_eq_true (h.2.2 _ (List.mem_map_of_mem hd) _ (List.mem_map_of_mem List.mem_cons_self))
      have hpush : pushMissing (entriesOf done fun _ => 0) c = entriesOf (done ++ [c]) fun _ => 0 := by
        unfold pushMissing
        rw [if_pos hmissing]
        simp [entriesOf]
      rw [List.foldl_cons, hpush, ih (done ++ [c]) (by simpa using h)]
      simp

theorem holds_new (h : DistinctIds candidates) : new.Holds candidates fun _ => 0 := by
  show candidates.foldl pushMissing (entriesOf [] fun _ => 0) = _
  rw [foldl_pushMissing [] candidates h, List.nil_append]

/-- Where every candidate has its entry, syncing changes nothing. -/
theorem holds_entriesOf : Holds ⟨entriesOf candidates f⟩ candidates f := by
  have hkept : ((entriesOf candidates f).filter fun entry =>
      candidates.any fun candidate => decide (candidate.id = entry.candidateId)) =
        entriesOf candidates f := by
    refine List.filter_eq_self.mpr fun entry hentry => ?_
    obtain ⟨c, hc, rfl⟩ := List.mem_map.mp hentry
    exact List.any_eq_true.mpr ⟨c, hc, decide_eq_true rfl⟩
  have hfold : ∀ rest : List WeightedCandidate, (∀ c ∈ rest, c ∈ candidates) →
      rest.foldl pushMissing (entriesOf candidates f) = entriesOf candidates f := by
    intro rest hrest
    induction rest with
    | nil => rfl
    | cons c rest ih =>
        have hpresent : ¬ (entriesOf candidates f).all (·.candidateId ≠ c.id) = true := by
          intro hall
          have hentry : (⟨c.id, f c⟩ : WeightedRoundRobinEntry) ∈ entriesOf candidates f :=
            List.mem_map_of_mem (hrest c List.mem_cons_self)
          simpa using List.all_eq_true.mp hall _ hentry
        rw [List.foldl_cons]
        unfold pushMissing
        rw [if_neg hpresent]
        exact ih fun d hd => hrest d (List.mem_cons_of_mem _ hd)
  show candidates.foldl pushMissing _ = _
  rw [hkept]
  exact hfold candidates fun _ hc => hc

theorem currentWeightFor_entriesOf (h : DistinctIds candidates) {c : WeightedCandidate}
    (hc : c ∈ candidates) : currentWeightFor ⟨entriesOf candidates f⟩ c.id = f c := by
  unfold currentWeightFor
  cases hfind : (entriesOf candidates f).find? (·.candidateId = c.id) with
  | none =>
      have hentry : (⟨c.id, f c⟩ : WeightedRoundRobinEntry) ∈ entriesOf candidates f :=
        List.mem_map_of_mem hc
      simpa using List.find?_eq_none.mp hfind _ hentry
  | some entry =>
      obtain ⟨d, hd, rfl⟩ := List.mem_map.mp (List.mem_of_find?_eq_some hfind)
      have hid : d.id = c.id := by simpa using List.find?_some hfind
      rw [h.eq hd hc hid]

theorem map_raise_entriesOf (h : DistinctIds candidates)
    (hpositive : ∀ c ∈ candidates, 0 < c.weight) :
    (entriesOf candidates f).map (raise candidates) =
      entriesOf candidates fun c => f c + c.weight := by
  unfold entriesOf
  rw [List.map_map]
  refine List.map_congr_left fun c hc => ?_
  show raise candidates ⟨c.id, f c⟩ = _
  unfold raise
  cases hfind : weighted candidates ⟨c.id, f c⟩ with
  | none =>
      have hnot := List.find?_eq_none.mp hfind c hc
      exact absurd (by simp [hpositive c hc]) hnot
  | some d =>
      have hid : d.id = c.id := by
        have hsome := List.find?_some hfind
        rw [Bool.and_eq_true] at hsome
        exact of_decide_eq_true hsome.1
      rw [h.eq (List.mem_of_find?_eq_some hfind) hc hid]

theorem payBack_entriesOf (h : DistinctIds candidates) {c : WeightedCandidate}
    (hc : c ∈ candidates) (total : Int) :
    payBack c.id total (entriesOf candidates f) =
      entriesOf candidates fun d => f d - if d = c then total else 0 := by
  induction candidates with
  | nil => exact absurd hc List.not_mem_nil
  | cons d rest ih =>
      have hnot : d.id ∉ rest.map (·.id) := (List.nodup_cons.mp h).1
      show (if d.id = c.id then _ else _) = _
      by_cases hid : d.id = c.id
      · have hdc : d = c := h.eq List.mem_cons_self hc hid
        rw [if_pos hid]
        subst hdc
        -- no later candidate is this one
        have hrest : entriesOf rest (fun e => f e - if e = d then total else 0) =
            entriesOf rest f := by
          refine List.map_congr_left fun e he => ?_
          have hne : e ≠ d := fun heq => hnot (heq ▸ List.mem_map_of_mem he)
          simp [hne]
        show _ = (⟨d.id, f d - if d = d then total else 0⟩ : WeightedRoundRobinEntry) ::
          entriesOf rest fun e => f e - if e = d then total else 0
        rw [hrest, if_pos rfl]
        rfl
      · have hcrest : c ∈ rest := by
          rcases List.mem_cons.mp hc with heq | hmem
          · exact absurd (heq ▸ rfl) hid
          · exact hmem
        have hne : d ≠ c := fun heq => hid (heq ▸ rfl)
        rw [if_neg hid]
        show _ = (⟨d.id, f d - if d = c then total else 0⟩ : WeightedRoundRobinEntry) ::
          entriesOf rest fun e => f e - if e = c then total else 0
        rw [← ih (List.nodup_cons.mp h).2 hcrest, if_neg hne, sub_zero]
        rfl

/-! ## A selection and a run -/

/-- The weight of a candidate, as the schedule reads it. -/
def weightOf (c : WeightedCandidate) : Int := c.weight

theorem totalWeight_eq_sum (h : DistinctIds candidates)
    (hpositive : ∀ c ∈ candidates, 0 < c.weight) :
    totalWeight candidates = ∑ c ∈ candidates.toFinset, weightOf c := by
  have hall : candidates.filter (fun c => decide (0 < c.weight)) = candidates :=
    List.filter_eq_self.mpr fun c hc => decide_eq_true (hpositive c hc)
  unfold totalWeight
  rw [hall, List.sum_toFinset _ (List.Nodup.of_map _ h)]
  rfl

/-- A selection picks a candidate of largest current weight, the weights of the
round added, and takes the total from it. -/
theorem select_spec (hids : DistinctIds candidates) (hpositive : ∀ c ∈ candidates, 0 < c.weight)
    (hne : candidates ≠ []) {rr : WeightedRoundRobin} (h : rr.Holds candidates f) :
    ∃ selected ∈ candidates,
      (∀ c ∈ candidates, f c + weightOf c ≤ f selected + weightOf selected) ∧
      rr.select candidates = (some selected, ⟨entriesOf candidates fun c =>
        f c + weightOf c - if c = selected then totalWeight candidates else 0⟩) := by
  have hraised : (rr.syncEntries candidates).entries.map (raise candidates) =
      entriesOf candidates fun c => f c + weightOf c := by
    rw [h, map_raise_entriesOf hids hpositive]
    rfl
  obtain ⟨selected, hselected, hheaviest, hmax⟩ :=
    heaviest_spec ⟨entriesOf candidates fun c => f c + weightOf c⟩ hne hpositive
  refine ⟨selected, hselected, fun c hc => ?_, ?_⟩
  · have hle := hmax c hc
    rwa [currentWeightFor_entriesOf hids hc, currentWeightFor_entriesOf hids hselected] at hle
  · have htotal : ¬ totalWeight candidates = 0 := by
      rw [totalWeight_eq_sum hids hpositive]
      refine (Finset.sum_pos (fun c hc => ?_) ⟨selected, List.mem_toFinset.mpr hselected⟩).ne'
      exact Int.natCast_pos.mpr (hpositive c (List.mem_toFinset.mp hc))
    unfold select selectInternal
    dsimp only
    rw [if_neg htotal, hraised, hheaviest]
    dsimp only
    rw [payBack_entriesOf hids hselected]

/-- The credit of a candidate after `k` selections. -/
def creditAfter (candidates : List WeightedCandidate) (k : Nat) : WeightedCandidate → Int :=
  credit candidates.toFinset weightOf k fun c => (run candidates k).2.count c

/-- A run of selections is a run of the smooth round robin. -/
theorem run_picked (hids : DistinctIds candidates) (hpositive : ∀ c ∈ candidates, 0 < c.weight)
    (hne : candidates ≠ []) (k : Nat) :
    Picked candidates.toFinset weightOf k (fun c => (run candidates k).2.count c) ∧
      (run candidates k).1.Holds candidates (creditAfter candidates k) ∧
      (run candidates k).2.length = k ∧
      (0 < k → (run candidates k).1.entries = entriesOf candidates (creditAfter candidates k)) := by
  induction k with
  | zero =>
      have hzero : creditAfter candidates 0 = fun _ => 0 := by
        funext c
        simp [creditAfter, credit, run]
      refine ⟨Picked.start, ?_, rfl, fun h => absurd h (lt_irrefl 0)⟩
      rw [hzero]
      exact holds_new hids
  | succ k ih =>
      obtain ⟨hpicked, hholds, hlength, -⟩ := ih
      obtain ⟨selected, hselected, hmax, hselect⟩ := select_spec hids hpositive hne hholds
      have hrun : run candidates (k + 1) =
          (⟨entriesOf candidates fun c => creditAfter candidates k c + weightOf c -
              if c = selected then totalWeight candidates else 0⟩,
            (run candidates k).2 ++ [selected]) := by
        show (((run candidates k).1.select candidates).2,
          (run candidates k).2 ++ ((run candidates k).1.select candidates).1.toList) = _
        rw [hselect]
        rfl
      have hcount : (fun c => (run candidates (k + 1)).2.count c) =
          Function.update (fun c => (run candidates k).2.count c) selected
            ((run candidates k).2.count selected + 1) := by
        funext c
        rw [hrun]
        by_cases hc : c = selected
        · subst hc
          simp
        · rw [Function.update_of_ne hc, List.count_append, List.count_singleton]
          simp [Ne.symm hc]
      have hcredit : creditAfter candidates (k + 1) = fun c =>
          creditAfter candidates k c + weightOf c -
            if c = selected then totalWeight candidates else 0 := by
        funext c
        unfold creditAfter
        rw [hcount, credit_pick, totalWeight_eq_sum hids hpositive]
      have hentries : (run candidates (k + 1)).1 =
          ⟨entriesOf candidates (creditAfter candidates (k + 1))⟩ := by
        rw [hcredit, hrun]
      refine ⟨?_, ?_, ?_, fun _ => ?_⟩
      · rw [hcount]
        exact hpicked.pick (List.mem_toFinset.mpr hselected)
          fun c hc => hmax c (List.mem_toFinset.mp hc)
      · rw [hentries]
        exact holds_entriesOf
      · rw [hrun, List.length_append, hlength]
        rfl
      · rw [hentries]

theorem run_prefix (candidates : List WeightedCandidate) (k j : Nat) :
    ∃ later, (run candidates (k + j)).2 = (run candidates k).2 ++ later := by
  induction j with
  | zero => exact ⟨[], (List.append_nil _).symm⟩
  | succ j ih =>
      obtain ⟨later, hlater⟩ := ih
      refine ⟨later ++ ((run candidates (k + j)).1.select candidates).1.toList, ?_⟩
      show (run candidates (k + j)).2 ++ _ = _
      rw [hlater, List.append_assoc]
      rfl

/-- Without candidates nothing is selected. -/
theorem run_nil (k : Nat) : run [] k = (new, []) := by
  induction k with
  | zero => rfl
  | succ k ih =>
      show (((run [] k).1.select []).2, (run [] k).2 ++ ((run [] k).1.select []).1.toList) = _
      rw [ih]
      rfl

/-! ## Proportion -/

theorem weightOf_pos (hpositive : ∀ c ∈ candidates, 0 < c.weight) :
    ∀ c ∈ candidates.toFinset, 0 < weightOf c :=
  fun c hc => Int.natCast_pos.mpr (hpositive c (List.mem_toFinset.mp hc))

section
variable (hids : DistinctIds candidates) (hpositive : ∀ c ∈ candidates, 0 < c.weight)
include hids hpositive

theorem sum_currentWeight (k : Nat) :
    ((run candidates k).1.entries.map (·.currentWeight)).sum = 0 := by
  cases k with
  | zero => rfl
  | succ k =>
      by_cases hne : candidates = []
      · subst hne
        rw [run_nil]
        rfl
      · obtain ⟨hpicked, -, -, hentries⟩ := run_picked hids hpositive hne (k + 1)
        rw [hentries k.succ_pos]
        unfold entriesOf
        rw [List.map_map, ← hpicked.sum_credit, List.sum_toFinset _ (List.Nodup.of_map _ hids)]
        rfl

/-- After a whole number of cycles every candidate was selected its weight of
times in each. -/
theorem count_cycles (m : Nat) {c : WeightedCandidate} (hc : c ∈ candidates) :
    creditAfter candidates (m * (totalWeight candidates).toNat) c = 0 ∧
      (run candidates (m * (totalWeight candidates).toNat)).2.count c = m * c.weight := by
  have hweights := weightOf_pos hpositive
  have htotal : 0 < totalWeight candidates := by
    rw [totalWeight_eq_sum hids hpositive]
    exact Finset.sum_pos hweights ⟨c, List.mem_toFinset.mpr hc⟩
  obtain ⟨hpicked, -⟩ := run_picked hids hpositive (List.ne_nil_of_mem hc)
    (m * (totalWeight candidates).toNat)
  have hcast : ((m * (totalWeight candidates).toNat : Nat) : Int) =
      m * totalWeight candidates := by
    rw [Nat.cast_mul, Int.toNat_of_nonneg htotal.le]
  have hzero := hpicked.credit_eq_zero hweights
    ⟨m, by rw [hcast, totalWeight_eq_sum hids hpositive, mul_comm]⟩ (List.mem_toFinset.mpr hc)
  refine ⟨hzero, ?_⟩
  unfold credit at hzero
  rw [hcast, ← totalWeight_eq_sum hids hpositive] at hzero
  have hscaled : totalWeight candidates * (m * (c.weight : Int)) = totalWeight candidates *
      ((run candidates (m * (totalWeight candidates).toNat)).2.count c : Int) := by
    unfold weightOf at hzero
    linarith
  have hcount := mul_left_cancel₀ htotal.ne' hscaled
  exact_mod_cast hcount.symm

/-- A current weight stays below the number of candidates times the total. -/
theorem creditAfter_bounds (k : Nat) {c : WeightedCandidate} (hc : c ∈ candidates) :
    -totalWeight candidates < creditAfter candidates k c ∧
      creditAfter candidates k c <
        max 1 ((candidates.length : Int) - 1) * totalWeight candidates := by
  have hweights := weightOf_pos hpositive
  obtain ⟨hpicked, -⟩ := run_picked hids hpositive (List.ne_nil_of_mem hc) k
  have hmem := List.mem_toFinset.mpr hc
  have hupper := hpicked.credit_lt hweights hmem
  rw [List.toFinset_card_of_nodup (List.Nodup.of_map _ hids)] at hupper
  rw [totalWeight_eq_sum hids hpositive]
  exact ⟨hpicked.lt_credit hweights hmem, hupper⟩

/-- The count of a candidate against its share of `k` selections. -/
theorem deviation_lt (k : Nat) {c : WeightedCandidate} (hc : c ∈ candidates) :
    |((run candidates k).2.count c : ℚ) - k * c.weight / totalWeight candidates| <
      max 1 ((candidates.length : ℚ) - 1) := by
  have hweights := weightOf_pos hpositive
  have htotal : 0 < totalWeight candidates := by
    rw [totalWeight_eq_sum hids hpositive]
    exact Finset.sum_pos hweights ⟨c, List.mem_toFinset.mpr hc⟩
  have htotalRat : (0 : ℚ) < totalWeight candidates := by exact_mod_cast htotal
  obtain ⟨hlower, hupper⟩ := creditAfter_bounds hids hpositive k hc
  have hlower' : -(totalWeight candidates : ℚ) < creditAfter candidates k c := by
    exact_mod_cast hlower
  have hupper' : (creditAfter candidates k c : ℚ) <
      max 1 ((candidates.length : ℚ) - 1) * totalWeight candidates := by
    exact_mod_cast hupper
  have hcredit : ((run candidates k).2.count c : ℚ) - k * c.weight / totalWeight candidates =
      -(creditAfter candidates k c : ℚ) / totalWeight candidates := by
    unfold creditAfter credit weightOf
    rw [totalWeight_eq_sum hids hpositive] at htotalRat ⊢
    field_simp
    push_cast
    unfold weightOf
    push_cast
    ring
  rw [hcredit, abs_lt]
  constructor
  · rw [lt_div_iff₀ htotalRat]
    linarith
  · rw [div_lt_iff₀ htotalRat]
    have hone : (totalWeight candidates : ℚ) ≤
        max 1 ((candidates.length : ℚ) - 1) * totalWeight candidates :=
      le_mul_of_one_le_left htotalRat.le (le_max_left _ _)
    linarith

/-- No current weight leaves the number of candidates times the total weight. -/
theorem currentWeight_bounds (k : Nat) :
    ∀ entry ∈ (run candidates k).1.entries,
      |entry.currentWeight| ≤ candidates.length * totalWeight candidates := by
  intro entry hentry
  have hk : 0 < k := by
    by_contra hzero
    rw [Nat.eq_zero_of_not_pos hzero] at hentry
    exact absurd hentry List.not_mem_nil
  have hne : candidates ≠ [] := by
    rintro rfl
    rw [run_nil] at hentry
    exact absurd hentry List.not_mem_nil
  obtain ⟨-, -, -, hentries⟩ := run_picked hids hpositive hne k
  rw [hentries hk] at hentry
  obtain ⟨c, hc, rfl⟩ := List.mem_map.mp hentry
  obtain ⟨hlower, hupper⟩ := creditAfter_bounds hids hpositive k hc
  have hlength : (1 : Int) ≤ candidates.length := by
    exact_mod_cast List.length_pos_of_mem hc
  have htotal : 0 ≤ totalWeight candidates := by
    rw [totalWeight_eq_sum hids hpositive]
    exact Finset.sum_nonneg fun c _ => Int.natCast_nonneg _
  have hmax : max 1 ((candidates.length : Int) - 1) ≤ candidates.length := by omega
  have hscaled := mul_le_mul_of_nonneg_right hmax htotal
  have hone := mul_le_mul_of_nonneg_right hlength htotal
  rw [abs_le]
  constructor
  · linarith
  · linarith

end

/-- Selections over a fixed list are exactly proportional to its weights: each
selects a candidate, the current weights sum to zero, each cycle of the total weight selects every
candidate its weight of times and leaves zeros, and no count is off its share
by the number of candidates, nor by one where there are two. -/
theorem selections_proportional (candidates : List WeightedCandidate)
    (hids : DistinctIds candidates) (hpositive : ∀ c ∈ candidates, 0 < c.weight) :
    (candidates ≠ [] → ∀ k, (run candidates k).2.length = k) ∧
      (∀ k, ((run candidates k).1.entries.map (·.currentWeight)).sum = 0) ∧
      (∀ m, (∀ entry ∈ (run candidates (m * (totalWeight candidates).toNat)).1.entries,
          entry.currentWeight = 0) ∧
        ∀ c ∈ candidates,
          ((run candidates ((m + 1) * (totalWeight candidates).toNat)).2.drop
            (m * (totalWeight candidates).toNat)).count c = c.weight) ∧
      ∀ k, ∀ c ∈ candidates,
        |((run candidates k).2.count c : ℚ) - k * c.weight / totalWeight candidates| <
            candidates.length ∧
          (candidates.length = 2 →
            |((run candidates k).2.count c : ℚ) - k * c.weight / totalWeight candidates| < 1) := by
  refine ⟨fun hne k => (run_picked hids hpositive hne k).2.2.1, sum_currentWeight hids hpositive,
    fun m => ⟨?_, ?_⟩, fun k c hc => ⟨?_, fun htwo => ?_⟩⟩
  · intro entry hentry
    rcases Nat.eq_zero_or_pos (m * (totalWeight candidates).toNat) with hzero | hpos
    · rw [hzero] at hentry
      exact absurd hentry List.not_mem_nil
    · have hne : candidates ≠ [] := by
        rintro rfl
        exact absurd hpos (by simp [totalWeight])
      obtain ⟨-, -, -, hentries⟩ := run_picked hids hpositive hne (m * (totalWeight candidates).toNat)
      rw [hentries hpos] at hentry
      obtain ⟨c, hc, rfl⟩ := List.mem_map.mp hentry
      exact (count_cycles hids hpositive m hc).1
  · intro c hc
    obtain ⟨later, hlater⟩ := run_prefix candidates (m * (totalWeight candidates).toNat)
      (totalWeight candidates).toNat
    obtain ⟨-, -, hlength, -⟩ := run_picked hids hpositive (List.ne_nil_of_mem hc)
      (m * (totalWeight candidates).toNat)
    have hbefore := (count_cycles hids hpositive m hc).2
    have hafter := (count_cycles hids hpositive (m + 1) hc).2
    rw [Nat.succ_mul] at hafter ⊢
    rw [hlater, List.count_append, hbefore] at hafter
    rw [hlater, List.drop_left' hlength]
    rw [Nat.succ_mul] at hafter
    omega
  · refine (deviation_lt hids hpositive k hc).trans_le (max_le ?_ ?_)
    · exact_mod_cast List.length_pos_of_mem hc
    · linarith
  · have hlt := deviation_lt hids hpositive k hc
    rw [htwo] at hlt
    norm_num at hlt
    exact hlt

/-- Three channels of weights 5, 1 and 1. -/
def sampleCandidates : List WeightedCandidate := [⟨"a", 5⟩, ⟨"b", 1⟩, ⟨"c", 1⟩]

example : (run sampleCandidates 7).2.map (·.id) = ["a", "a", "b", "a", "c", "a", "a"] := by
  decide

theorem selections_proportional_sample :
    (sampleCandidates ≠ [] → ∀ k, (run sampleCandidates k).2.length = k) ∧
      (∀ k, ((run sampleCandidates k).1.entries.map (·.currentWeight)).sum = 0) ∧
      (∀ m, (∀ entry ∈ (run sampleCandidates (m * (totalWeight sampleCandidates).toNat)).1.entries,
          entry.currentWeight = 0) ∧
        ∀ c ∈ sampleCandidates,
          ((run sampleCandidates ((m + 1) * (totalWeight sampleCandidates).toNat)).2.drop
            (m * (totalWeight sampleCandidates).toNat)).count c = c.weight) ∧
      ∀ k, ∀ c ∈ sampleCandidates,
        |((run sampleCandidates k).2.count c : ℚ) -
              k * c.weight / totalWeight sampleCandidates| < sampleCandidates.length ∧
          (sampleCandidates.length = 2 →
            |((run sampleCandidates k).2.count c : ℚ) -
              k * c.weight / totalWeight sampleCandidates| < 1) :=
  selections_proportional sampleCandidates (by unfold DistinctIds; decide) (by decide)

end WeightedRoundRobin

end Conduit.Orchestrator
