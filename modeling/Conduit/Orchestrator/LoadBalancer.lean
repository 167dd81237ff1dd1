import Conduit.Base.TSys
import Mathlib.Data.List.Sort
import Mathlib.Data.List.TakeWhile
import Mathlib.Logic.Function.Basic

/-!
# Channel selection

`selectChannels` and `selectChannelsWithTieRotation` score the candidates,
sort them (score, then ordering weight, then input order), move the sticky
channel to the front, keep the top `k` and report the first one back to the
scoring strategy. A strategy is its state with a score and a record function;
`adaptiveWeighted` counts selections and scores a channel by minus its
weight-normalised count.

The one fact later modules need about the sort is `Leads`: the first channel
of a selection has the best score, and among those the best ordering weight.
-/

namespace Conduit.Orchestrator

open Base

def i64Max : Int := 9223372036854775807

def u64Max : Nat := 18446744073709551615

/-! ## Candidates and strategies -/

structure Candidate where
  id : String
  orderingWeight : Int
deriving DecidableEq, Repr

/-- A scoring strategy with its mutable state made explicit. -/
structure ScoringStrategy (σ : Type) where
  score : σ → Candidate → Int
  recordSelection : σ → Candidate → σ

/-- The selection counts of `AdaptiveWeightedScoring`; an absent key is zero. -/
abbrev Selections := String → Nat

namespace AdaptiveWeightedScoring

/-- A weight `≤ 0` counts as 100. -/
def weight (candidate : Candidate) : Int :=
  if 0 < candidate.orderingWeight then candidate.orderingWeight else 100

/-- The scaled count of a channel; what does not fit an `i64` becomes
`i64::MAX`. Both operands are nonnegative, so the division is the floor. -/
def normalized (candidate : Candidate) (count : Nat) : Int :=
  min ((count : Int) * 100000 / weight candidate) i64Max

def score (selections : Selections) (candidate : Candidate) : Int :=
  -normalized candidate (selections candidate.id)

def recordSelection (selections : Selections) (candidate : Candidate) : Selections :=
  Function.update selections candidate.id (min (selections candidate.id + 1) u64Max)

end AdaptiveWeightedScoring

def adaptiveWeighted : ScoringStrategy Selections where
  score := AdaptiveWeightedScoring.score
  recordSelection := AdaptiveWeightedScoring.recordSelection

/-! ## Sorting -/

structure ScoredCandidate where
  candidate : Candidate
  score : Int
  inputIndex : Nat
deriving DecidableEq, Repr

def scoreCandidates (candidates : List Candidate) (score : Candidate → Int) :
    List ScoredCandidate :=
  candidates.zipIdx.map fun entry => ⟨entry.1, score entry.1, entry.2⟩

def compareScored (left right : ScoredCandidate) : Ordering :=
  (compare right.score left.score).then <|
    (compare right.candidate.orderingWeight left.candidate.orderingWeight).then <|
      compare left.inputIndex right.inputIndex

/-- `sort_by(compare_scored)`: the order is total, so any stable sort gives
the same list. -/
def sortScored (scored : List ScoredCandidate) : List ScoredCandidate :=
  scored.insertionSort fun left right => compareScored left right ≠ .gt

def sortCandidatesTopK (candidates : List Candidate) (score : Candidate → Int) (topK : Nat) :
    List Candidate :=
  if candidates.length ≤ 1 then candidates.take topK
  else ((sortScored (scoreCandidates candidates score)).take topK).map (·.candidate)

/-! ## Selection -/

structure RetryPolicy where
  enabled : Bool
  maxChannelRetries : Nat
deriving DecidableEq, Repr

def RetryPolicy.topK (policy : RetryPolicy) : Nat :=
  if policy.enabled then 1 + policy.maxChannelRetries else 1

/-- `slice::rotate_left`. -/
def rotateLeft {α : Type} (l : List α) (k : Nat) : List α := l.drop k ++ l.take k

/-- Rotate the sticky channel, if it is a candidate, to the front. -/
def rotateSticky (result : List Candidate) (sticky : Option String) : List Candidate :=
  match sticky with
  | some stickyId =>
      match result.findIdx? (·.id = stickyId) with
      | some pos => rotateLeft result pos
      | none => result
  | none => result

/-- Rotate the leading group of equal score and equal ordering weight. -/
def rotateTies (scored : List ScoredCandidate) (offset : Nat) : List ScoredCandidate :=
  match scored with
  | [] => []
  | lead :: _ =>
      let tieLen := (scored.takeWhile fun entry =>
        entry.score = lead.score ∧
          entry.candidate.orderingWeight = lead.candidate.orderingWeight).length
      if 1 < tieLen then
        rotateLeft (scored.take tieLen) (offset % tieLen) ++ scored.drop tieLen
      else scored

variable {σ : Type}

/-- The selected channel is reported to the strategy. -/
def recordFirst (strategy : ScoringStrategy σ) (s : σ) (result : List Candidate) :
    List Candidate × σ :=
  match result.head? with
  | some selected => (result, strategy.recordSelection s selected)
  | none => (result, s)

def selectChannels (strategy : ScoringStrategy σ) (s : σ) (candidates : List Candidate)
    (policy : RetryPolicy) (sticky : Option String) : List Candidate × σ :=
  let topK := min policy.topK candidates.length
  let result := sortCandidatesTopK candidates (strategy.score s) candidates.length
  recordFirst strategy s ((rotateSticky result sticky).take topK)

def selectChannelsWithTieRotation (strategy : ScoringStrategy σ) (s : σ)
    (candidates : List Candidate) (policy : RetryPolicy) (sticky : Option String)
    (offset : Nat) : List Candidate × σ :=
  match candidates with
  | [] => ([], s)
  | _ :: _ =>
      let scored := rotateTies (sortScored (scoreCandidates candidates (strategy.score s))) offset
      let result := rotateSticky (scored.map (·.candidate)) sticky
      recordFirst strategy s (result.take (min policy.topK candidates.length))

/-! ## The first channel of a selection -/

/-- `c` is a candidate of the best score, and among those of the best
ordering weight. -/
def Leads (candidates : List Candidate) (score : Candidate → Int) (c : Candidate) : Prop :=
  c ∈ candidates ∧ ∀ d ∈ candidates, score d < score c ∨
    (score d = score c ∧ d.orderingWeight ≤ c.orderingWeight)

theorem compareScored_ne_gt (l r : ScoredCandidate) :
    compareScored l r ≠ .gt ↔ r.score < l.score ∨ (r.score = l.score ∧
      (r.candidate.orderingWeight < l.candidate.orderingWeight ∨
        (r.candidate.orderingWeight = l.candidate.orderingWeight ∧
          l.inputIndex ≤ r.inputIndex))) := by
  unfold compareScored
  simp only [ne_eq, Ordering.then_eq_gt, compare_gt_iff_gt, compare_eq_iff_eq]
  omega

private instance : Std.Total fun l r : ScoredCandidate => compareScored l r ≠ .gt where
  total l r := by
    rw [compareScored_ne_gt, compareScored_ne_gt]
    omega

private instance : IsTrans ScoredCandidate fun l r => compareScored l r ≠ .gt where
  trans l m r := by
    rw [compareScored_ne_gt, compareScored_ne_gt, compareScored_ne_gt]
    omega

theorem mem_scoreCandidates {candidates : List Candidate} {score : Candidate → Int}
    {entry : ScoredCandidate} (h : entry ∈ scoreCandidates candidates score) :
    entry.candidate ∈ candidates ∧ entry.score = score entry.candidate := by
  obtain ⟨⟨c, i⟩, hmem, rfl⟩ := List.mem_map.mp h
  exact ⟨List.fst_mem_of_mem_zipIdx hmem, rfl⟩

theorem exists_mem_scoreCandidates {candidates : List Candidate} (score : Candidate → Int)
    {c : Candidate} (h : c ∈ candidates) :
    ∃ entry ∈ scoreCandidates candidates score, entry.candidate = c := by
  obtain ⟨i, hi⟩ := List.getElem?_of_mem h
  exact ⟨⟨c, score c, i⟩,
    List.mem_map.mpr ⟨(c, i), List.mem_zipIdx_iff_getElem?.mpr hi, rfl⟩, rfl⟩

theorem pairwise_sortScored (scored : List ScoredCandidate) :
    (sortScored scored).Pairwise fun l r => compareScored l r ≠ .gt :=
  List.pairwise_insertionSort _ _

/-- The first entry of the sorted list leads. -/
theorem leads_of_sortScored {candidates : List Candidate} {score : Candidate → Int}
    {lead : ScoredCandidate} {rest : List ScoredCandidate}
    (h : sortScored (scoreCandidates candidates score) = lead :: rest) :
    Leads candidates score lead.candidate := by
  have hmem : ∀ e, e ∈ lead :: rest ↔ e ∈ scoreCandidates candidates score := by
    intro e
    rw [← h]
    exact List.mem_insertionSort _
  have hlead := mem_scoreCandidates ((hmem lead).mp List.mem_cons_self)
  have hsorted : (lead :: rest).Pairwise fun l r => compareScored l r ≠ .gt := by
    rw [← h]
    exact pairwise_sortScored _
  refine ⟨hlead.1, fun d hd => ?_⟩
  obtain ⟨e, he, rfl⟩ := exists_mem_scoreCandidates score hd
  have hscore := (mem_scoreCandidates he).2
  rcases List.mem_cons.mp ((hmem e).mpr he) with rfl | hrest
  · exact .inr ⟨rfl, Int.le_refl _⟩
  · have hle := (compareScored_ne_gt lead e).mp (List.rel_of_pairwise_cons hsorted hrest)
    rw [hscore, hlead.2] at hle
    omega

/-- A candidate as good as the leader leads too. -/
theorem Leads.of_eq {candidates : List Candidate} {score : Candidate → Int} {c d : Candidate}
    (h : Leads candidates score c) (hd : d ∈ candidates) (hscore : score d = score c)
    (hweight : d.orderingWeight = c.orderingWeight) : Leads candidates score d := by
  refine ⟨hd, fun e he => ?_⟩
  rw [hscore, hweight]
  exact h.2 e he

theorem head?_rotateLeft {α : Type} {l : List α} {k : Nat} (h : k < l.length) :
    (rotateLeft l k).head? = some l[k] := by
  unfold rotateLeft
  rw [List.drop_eq_getElem_cons h]
  rfl

/-- Rotating the ties puts an entry of the leading group first. -/
theorem rotateTies_head (lead : ScoredCandidate) (rest : List ScoredCandidate) (offset : Nat) :
    ∃ e ∈ lead :: rest, (rotateTies (lead :: rest) offset).head? = some e ∧
      e.score = lead.score ∧ e.candidate.orderingWeight = lead.candidate.orderingWeight := by
  simp only [rotateTies]
  split
  · next htie =>
      have htake := List.prefix_iff_eq_take.mp
        (List.takeWhile_prefix (l := lead :: rest) fun entry =>
          entry.score = lead.score ∧
            entry.candidate.orderingWeight = lead.candidate.orderingWeight)
      rw [← htake]
      have hlt := Nat.mod_lt offset (Nat.zero_lt_of_lt htie)
      have hmem := List.getElem_mem hlt
      refine ⟨_, (List.takeWhile_prefix _).subset hmem, ?_, ?_⟩
      · rw [List.head?_append, head?_rotateLeft hlt]
        rfl
      · simpa using List.mem_takeWhile_imp hmem
  · exact ⟨lead, List.mem_cons_self, rfl, rfl, rfl⟩

theorem recordFirst_of_head {σ : Type} (strategy : ScoringStrategy σ) (s : σ)
    {result : List Candidate} {c : Candidate} (h : result.head? = some c) :
    recordFirst strategy s result = (result, strategy.recordSelection s c) := by
  unfold recordFirst
  rw [h]

theorem head?_take_of_pos {α : Type} {l : List α} {n : Nat} (hn : 0 < n) :
    (l.take n).head? = l.head? := by
  cases n with
  | zero => exact absurd hn (by omega)
  | succ n => cases l <;> rfl

theorem RetryPolicy.topK_pos (policy : RetryPolicy) : 0 < policy.topK := by
  unfold topK
  split <;> omega

/-! ## What the selections do -/

section Selection

variable {σ : Type} (strategy : ScoringStrategy σ) (s : σ) (policy : RetryPolicy)

theorem sortCandidatesTopK_head {candidates : List Candidate} (score : Candidate → Int)
    (hne : candidates ≠ []) :
    ∃ c, (sortCandidatesTopK candidates score candidates.length).head? = some c ∧
      Leads candidates score c := by
  have hpos := List.length_pos_of_ne_nil hne
  unfold sortCandidatesTopK
  split
  · next hle =>
      obtain ⟨c, rfl⟩ := List.length_eq_one_iff.mp (Nat.le_antisymm hle hpos)
      exact ⟨c, rfl, List.mem_singleton_self c, fun d hd => by
        rw [List.mem_singleton.mp hd]
        exact .inr ⟨rfl, Int.le_refl _⟩⟩
  · cases hsort : sortScored (scoreCandidates candidates score) with
    | nil =>
        have hlen := congrArg List.length hsort
        simp [sortScored, scoreCandidates] at hlen
        exact absurd hlen hne
    | cons lead rest =>
        refine ⟨lead.candidate, ?_, leads_of_sortScored hsort⟩
        rw [List.head?_map, head?_take_of_pos hpos]
        rfl

/-- Without a sticky channel, `selectChannels` records and returns first a
channel that leads. -/
theorem selectChannels_leads {candidates : List Candidate} (hne : candidates ≠ []) :
    ∃ c, Leads candidates (strategy.score s) c ∧
      (selectChannels strategy s candidates policy none).1.head? = some c ∧
      (selectChannels strategy s candidates policy none).2 = strategy.recordSelection s c := by
  have hpos := List.length_pos_of_ne_nil hne
  obtain ⟨c, hhead, hleads⟩ := sortCandidatesTopK_head (strategy.score s) hne
  have hfirst : ((sortCandidatesTopK candidates (strategy.score s) candidates.length).take
      (min policy.topK candidates.length)).head? = some c := by
    rw [head?_take_of_pos (Nat.lt_min.mpr ⟨policy.topK_pos, hpos⟩), hhead]
  refine ⟨c, hleads, ?_, ?_⟩ <;>
    simp only [selectChannels, rotateSticky, recordFirst_of_head strategy s hfirst]
  exact hfirst

/-- Without a sticky channel, `selectChannelsWithTieRotation` records and
returns first a channel that leads, whatever the offset. -/
theorem selectChannelsWithTieRotation_leads {candidates : List Candidate}
    (hne : candidates ≠ []) (offset : Nat) :
    ∃ c, Leads candidates (strategy.score s) c ∧
      (selectChannelsWithTieRotation strategy s candidates policy none offset).1.head? =
        some c ∧
      (selectChannelsWithTieRotation strategy s candidates policy none offset).2 =
        strategy.recordSelection s c := by
  have hpos := List.length_pos_of_ne_nil hne
  cases hsort : sortScored (scoreCandidates candidates (strategy.score s)) with
  | nil =>
      have hlen := congrArg List.length hsort
      simp [sortScored, scoreCandidates] at hlen
      exact absurd hlen hne
  | cons lead rest =>
      obtain ⟨e, hmem, hhead, hscore, hweight⟩ := rotateTies_head lead rest offset
      have hscored : ∀ x ∈ lead :: rest, x.candidate ∈ candidates ∧
          x.score = strategy.score s x.candidate := by
        intro x hx
        rw [← hsort] at hx
        exact mem_scoreCandidates ((List.mem_insertionSort _).mp hx)
      have hlead := hscored lead List.mem_cons_self
      have he := hscored e hmem
      have hleads : Leads candidates (strategy.score s) e.candidate :=
        (leads_of_sortScored hsort).of_eq he.1 (by rw [← he.2, hscore, hlead.2]) hweight
      have hfirst : (((rotateTies (lead :: rest) offset).map (·.candidate)).take
          (min policy.topK candidates.length)).head? = some e.candidate := by
        rw [head?_take_of_pos (Nat.lt_min.mpr ⟨policy.topK_pos, hpos⟩), List.head?_map, hhead]
        rfl
      cases candidates with
      | nil => exact absurd rfl hne
      | cons first others =>
          refine ⟨e.candidate, hleads, ?_, ?_⟩ <;>
            simp only [selectChannelsWithTieRotation, hsort, rotateSticky,
              recordFirst_of_head strategy s hfirst]
          exact hfirst

end Selection

end Conduit.Orchestrator
