import Conduit.Base.Keyed
import Conduit.Base.Saturating
import Mathlib

/-!
# The price multiplier of a project

`resolve_project_price_multiplier` takes one winner for each stacking key, the
adjustment of the largest priority and id, and multiplies the base by the
winners in the order of their keys, rounding half up after each. The order of
the adjustments does not show, nor does one that another outranks.
-/

namespace Conduit.Billing

open Base

/-! ## Adjustments -/

structure ProjectPriceAdjustment where
  id : Int
  multiplierPpm : Int
  stackingKey : String
  priority : Int
  status : String
  validFrom : Option Int
  validUntil : Option Int
deriving DecidableEq, Repr

namespace ProjectPriceAdjustment

def isActiveAt (a : ProjectPriceAdjustment) (now : Int) : Bool :=
  a.status = "active" && a.validFrom.all (fun start => start ≤ now) &&
    a.validUntil.all fun stop => now < stop

/-- `(priority, id)` compared. -/
def outranks (a b : ProjectPriceAdjustment) : Prop :=
  b.priority < a.priority ∨ (b.priority = a.priority ∧ b.id < a.id)

instance : DecidableRel outranks := fun _ _ => inferInstanceAs (Decidable (_ ∨ _ ∧ _))

end ProjectPriceAdjustment

structure ProjectPriceDecision where
  effectiveMultiplierPpm : Int
  appliedAdjustmentIds : List Int
deriving DecidableEq, Repr

inductive ProjectPriceError
  | negativeMultiplier
  | overflow
deriving DecidableEq, Repr

def multiplierOnePpm : Int := 1000000

/-! ## The computation -/

/-- `and_modify` or `or_insert`. -/
def keepWinner (a : ProjectPriceAdjustment) :
    Option ProjectPriceAdjustment → Option ProjectPriceAdjustment
  | none => some a
  | some current => if a.outranks current then some a else some current

/-- The winners in the order of their keys. -/
def winners (active : List ProjectPriceAdjustment) : List ProjectPriceAdjustment :=
  (Keyed.fold (fun a : ProjectPriceAdjustment => a.stackingKey) (fun _ => none) keepWinner
    active).filterMap Prod.snd

/-- An `i128` or an overflow. -/
def checkedI128 (n : Int) : Except ProjectPriceError Int :=
  if -170141183460469231731687303715884105728 ≤ n ∧
      n ≤ 170141183460469231731687303715884105727 then .ok n
  else .error .overflow

/-- One winner: multiply, add a half, divide towards zero. -/
def applyWinner (multiplier : Int) (winner : ProjectPriceAdjustment) :
    Except ProjectPriceError Int := do
  let product ← checkedI128 (multiplier * winner.multiplierPpm)
  let rounded ← checkedI128 (product + multiplierOnePpm / 2)
  pure (rounded.tdiv multiplierOnePpm)

/-- The product over the winners, as an `i64`, with their ids. -/
def combine (baseMultiplierPpm : Int) (winners : List ProjectPriceAdjustment) :
    Except ProjectPriceError ProjectPriceDecision := do
  let multiplier ← winners.foldlM applyWinner baseMultiplierPpm
  match toI64 multiplier with
  | some effective =>
      pure ⟨effective, (winners.map (·.id)).mergeSort fun a b => a ≤ b⟩
  | none => throw .overflow

def resolveProjectPriceMultiplier (baseMultiplierPpm : Int)
    (adjustments : List ProjectPriceAdjustment) (now : Int) :
    Except ProjectPriceError ProjectPriceDecision :=
  if baseMultiplierPpm < 0 then .error .negativeMultiplier
  else
    let active := adjustments.filter (·.isActiveAt now)
    if active.any fun a => a.multiplierPpm < 0 then .error .negativeMultiplier
    else combine baseMultiplierPpm (winners active)

/-! ## The winner of a key -/

/-- The fold over the adjustments of one key. -/
def winnerOf (adjustments : List ProjectPriceAdjustment) : Option ProjectPriceAdjustment :=
  adjustments.foldl (fun current a => keepWinner a current) none

/-- `a` is the maximum of a list. -/
structure Wins (adjustments : List ProjectPriceAdjustment) (a : ProjectPriceAdjustment) : Prop where
  mem : a ∈ adjustments
  best : ∀ b ∈ adjustments, ¬ b.outranks a

theorem keepWinner_some (a current : ProjectPriceAdjustment) :
    keepWinner a (some current) = some (if a.outranks current then a else current) := by
  unfold keepWinner
  by_cases h : a.outranks current
  · simp [h]
  · simp [h]

/-- What does not outrank the loser of a comparison does not outrank its winner. -/
theorem not_outranks_trans {a b c : ProjectPriceAdjustment} (hab : ¬ a.outranks b)
    (hbc : ¬ b.outranks c) : ¬ a.outranks c := by
  unfold ProjectPriceAdjustment.outranks at *
  omega

theorem foldl_keepWinner (adjustments : List ProjectPriceAdjustment)
    (current : ProjectPriceAdjustment) :
    ∃ winner, adjustments.foldl (fun current a => keepWinner a current) (some current) =
        some winner ∧ Wins (current :: adjustments) winner := by
  induction adjustments generalizing current with
  | nil =>
      refine ⟨current, rfl, List.mem_singleton_self current, fun b hb => ?_⟩
      rw [List.mem_singleton.mp hb]
      unfold ProjectPriceAdjustment.outranks
      omega
  | cons a adjustments ih =>
      rw [List.foldl_cons, keepWinner_some]
      obtain ⟨winner, hfold, hwins⟩ := ih (if a.outranks current then a else current)
      refine ⟨winner, hfold, ?_, fun b hb => ?_⟩
      · rcases List.mem_cons.mp hwins.mem with rfl | hmem
        · by_cases h : a.outranks current
          · simp [h]
          · simp [h]
        · exact List.mem_cons_of_mem _ (List.mem_cons_of_mem _ hmem)
      · have hkept : ¬ (if a.outranks current then a else current).outranks winner :=
          hwins.best _ List.mem_cons_self
        by_cases h : a.outranks current
        · rw [if_pos h] at hkept
          have hcurrent : ¬ current.outranks a := by
            unfold ProjectPriceAdjustment.outranks at *
            omega
          rcases List.mem_cons.mp hb with rfl | hb
          · exact not_outranks_trans hcurrent hkept
          · rcases List.mem_cons.mp hb with rfl | hb
            · exact hkept
            · exact hwins.best b (List.mem_cons_of_mem _ hb)
        · rw [if_neg h] at hkept
          rcases List.mem_cons.mp hb with rfl | hb
          · exact hkept
          · rcases List.mem_cons.mp hb with rfl | hb
            · exact not_outranks_trans h hkept
            · exact hwins.best b (List.mem_cons_of_mem _ hb)

/-- The fold finds a maximum of what it is given. -/
theorem winnerOf_wins {adjustments : List ProjectPriceAdjustment} (h : adjustments ≠ []) :
    ∃ winner, winnerOf adjustments = some winner ∧ Wins adjustments winner := by
  cases adjustments with
  | nil => exact absurd rfl h
  | cons a adjustments => exact foldl_keepWinner adjustments a

/-- No two adjustments share an id. -/
def DistinctIds (adjustments : List ProjectPriceAdjustment) : Prop :=
  (adjustments.map (·.id)).Nodup

theorem DistinctIds.eq {adjustments : List ProjectPriceAdjustment} (h : DistinctIds adjustments)
    {a b : ProjectPriceAdjustment} (ha : a ∈ adjustments) (hb : b ∈ adjustments)
    (hid : a.id = b.id) : a = b := List.inj_on_of_nodup_map h ha hb hid

/-- With distinct ids there is one maximum. -/
theorem Wins.unique {adjustments : List ProjectPriceAdjustment} (h : DistinctIds adjustments)
    {a b : ProjectPriceAdjustment} (ha : Wins adjustments a) (hb : Wins adjustments b) : a = b := by
  have hab := ha.best b hb.mem
  have hba := hb.best a ha.mem
  refine h.eq ha.mem hb.mem ?_
  unfold ProjectPriceAdjustment.outranks at hab hba
  omega

/-- A maximum among distinct ids is what the fold finds. -/
theorem Wins.winnerOf_eq {adjustments : List ProjectPriceAdjustment} (h : DistinctIds adjustments)
    {a : ProjectPriceAdjustment} (ha : Wins adjustments a) : winnerOf adjustments = some a := by
  obtain ⟨winner, hfold, hwins⟩ := winnerOf_wins (List.ne_nil_of_mem ha.mem)
  rw [hfold, ha.unique h hwins]

theorem winners_congr {active active' : List ProjectPriceAdjustment}
    (h : ∀ key, winnerOf (active.filter fun a => a.stackingKey = key) =
      winnerOf (active'.filter fun a => a.stackingKey = key)) : winners active = winners active' := by
  unfold winners
  refine congrArg (fun entries : List (String × Option ProjectPriceAdjustment) =>
    entries.filterMap Prod.snd) ?_
  refine Keyed.ext_get (Keyed.sorted_fold _ _ _ _) (Keyed.sorted_fold _ _ _ _) fun key => ?_
  have hkey := h key
  rw [Keyed.get_fold, Keyed.get_fold]
  by_cases hempty : (active.filter fun a => a.stackingKey = key) = []
  · by_cases hempty' : (active'.filter fun a => a.stackingKey = key) = []
    · rw [if_pos hempty, if_pos hempty']
    · obtain ⟨winner, hwinner, -⟩ := winnerOf_wins hempty'
      rw [hempty, hwinner] at hkey
      exact absurd hkey (by simp [winnerOf])
  · by_cases hempty' : (active'.filter fun a => a.stackingKey = key) = []
    · obtain ⟨winner, hwinner, -⟩ := winnerOf_wins hempty
      rw [hempty', hwinner] at hkey
      exact absurd hkey (by simp [winnerOf])
    · rw [if_neg hempty, if_neg hempty']
      exact congrArg some hkey

/-! ## What the result does not depend on -/

theorem DistinctIds.filter {adjustments : List ProjectPriceAdjustment}
    (h : DistinctIds adjustments) (p : ProjectPriceAdjustment → Bool) :
    DistinctIds (adjustments.filter p) := h.sublist (List.filter_sublist.map _)

theorem winnerOf_perm {adjustments other : List ProjectPriceAdjustment}
    (h : DistinctIds adjustments) (hperm : other.Perm adjustments) :
    winnerOf other = winnerOf adjustments := by
  by_cases hempty : other = []
  · have hnil : adjustments = [] := List.nil_perm.mp (hempty ▸ hperm)
    rw [hempty, hnil]
  · obtain ⟨winner, hwinner, hwins⟩ := winnerOf_wins hempty
    have htransfer : Wins adjustments winner :=
      ⟨hperm.mem_iff.mp hwins.mem, fun b hb => hwins.best b (hperm.mem_iff.mpr hb)⟩
    rw [hwinner, htransfer.winnerOf_eq h]

/-- Dropping what another outranks leaves the maximum. -/
theorem winnerOf_drop {before after : List ProjectPriceAdjustment}
    {a b : ProjectPriceAdjustment} (h : DistinctIds (before ++ a :: after))
    (hb : b ∈ before ++ a :: after) (hoff : b.outranks a) :
    winnerOf (before ++ after) = winnerOf (before ++ a :: after) := by
  obtain ⟨winner, hwinner, hwins⟩ := @winnerOf_wins (before ++ a :: after) (by simp)
  have hne : winner ≠ a := by
    rintro rfl
    exact hwins.best b hb hoff
  have hmem : winner ∈ before ++ after := by
    have hmem := hwins.mem
    simp only [List.mem_append, List.mem_cons] at hmem ⊢
    tauto
  have hkept : Wins (before ++ after) winner := by
    refine ⟨hmem, fun c hc => hwins.best c ?_⟩
    simp only [List.mem_append, List.mem_cons] at hc ⊢
    tauto
  have hdistinct : DistinctIds (before ++ after) :=
    h.sublist ((List.sublist_cons_self a after).append_left before |>.map _)
  rw [hwinner, hkept.winnerOf_eq hdistinct]

/-- The maximum of the active adjustments of its key. -/
def IsMaximum (adjustments : List ProjectPriceAdjustment) (now : Int)
    (a : ProjectPriceAdjustment) : Prop :=
  ∀ b ∈ adjustments, b.isActiveAt now = true → b.stackingKey = a.stackingKey →
    b = a ∨ a.outranks b

/-- The decision, or the error, is the same for every order of the adjustments
and without any active one that is not the maximum of its key. -/
theorem multiplier_order_independent (baseMultiplierPpm : Int)
    (adjustments : List ProjectPriceAdjustment) (now : Int) (h : DistinctIds adjustments) :
    (∀ other, other.Perm adjustments →
      resolveProjectPriceMultiplier baseMultiplierPpm other now =
        resolveProjectPriceMultiplier baseMultiplierPpm adjustments now) ∧
      ∀ before a after, adjustments = before ++ a :: after → a.isActiveAt now = true →
        0 ≤ a.multiplierPpm → ¬ IsMaximum adjustments now a →
          resolveProjectPriceMultiplier baseMultiplierPpm (before ++ after) now =
            resolveProjectPriceMultiplier baseMultiplierPpm adjustments now := by
  constructor
  · intro other hperm
    have hactive := hperm.filter fun a => a.isActiveAt now
    have hnegative : ((other.filter (·.isActiveAt now)).any fun a => decide (a.multiplierPpm < 0)) =
        (adjustments.filter (·.isActiveAt now)).any fun a => decide (a.multiplierPpm < 0) := by
      rw [Bool.eq_iff_iff, List.any_eq_true, List.any_eq_true]
      simp only [hactive.mem_iff]
    have hwinners : winners (other.filter (·.isActiveAt now)) =
        winners (adjustments.filter (·.isActiveAt now)) :=
      winners_congr fun key => winnerOf_perm ((h.filter _).filter _) (hactive.filter _)
    unfold resolveProjectPriceMultiplier
    dsimp only
    rw [hnegative, hwinners]
  · rintro before a after rfl hactive hmultiplier hmax
    -- with distinct ids a rival that `a` does not outrank outranks `a`
    obtain ⟨b, hb, hbactive, hkey, hoff⟩ : ∃ b ∈ before ++ a :: after,
        b.isActiveAt now = true ∧ b.stackingKey = a.stackingKey ∧ b.outranks a := by
      by_contra hnone
      refine hmax fun b hb hbactive hkey => ?_
      have hnot : ¬ b.outranks a := fun hoff => hnone ⟨b, hb, hbactive, hkey, hoff⟩
      by_cases hid : b.id = a.id
      · exact .inl (h.eq hb (by simp) hid)
      · refine .inr ?_
        unfold ProjectPriceAdjustment.outranks at *
        omega
    have hfilter : (before ++ a :: after).filter (·.isActiveAt now) =
        before.filter (·.isActiveAt now) ++ a :: after.filter (·.isActiveAt now) := by
      rw [List.filter_append,
        @List.filter_cons_of_pos _ (fun a => a.isActiveAt now) a after hactive]
    have hnegative : ((before ++ after).filter (·.isActiveAt now)).any
          (fun a => decide (a.multiplierPpm < 0)) =
        ((before ++ a :: after).filter (·.isActiveAt now)).any
          fun a => decide (a.multiplierPpm < 0) := by
      rw [hfilter, List.filter_append]
      simp [not_lt.mpr hmultiplier]
    have hwinners : winners ((before ++ after).filter (·.isActiveAt now)) =
        winners ((before ++ a :: after).filter (·.isActiveAt now)) := by
      refine winners_congr fun key => ?_
      rw [hfilter, List.filter_append, List.filter_append, List.filter_append]
      by_cases hsame : a.stackingKey = key
      · rw [List.filter_cons_of_pos (by simpa using hsame)]
        refine winnerOf_drop ?_ (b := b) ?_ hoff
        · have hdistinct := (h.filter (·.isActiveAt now)).filter fun a => a.stackingKey = key
          rwa [hfilter, List.filter_append, List.filter_cons_of_pos (by simpa using hsame)]
            at hdistinct
        · have hmem : b ∈ ((before ++ a :: after).filter (·.isActiveAt now)).filter
              fun a => a.stackingKey = key := by
            rw [List.mem_filter, List.mem_filter]
            exact ⟨⟨hb, hbactive⟩, by simpa using hkey.trans hsame⟩
          rwa [hfilter, List.filter_append, List.filter_cons_of_pos (by simpa using hsame)] at hmem
      · rw [List.filter_cons_of_neg (by simpa using hsame)]
    unfold resolveProjectPriceMultiplier
    dsimp only
    rw [hnegative, hwinners]

/-- Two campaigns on one key and a partner rate on another. -/
def sampleAdjustments : List ProjectPriceAdjustment :=
  [⟨1, 900000, "campaign", 0, "active", none, none⟩,
    ⟨2, 800000, "campaign", 1, "active", none, none⟩,
    ⟨3, 1100000, "partner", 0, "active", none, none⟩]

theorem multiplier_sample :
    (∀ other, other.Perm sampleAdjustments →
      resolveProjectPriceMultiplier 1000000 other 0 =
        resolveProjectPriceMultiplier 1000000 sampleAdjustments 0) ∧
      ∀ before a after, sampleAdjustments = before ++ a :: after → a.isActiveAt 0 = true →
        0 ≤ a.multiplierPpm → ¬ IsMaximum sampleAdjustments 0 a →
          resolveProjectPriceMultiplier 1000000 (before ++ after) 0 =
            resolveProjectPriceMultiplier 1000000 sampleAdjustments 0 :=
  multiplier_order_independent 1000000 sampleAdjustments 0 (by unfold DistinctIds; decide)

end Conduit.Billing
