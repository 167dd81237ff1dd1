import Conduit.Billing.UsageCost

/-!
# Tiered prices as marginal prices

A tier bills the tokens of the quantity above the bound before it and up to its
own (`unitsWithin`); the loop bills every tier that has some, in order, and adds
up what they cost. A tier without tokens costs nothing, so the sum may run over
all of them, and there it grows with the quantity.
-/

namespace Conduit.Billing.UsageCost

open Base

/-- The bounds increase from `prev` on, and the last tier is open. -/
def Increasing : Int → List PriceTier → Prop
  | _, [] => False
  | _, [last] => last.upTo = none
  | prev, tier :: tiers => ∃ upTo, tier.upTo = some upTo ∧ prev < upTo ∧ Increasing upTo tiers

/-- The tiers, each with the bound before it. -/
def segments : Int → List PriceTier → List (Int × PriceTier)
  | _, [] => []
  | prev, tier :: tiers => (prev, tier) :: segments (tier.upTo.getD 0) tiers

/-- The tokens of the quantity that lie above the bound before the tier and up
to its own. -/
noncomputable def tokensWithin (quantity : Int) (segment : Int × PriceTier) : Finset Int :=
  (Finset.Ioc 0 quantity).filter fun token =>
    segment.1 < token ∧ ∀ upTo ∈ segment.2.upTo, token ≤ upTo

noncomputable def unitsWithin (quantity : Int) (segment : Int × PriceTier) : Int :=
  (tokensWithin quantity segment).card

theorem unitsWithin_of_le {quantity prev upTo : Int} {tier : PriceTier} (hprev : 0 ≤ prev)
    (hupTo : tier.upTo = some upTo) (h : quantity ≤ upTo) :
    unitsWithin quantity (prev, tier) = max (quantity - prev) 0 := by
  have htokens : tokensWithin quantity (prev, tier) = Finset.Ioc prev quantity := by
    ext token
    simp only [tokensWithin, hupTo, Option.mem_some_iff, forall_eq', Finset.mem_filter,
      Finset.mem_Ioc]
    omega
  unfold unitsWithin
  rw [htokens, Int.card_Ioc]
  omega

theorem unitsWithin_of_lt {quantity prev upTo : Int} {tier : PriceTier} (hprev : 0 ≤ prev)
    (hupTo : tier.upTo = some upTo) (h : upTo < quantity) :
    unitsWithin quantity (prev, tier) = max (upTo - prev) 0 := by
  have htokens : tokensWithin quantity (prev, tier) = Finset.Ioc prev upTo := by
    ext token
    simp only [tokensWithin, hupTo, Option.mem_some_iff, forall_eq', Finset.mem_filter,
      Finset.mem_Ioc]
    omega
  unfold unitsWithin
  rw [htokens, Int.card_Ioc]
  omega

theorem unitsWithin_open {quantity prev : Int} {tier : PriceTier} (hprev : 0 ≤ prev)
    (hupTo : tier.upTo = none) : unitsWithin quantity (prev, tier) = max (quantity - prev) 0 := by
  have htokens : tokensWithin quantity (prev, tier) = Finset.Ioc prev quantity := by
    ext token
    simp only [tokensWithin, hupTo, Option.mem_def, reduceCtorEq, false_implies, implies_true,
      and_true, Finset.mem_filter, Finset.mem_Ioc]
    omega
  unfold unitsWithin
  rw [htokens, Int.card_Ioc]
  omega

theorem unitsWithin_nonneg (quantity : Int) (segment : Int × PriceTier) :
    0 ≤ unitsWithin quantity segment :=
  Int.natCast_nonneg _

/-- A larger quantity has more tokens in every tier. -/
theorem unitsWithin_mono {smaller quantity : Int} (h : smaller ≤ quantity)
    (segment : Int × PriceTier) :
    unitsWithin smaller segment ≤ unitsWithin quantity segment := by
  unfold unitsWithin tokensWithin
  exact_mod_cast Finset.card_le_card
    (Finset.filter_subset_filter _ (Finset.Ioc_subset_Ioc_right h))

theorem unitsWithin_le (quantity : Int) (h : 0 ≤ quantity) (segment : Int × PriceTier) :
    unitsWithin quantity segment ≤ quantity := by
  have hcard := Finset.card_filter_le (Finset.Ioc 0 quantity) fun token =>
    segment.1 < token ∧ ∀ upTo ∈ segment.2.upTo, token ≤ upTo
  rw [Int.card_Ioc] at hcard
  unfold unitsWithin tokensWithin
  omega

/-- A tier that starts at the quantity has none of its tokens. -/
theorem unitsWithin_eq_zero {quantity : Int} {segment : Int × PriceTier}
    (h : quantity ≤ segment.1) : unitsWithin quantity segment = 0 := by
  unfold unitsWithin tokensWithin
  rw [Finset.filter_eq_empty_iff.mpr]
  · rfl
  · intro token htoken
    have := (Finset.mem_Ioc.mp htoken).2
    omega

/-- Every later segment starts at or above the bound. -/
theorem segments_le {prev : Int} {tiers : List PriceTier} (h : Increasing prev tiers) :
    ∀ segment ∈ segments prev tiers, prev ≤ segment.1 := by
  fun_induction Increasing prev tiers with
  | case1 => exact h.elim
  | case2 prev last =>
      intro segment hsegment
      rw [List.mem_singleton.mp hsegment]
  | case3 prev tier tiers hne ih =>
      obtain ⟨upTo, hupTo, hlt, hrest⟩ := h
      intro segment hsegment
      rcases List.mem_cons.mp hsegment with rfl | hsegment
      · exact le_rfl
      · rw [hupTo] at hsegment
        have := ih upTo hrest segment hsegment
        omega

/-- The segments cover the quantity. -/
theorem sum_unitsWithin {quantity prev : Int} {tiers : List PriceTier} (hprev : 0 ≤ prev)
    (h : Increasing prev tiers) :
    ((segments prev tiers).map (unitsWithin quantity)).sum = max (quantity - prev) 0 := by
  fun_induction Increasing prev tiers with
  | case1 => exact h.elim
  | case2 prev last =>
      show unitsWithin quantity (prev, last) + 0 = _
      rw [unitsWithin_open hprev h, Int.add_zero]
  | case3 prev tier tiers hne ih =>
      obtain ⟨upTo, hupTo, hlt, hrest⟩ := h
      have ih := ih upTo (by omega) hrest
      rw [segments, List.map_cons, List.sum_cons, hupTo]
      show unitsWithin quantity (prev, tier) + ((segments upTo tiers).map _).sum = _
      rw [ih]
      by_cases hle : quantity ≤ upTo
      · rw [unitsWithin_of_le hprev hupTo hle]
        omega
      · rw [unitsWithin_of_lt hprev hupTo (by omega)]
        omega

/-- The tiers that have tokens. -/
noncomputable def billedSegments (quantity prev : Int) (tiers : List PriceTier) :
    List (Int × PriceTier) :=
  (segments prev tiers).filter fun segment => 0 < unitsWithin quantity segment

theorem sum_billedSegments (quantity prev : Int) (tiers : List PriceTier) :
    ((billedSegments quantity prev tiers).map (unitsWithin quantity)).sum =
      ((segments prev tiers).map (unitsWithin quantity)).sum := by
  unfold billedSegments
  generalize segments prev tiers = all
  induction all with
  | nil => rfl
  | cons segment all ih =>
      have hunits := unitsWithin_nonneg quantity segment
      rw [List.filter_cons, List.map_cons, List.sum_cons]
      split_ifs with hpositive
      · rw [List.map_cons, List.sum_cons, ih]
      · rw [decide_eq_true_iff] at hpositive
        rw [ih]
        omega

/-! ## The loop -/

section Loop

variable (A : Decimal.Arithmetic)

/-- A tier with tokens is billed for them. -/
noncomputable def pushTier (quantity : Int) (acc : Decimal × List TierCostDetail)
    (segment : Int × PriceTier) : Option (Decimal × List TierCostDetail) := do
  let sub ← lineCost A segment.2.pricePerUnit (unitsWithin quantity segment)
  let total ← A.add acc.1 sub
  pure (total, acc.2 ++ [⟨segment.2.upTo, unitsWithin quantity segment, sub⟩])

/-- The loop bills the tiers that have tokens, in order. -/
theorem tierLoop_eq {quantity prev : Int} {tiers : List PriceTier} (hprev : 0 ≤ prev)
    (hquantity : prev ≤ quantity) (h : Increasing prev tiers)
    (acc : Decimal × List TierCostDetail) :
    tierLoop A quantity prev tiers acc =
      (billedSegments quantity prev tiers).foldlM (pushTier A quantity) acc := by
  unfold billedSegments
  fun_induction Increasing prev tiers generalizing acc with
  | case1 => exact h.elim
  | case2 prev last =>
      have hunits := @unitsWithin_open quantity prev last hprev h
      unfold tierLoop segments segments
      simp only [h, Option.any_none, Bool.false_eq_true, if_false]
      by_cases hzero : max (quantity - prev) 0 ≤ 0
      · rw [if_pos hzero, List.filter_cons_of_neg (by rw [decide_eq_true_iff]; omega)]
        rfl
      · rw [if_neg hzero, List.filter_cons_of_pos (by rw [decide_eq_true_iff]; omega),
          List.filter_nil, List.foldlM_cons]
        simp only [List.foldlM_nil, bind_pure]
        unfold pushTier tierLoop
        simp only [hunits, h]
        rfl
  | case3 prev tier tiers hne ih =>
      obtain ⟨upTo, hupTo, hlt, hrest⟩ := h
      unfold tierLoop segments
      simp only [hupTo, Option.any_some, Option.getD_some]
      by_cases hle : quantity ≤ upTo
      · -- the quantity ends in this tier
        have hunits := unitsWithin_of_le hprev hupTo hle
        have hlater : (segments upTo tiers).filter (fun segment =>
            decide (0 < unitsWithin quantity segment)) = [] := by
          rw [List.filter_eq_nil_iff]
          intro segment hsegment
          have hnone : unitsWithin quantity segment = 0 :=
            unitsWithin_eq_zero (le_trans hle (segments_le hrest segment hsegment))
          rw [decide_eq_true_iff]
          omega
        simp only [hle, if_true, decide_true]
        by_cases hzero : max (quantity - prev) 0 ≤ 0
        · rw [if_pos hzero, List.filter_cons_of_neg (by rw [decide_eq_true_iff]; omega), hlater]
          rfl
        · rw [if_neg hzero, List.filter_cons_of_pos (by rw [decide_eq_true_iff]; omega), hlater,
            List.foldlM_cons]
          simp only [List.foldlM_nil, bind_pure]
          unfold pushTier
          simp only [hunits, hupTo]
          rfl
      · have hunits := unitsWithin_of_lt hprev hupTo (show upTo < quantity by omega)
        have hpositive : ¬ max (upTo - prev) 0 ≤ 0 := by omega
        simp only [hle, if_false, decide_false, Bool.false_eq_true]
        rw [if_neg hpositive, List.filter_cons_of_pos (by rw [decide_eq_true_iff]; omega),
          List.foldlM_cons]
        have hpush : pushTier A quantity acc (prev, tier) = (do
            let sub ← lineCost A tier.pricePerUnit (max (upTo - prev) 0)
            let total ← A.add acc.1 sub
            pure (total, acc.2 ++ [⟨some upTo, max (upTo - prev) 0, sub⟩])) := by
          unfold pushTier
          rw [hunits, hupTo]
        rw [hpush]
        simp only [ih upTo (by omega) (by omega) hrest, bind_assoc, pure_bind]

/-- What a line of the breakdown says of its tier. -/
def BilledAs (quantity : Int) (segment : Int × PriceTier) (line : TierCostDetail) : Prop :=
  line.upTo = segment.2.upTo ∧ line.units = unitsWithin quantity segment ∧
    lineCost A segment.2.pricePerUnit line.units = some line.subtotal

theorem units_of_billed {quantity : Int} {segments : List (Int × PriceTier)}
    {lines : List TierCostDetail} (h : List.Forall₂ (BilledAs A quantity) segments lines) :
    lines.map (·.units) = segments.map (unitsWithin quantity) := by
  induction h with
  | nil => rfl
  | cons hline _ ih => rw [List.map_cons, List.map_cons, ih, hline.2.1]

/-- The breakdown has a line for each tier and the total adds them up. -/
theorem foldlM_pushTier {quantity : Int} {segments : List (Int × PriceTier)}
    {acc acc' : Decimal × List TierCostDetail}
    (h : segments.foldlM (pushTier A quantity) acc = some acc') :
    ∃ lines, acc'.2 = acc.2 ++ lines ∧ List.Forall₂ (BilledAs A quantity) segments lines ∧
      A.sumFrom acc.1 (lines.map (·.subtotal)) = some acc'.1 := by
  induction segments generalizing acc with
  | nil =>
      obtain rfl := Option.some.inj h
      exact ⟨[], by simp, .nil, rfl⟩
  | cons segment segments ih =>
      rw [List.foldlM_cons] at h
      obtain ⟨next, hpush, hrest⟩ := Option.bind_eq_some_iff.mp h
      obtain ⟨sub, hsub, hpush⟩ := Option.bind_eq_some_iff.mp hpush
      obtain ⟨total, htotal, hnext⟩ := Option.bind_eq_some_iff.mp hpush
      obtain rfl := Option.some.inj hnext
      obtain ⟨lines, hlines, hbilled, hsum⟩ := ih hrest
      refine ⟨⟨segment.2.upTo, unitsWithin quantity segment, sub⟩ :: lines, ?_, ?_, ?_⟩
      · rw [hlines]
        simp
      · exact .cons ⟨rfl, rfl, hsub⟩ hbilled
      · show (A.add acc.1 sub).bind _ = _
        rw [htotal]
        exact hsum

/-- An amount of units over a million is a decimal. -/
theorem isDecimal_millions {units : Int} (h0 : 0 ≤ units) (h63 : units < 2 ^ 63) :
    IsDecimal (units / 10 ^ 6) :=
  isDecimal_div (by rw [abs_of_nonneg h0]; omega) (by omega)

/-- A price times the millions of units, rounded once. -/
theorem lineCost_eq {units : Int} (h0 : 0 ≤ units) (h63 : units < 2 ^ 63) (price : Decimal) :
    lineCost A price units = A.round (price * (units / 10 ^ 6)) := by
  have hmillions : unitsInMillionTokens A units = some ⟨units / 10 ^ 6, isDecimal_millions h0 h63⟩ := by
    unfold unitsInMillionTokens
    by_cases hzero : units ≤ 0
    · obtain rfl : units = 0 := by omega
      rw [if_pos hzero]
      refine congrArg some (Subtype.ext ?_)
      simp
    · have hunits : IsDecimal units := isDecimal_int (by rw [abs_of_nonneg h0]; omega)
      have hmillion : IsDecimal 1000000 := by
        have := isDecimal_int (n := 1000000) (by norm_num)
        exact_mod_cast this
      rw [if_neg hzero, A.round_of_isDecimal hunits, A.round_of_isDecimal hmillion]
      show A.round (units / 1000000) = _
      have hdiv : (units : ℚ) / 1000000 = units / 10 ^ 6 := by norm_num
      rw [hdiv, A.round_of_isDecimal (isDecimal_millions h0 h63)]
  unfold lineCost
  rw [hmillions]
  rfl

/-- What the tokens of a tier cost. -/
noncomputable def cost (quantity : Int) (segment : Int × PriceTier) : ℚ :=
  segment.2.pricePerUnit * (unitsWithin quantity segment / 10 ^ 6)

/-- The costs of the tiers, with tokens or without, added up from a total. -/
noncomputable def spend (quantity : Int) (total : Decimal) (segments : List (Int × PriceTier)) :
    Option Decimal :=
  segments.foldlM (fun total segment => do A.add total (← A.round (cost quantity segment))) total

theorem spend_cons (quantity : Int) (total : Decimal) (segment : Int × PriceTier)
    (segments : List (Int × PriceTier)) :
    spend A quantity total (segment :: segments) =
      (A.round (cost quantity segment)).bind fun sub =>
        (A.add total sub).bind fun total => spend A quantity total segments := by
  unfold spend
  rw [List.foldlM_cons]
  exact bind_assoc (m := Option) _ _ _

/-- A tier without tokens may be left out. -/
theorem spend_billed (quantity : Int) (segments : List (Int × PriceTier)) (total : Decimal) :
    spend A quantity total (segments.filter fun segment => 0 < unitsWithin quantity segment) =
      spend A quantity total segments := by
  induction segments generalizing total with
  | nil => rfl
  | cons segment segments ih =>
      rw [spend_cons]
      by_cases hunits : 0 < unitsWithin quantity segment
      · rw [List.filter_cons_of_pos (by simpa using hunits), spend_cons]
        exact congrArg _ (funext fun sub => congrArg _ (funext ih))
      · have hzero : cost quantity segment = ((0 : Decimal) : ℚ) := by
          have := unitsWithin_nonneg quantity segment
          unfold cost
          rw [show unitsWithin quantity segment = 0 by omega]
          simp
        rw [List.filter_cons_of_neg (by simpa using hunits), hzero, A.round_exact, ih]
        show _ = (A.add total 0).bind _
        rw [A.add_zero]
        rfl

theorem foldlM_pushTier_total {quantity : Int} (h0 : 0 ≤ quantity) (h63 : quantity < 2 ^ 63)
    (segments : List (Int × PriceTier)) (acc : Decimal × List TierCostDetail) :
    (segments.foldlM (pushTier A quantity) acc).map Prod.fst =
      spend A quantity acc.1 segments := by
  induction segments generalizing acc with
  | nil => rfl
  | cons segment segments ih =>
      have hline : lineCost A segment.2.pricePerUnit (unitsWithin quantity segment) =
          A.round (cost quantity segment) :=
        lineCost_eq A (unitsWithin_nonneg quantity segment)
          (lt_of_le_of_lt (unitsWithin_le quantity h0 segment) h63) _
      rw [List.foldlM_cons, spend_cons]
      unfold pushTier
      rw [hline]
      cases A.round (cost quantity segment) with
      | none => rfl
      | some sub =>
          show ((A.add acc.1 sub).bind _ |>.bind _).map _ = (A.add acc.1 sub).bind _
          cases A.add acc.1 sub with
          | none => rfl
          | some total => exact ih _

/-- Where no cost and no sum needs rounding, what is spent is the exact sum. -/
theorem spend_exact {quantity : Int} {segments : List (Int × PriceTier)} {total : Decimal}
    (hcosts : ∀ segment ∈ segments, IsDecimal (cost quantity segment))
    (hsums : ∀ n, IsDecimal (total + ((segments.map (cost quantity)).take n).sum)) :
    ∃ spent, spend A quantity total segments = some spent ∧
      (spent : ℚ) = total + (segments.map (cost quantity)).sum := by
  induction segments generalizing total with
  | nil => exact ⟨total, rfl, by simp⟩
  | cons segment segments ih =>
      have hcost := hcosts segment List.mem_cons_self
      have hsum : IsDecimal (total + cost quantity segment) := by simpa using hsums 1
      obtain ⟨spent, hspent, hexact⟩ := @ih ⟨total + cost quantity segment, hsum⟩
        (fun segment h => hcosts segment (List.mem_cons_of_mem _ h))
        fun n => by simpa [add_assoc] using hsums (n + 1)
      refine ⟨spent, ?_, ?_⟩
      · rw [spend_cons, A.round_of_isDecimal hcost]
        show (A.round (total + cost quantity segment)).bind _ = _
        rw [A.round_of_isDecimal hsum]
        exact hspent
      · rw [hexact, List.map_cons, List.sum_cons]
        exact add_assoc _ _ _

/-- More tokens of every tier at prices that are not negative cost no less. -/
theorem spend_mono {smaller quantity : Int} (hle : smaller ≤ quantity)
    {segments : List (Int × PriceTier)}
    (hprices : ∀ segment ∈ segments, 0 ≤ segment.2.pricePerUnit) {total total' : Decimal}
    (htotal : total ≤ total') {spent spent' : Decimal}
    (h : spend A smaller total segments = some spent)
    (h' : spend A quantity total' segments = some spent') : spent ≤ spent' := by
  induction segments generalizing total total' with
  | nil =>
      obtain rfl := Option.some.inj h
      obtain rfl := Option.some.inj h'
      exact htotal
  | cons segment segments ih =>
      rw [spend_cons] at h h'
      obtain ⟨sub, hsub, h⟩ := Option.bind_eq_some_iff.mp h
      obtain ⟨next, hnext, h⟩ := Option.bind_eq_some_iff.mp h
      obtain ⟨sub', hsub', h'⟩ := Option.bind_eq_some_iff.mp h'
      obtain ⟨next', hnext', h'⟩ := Option.bind_eq_some_iff.mp h'
      have hcost : cost smaller segment ≤ cost quantity segment := by
        have hunits : (unitsWithin smaller segment : ℚ) ≤ unitsWithin quantity segment := by
          exact_mod_cast unitsWithin_mono hle segment
        have hprice : (0 : ℚ) ≤ segment.2.pricePerUnit := hprices segment List.mem_cons_self
        unfold cost
        gcongr
      exact ih (fun segment hmem => hprices segment (List.mem_cons_of_mem _ hmem))
        (A.add_mono htotal (A.round_mono hcost hsub hsub') hnext hnext') h h'

end Loop

theorem segments_tier {prev : Int} {tiers : List PriceTier} {segment : Int × PriceTier}
    (h : segment ∈ segments prev tiers) : segment.2 ∈ tiers := by
  induction tiers generalizing prev with
  | nil => exact absurd h List.not_mem_nil
  | cons tier tiers ih =>
      rcases List.mem_cons.mp h with rfl | h
      · exact List.mem_cons_self
      · exact List.mem_cons_of_mem _ (ih h)

/-! ## The integral -/

/-- **Tiered pricing integrates the marginal price, up to the decimals'
rounding.** Whatever decimals round to: the breakdown has a line for each tier
the quantity has tokens in, with just these, and they add up to the quantity; a
line costs its price times its units, rounded, and the subtotal adds the lines
up in order. Where no cost and no partial sum needs rounding the subtotal is the
exact sum, and at prices that are not negative it grows with the quantity. -/
theorem tiered_integrates (A : Decimal.Arithmetic) (tiers : List PriceTier)
    (htiers : Increasing 0 tiers) (quantity : Int) (h0 : 0 ≤ quantity) (h63 : quantity < 2 ^ 63) :
    (∀ detail, computeTieredSubtotal A quantity tiers = some detail →
      (detail.tierBreakdown.map (·.units)).sum = quantity ∧
      List.Forall₂ (fun segment line => line.upTo = segment.2.upTo ∧
          line.units = unitsWithin quantity segment ∧
          A.round (cost quantity segment) = some line.subtotal)
        (billedSegments quantity 0 tiers) detail.tierBreakdown ∧
      A.sumFrom 0 (detail.tierBreakdown.map (·.subtotal)) = some detail.subtotal) ∧
    ((∀ segment ∈ segments 0 tiers, IsDecimal (cost quantity segment)) →
      (∀ n, IsDecimal (((segments 0 tiers).map (cost quantity)).take n).sum) →
      ∃ detail, computeTieredSubtotal A quantity tiers = some detail ∧
        (detail.subtotal : ℚ) = ((segments 0 tiers).map (cost quantity)).sum) ∧
    ((∀ tier ∈ tiers, 0 ≤ tier.pricePerUnit) → ∀ smaller, 0 ≤ smaller → smaller ≤ quantity →
      ∀ less more, computeTieredSubtotal A smaller tiers = some less →
        computeTieredSubtotal A quantity tiers = some more → less.subtotal ≤ more.subtotal) := by
  have hspend : ∀ q, 0 ≤ q → q < 2 ^ 63 →
      (computeTieredSubtotal A q tiers).map (·.subtotal) = spend A q 0 (segments 0 tiers) := by
    intro q hq hq63
    have htotal := foldlM_pushTier_total A hq hq63 (billedSegments q 0 tiers) (0, [])
    rw [← tierLoop_eq A le_rfl hq htiers] at htotal
    rw [← spend_billed]
    refine Eq.trans ?_ htotal
    unfold computeTieredSubtotal
    cases tierLoop A q 0 tiers (0, []) <;> rfl
  refine ⟨?_, ?_, ?_⟩
  · intro detail hdetail
    obtain ⟨⟨total, lines⟩, hloop, hdetail⟩ := Option.bind_eq_some_iff.mp hdetail
    obtain rfl := Option.some.inj hdetail
    rw [tierLoop_eq A le_rfl h0 htiers] at hloop
    obtain ⟨lines', hlines, hbilled, hsum⟩ := foldlM_pushTier A hloop
    obtain rfl : lines = lines' := hlines
    refine ⟨?_, ?_, hsum⟩
    · show (lines.map (·.units)).sum = quantity
      rw [units_of_billed A hbilled, sum_billedSegments, sum_unitsWithin le_rfl htiers]
      omega
    · refine hbilled.imp fun segment line hline => ⟨hline.1, hline.2.1, ?_⟩
      rw [← hline.2.2, hline.2.1]
      exact (lineCost_eq A (unitsWithin_nonneg quantity segment)
        (lt_of_le_of_lt (unitsWithin_le quantity h0 segment) h63) _).symm
  · intro hcosts hsums
    obtain ⟨spent, hspent, hexact⟩ := @spend_exact A quantity _ 0 hcosts (by simpa using hsums)
    rw [← hspend quantity h0 h63] at hspent
    obtain ⟨detail, hdetail, rfl⟩ := Option.map_eq_some_iff.mp hspent
    exact ⟨detail, hdetail, by simpa using hexact⟩
  · intro hprices smaller hs0 hsle less more hless hmore
    have h := hspend smaller hs0 (by omega)
    have h' := hspend quantity h0 h63
    rw [hless] at h
    rw [hmore] at h'
    exact spend_mono A hsle (fun segment hsegment => hprices _ (segments_tier hsegment)) le_rfl
      h.symm h'.symm

theorem isDecimal_two : IsDecimal 2 := ⟨2, 0, by norm_num, by omega, by norm_num⟩

def sampleTiers : List PriceTier :=
  [⟨some 1000, ⟨1, isDecimal_one⟩⟩, ⟨none, ⟨2, isDecimal_two⟩⟩]

theorem cost_sampleTiers :
    (segments 0 sampleTiers).map (cost 1500) = [1000 / 10 ^ 6, 1000 / 10 ^ 6] := by
  show [1 * ((unitsWithin 1500 (0, ⟨some 1000, ⟨1, _⟩⟩) : ℚ) / 10 ^ 6),
    2 * ((unitsWithin 1500 (1000, ⟨none, ⟨2, _⟩⟩) : ℚ) / 10 ^ 6)] = _
  rw [unitsWithin_of_lt le_rfl rfl (by norm_num), unitsWithin_open (by norm_num) rfl]
  norm_num

theorem tiered_integrates_sample :
    ∃ detail, computeTieredSubtotal .truncating 1500 sampleTiers = some detail ∧
      (detail.tierBreakdown.map (·.units)).sum = 1500 ∧ (detail.subtotal : ℚ) = 1 / 500 := by
  have h := tiered_integrates .truncating sampleTiers ⟨1000, rfl, by decide, rfl⟩ 1500
    (by norm_num) (by norm_num)
  have hcost : ∀ segment ∈ segments 0 sampleTiers, cost 1500 segment = 1000 / 10 ^ 6 := by
    intro segment hsegment
    have hmem := List.mem_map_of_mem (f := cost 1500) hsegment
    rw [cost_sampleTiers] at hmem
    simpa using hmem
  have hmilli : ∀ n : ℤ, |n| < 2 ^ 96 → IsDecimal (n / 10 ^ 6) := fun n hn =>
    isDecimal_div hn (by omega)
  obtain ⟨detail, hdetail, hexact⟩ := h.2.1
    (fun segment hsegment => by
      rw [hcost segment hsegment]
      exact hmilli 1000 (by norm_num))
    fun n => by
      rw [cost_sampleTiers]
      match n with
      | 0 => simpa using hmilli 0 (by norm_num)
      | 1 => simpa using hmilli 1000 (by norm_num)
      | n + 2 =>
          have := hmilli 2000 (by norm_num)
          rw [List.take_of_length_le (by simp)]
          convert this using 1
          norm_num
  refine ⟨detail, hdetail, (h.1 detail hdetail).1, ?_⟩
  rw [hexact, cost_sampleTiers]
  norm_num

/-- The smallest price. -/
def tinyPrice : Decimal := ⟨1 / 10 ^ 28, 1, 28, by norm_num, by omega, by norm_num⟩

/-- One token at the smallest price costs nothing, since `1 / 10 ^ 34` lies below
the decimals. -/
theorem tiered_loses_cost :
    ∃ detail, computeTieredSubtotal .truncating 1 [⟨none, tinyPrice⟩] = some detail ∧
      (detail.subtotal : ℚ) ≠ ((segments 0 [⟨none, tinyPrice⟩]).map (cost 1)).sum := by
  have hunits : unitsWithin 1 (0, ⟨none, tinyPrice⟩) = 1 := by
    rw [unitsWithin_open le_rfl rfl]
    rfl
  have hcost : cost 1 (0, ⟨none, tinyPrice⟩) = 1 / 10 ^ 34 := by
    unfold cost
    rw [hunits]
    show (1 : ℚ) / 10 ^ 28 * (1 / 10 ^ 6) = _
    norm_num
  have hgreatest : IsGreatest { b : Decimal | (b : ℚ) ≤ 1 / 10 ^ 34 } 0 := by
    refine ⟨by show (0 : ℚ) ≤ _; positivity, fun b hb => ?_⟩
    by_contra hpositive
    exact not_isDecimal_of_lt (not_le.mp hpositive)
      (lt_of_le_of_lt hb (by norm_num)) b.2
  have hround := Decimal.Arithmetic.truncate_of_isGreatest hgreatest
    ⟨⟨1, isDecimal_one⟩, by norm_num⟩
  have hline : lineCost .truncating tinyPrice 1 = some 0 := by
    rw [lineCost_eq _ (by norm_num) (by norm_num)]
    rw [← hcost] at hround
    unfold cost at hround
    rw [hunits] at hround
    exact hround
  refine ⟨⟨1, 0, [⟨none, 1, 0⟩]⟩, ?_, ?_⟩
  · simp [computeTieredSubtotal, tierLoop, hline, Decimal.Arithmetic.add_zero]
  · show (0 : ℚ) ≠ (cost 1 (0, ⟨none, tinyPrice⟩)) + 0
    rw [hcost]
    norm_num

end Conduit.Billing.UsageCost
