import Conduit.Billing.Logic.TieredCost

/-!
# Every prompt token is billed once

What a price item charges is a list of charges, one for each cost item it
produces (`charges`); a computation pushes them in order and adds up their
subtotals. Under prices per unit a cost item's quantity is its charge's, so the
quantities are summed over the price items instead of the run.
-/

namespace Conduit.Billing.UsageCost

open Base Transformers

/-- A cost item before it is priced. -/
structure Charge where
  itemCode : String
  pricing : Pricing
  quantity : Int
  variantCode : Option String

/-- A cache write is charged for each lifetime that is known, else as a whole. -/
def writeCacheCharges (usage : Usage) (item : ModelPriceItem) : List Charge :=
  let fiveMin := usage.promptDetails.writeCachedTokens5m
  let oneHour := usage.promptDetails.writeCachedTokens1h
  if 0 < fiveMin ∨ 0 < oneHour then
    (if 0 < fiveMin then
      [⟨item.itemCode, selectWriteCachedPrice PromptWriteCacheVariantCode.fiveMin item,
        asI64 fiveMin, some PromptWriteCacheVariantCode.fiveMin⟩] else []) ++
    (if 0 < oneHour then
      [⟨item.itemCode, selectWriteCachedPrice PromptWriteCacheVariantCode.oneHour item,
        asI64 oneHour, some PromptWriteCacheVariantCode.oneHour⟩] else [])
  else [⟨item.itemCode, item.pricing, asI64 usage.promptDetails.writeCachedTokens, none⟩]

/-- What a price item charges a usage. -/
def charges (usage : Usage) (item : ModelPriceItem) : List Charge :=
  if item.itemCode = PriceItemCode.usage then
    [⟨item.itemCode, item.pricing, billablePromptTokens usage, none⟩]
  else if item.itemCode = PriceItemCode.completion then
    [⟨item.itemCode, item.pricing, asI64 usage.completionTokens, none⟩]
  else if item.itemCode = PriceItemCode.promptCachedToken then
    [⟨item.itemCode, item.pricing, asI64 usage.promptDetails.cachedTokens, none⟩]
  else if item.itemCode = PriceItemCode.writeCachedTokens then writeCacheCharges usage item
  else [⟨item.itemCode, item.pricing, 0, none⟩]

/-- The charges of an item by cases on its code. -/
theorem charges_cases (usage : Usage) (item : ModelPriceItem) :
    charges usage item = writeCacheCharges usage item ∧
        item.itemCode = PriceItemCode.writeCachedTokens ∨
      ∃ quantity, charges usage item = [⟨item.itemCode, item.pricing, quantity, none⟩] := by
  unfold charges
  split_ifs with husage hcompletion hcached hwrite
  · exact .inr ⟨_, rfl⟩
  · exact .inr ⟨_, rfl⟩
  · exact .inr ⟨_, rfl⟩
  · exact .inl ⟨rfl, hwrite⟩
  · exact .inr ⟨_, rfl⟩

section Charges

variable (A : Decimal.Arithmetic)

def pushCharge (result : ComputeUsageCostResult) (charge : Charge) :
    Option ComputeUsageCostResult := do
  let detail ← computeItemSubtotal A charge.quantity charge.pricing
  let total ← A.add result.total detail.subtotal
  pure ⟨result.items ++ [⟨charge.itemCode, charge.variantCode, detail⟩], total⟩

/-- A price item pushes its charges. -/
theorem pushPriceItem_eq (usage : Usage) (item : ModelPriceItem)
    (result : ComputeUsageCostResult) :
    pushPriceItem A usage result item = (charges usage item).foldlM (pushCharge A) result := by
  have hone : ∀ (pricing : Pricing) (quantity : Int) (variantCode : Option String),
      pushItem A item pricing quantity variantCode result =
        [Charge.mk item.itemCode pricing quantity variantCode].foldlM (pushCharge A) result := by
    intro pricing quantity variantCode
    simp [pushItem, pushCharge]
  unfold pushPriceItem charges
  by_cases husage : item.itemCode = PriceItemCode.usage
  · rw [if_pos husage, if_pos husage]
    exact hone _ _ _
  rw [if_neg husage, if_neg husage]
  by_cases hcompletion : item.itemCode = PriceItemCode.completion
  · rw [if_pos hcompletion, if_pos hcompletion]
    exact hone _ _ _
  rw [if_neg hcompletion, if_neg hcompletion]
  by_cases hcached : item.itemCode = PriceItemCode.promptCachedToken
  · rw [if_pos hcached, if_pos hcached]
    exact hone _ _ _
  rw [if_neg hcached, if_neg hcached]
  by_cases hwrite : item.itemCode = PriceItemCode.writeCachedTokens
  · rw [if_pos hwrite, if_pos hwrite]
    unfold pushWriteCached writeCacheCharges
    -- the lifetimes that are known, or neither
    by_cases hfive : 0 < usage.promptDetails.writeCachedTokens5m <;>
      by_cases hhour : 0 < usage.promptDetails.writeCachedTokens1h <;>
      simp [hfive, hhour, pushItem, pushCharge]
  · rw [if_neg hwrite, if_neg hwrite]
    exact hone _ _ _

theorem computeUsageCostFull_eq (usage : Usage) (price : ModelPrice) :
    computeUsageCostFull A (some usage) price =
      (price.items.flatMap (charges usage)).foldlM (pushCharge A) {} := by
  have hitems : ∀ (items : List ModelPriceItem) (result : ComputeUsageCostResult),
      items.foldlM (pushPriceItem A usage) result =
        (items.flatMap (charges usage)).foldlM (pushCharge A) result := by
    intro items
    induction items with
    | nil => exact fun _ => rfl
    | cons item items ih =>
        intro result
        rw [List.foldlM_cons, List.flatMap_cons, List.foldlM_append, pushPriceItem_eq]
        exact congrArg _ (funext ih)
  exact hitems price.items {}

/-- A charge and the cost item it was priced to. -/
def PricedTo (charge : Charge) (item : ComputedCostItem) : Prop :=
  item.itemCode = charge.itemCode ∧ item.promptWriteCacheVariantCode = charge.variantCode ∧
    computeItemSubtotal A charge.quantity charge.pricing = some item.detail

/-- Pushing the charges gives a cost item each and adds up the subtotals. -/
theorem foldlM_pushCharge {charges : List Charge} {result result' : ComputeUsageCostResult}
    (h : charges.foldlM (pushCharge A) result = some result') :
    ∃ items, result'.items = result.items ++ items ∧ List.Forall₂ (PricedTo A) charges items ∧
      A.sumFrom result.total (items.map (·.detail.subtotal)) = some result'.total := by
  induction charges generalizing result with
  | nil =>
      obtain rfl := Option.some.inj h
      exact ⟨[], by simp, .nil, rfl⟩
  | cons charge charges ih =>
      rw [List.foldlM_cons] at h
      obtain ⟨next, hpush, hrest⟩ := Option.bind_eq_some_iff.mp h
      obtain ⟨detail, hdetail, hpush⟩ := Option.bind_eq_some_iff.mp hpush
      obtain ⟨total, htotal, hnext⟩ := Option.bind_eq_some_iff.mp hpush
      obtain rfl := Option.some.inj hnext
      obtain ⟨items, hitems, hpriced, hsum⟩ := ih hrest
      refine ⟨⟨charge.itemCode, charge.variantCode, detail⟩ :: items, ?_, ?_, ?_⟩
      · rw [hitems]
        simp
      · exact .cons ⟨rfl, rfl, hdetail⟩ hpriced
      · show (A.add result.total detail.subtotal).bind _ = _
        rw [htotal]
        exact hsum

end Charges

/-! ## Quantities -/

/-- A price for each million tokens. -/
def Pricing.PerUnit (pricing : Pricing) : Prop :=
  pricing.mode = pricingModeUsagePerUnit ∧ pricing.usagePerUnit.isSome

def ModelPrice.PerUnit (price : ModelPrice) : Prop :=
  ∀ item ∈ price.items,
    item.pricing.PerUnit ∧ ∀ variant ∈ item.promptWriteCacheVariants, variant.pricing.PerUnit

/-- What a cache write is charged for. -/
def writeCacheQuantity (usage : Usage) : Int :=
  let fiveMin := usage.promptDetails.writeCachedTokens5m
  let oneHour := usage.promptDetails.writeCachedTokens1h
  if 0 < fiveMin ∨ 0 < oneHour then asI64 fiveMin + asI64 oneHour
  else asI64 usage.promptDetails.writeCachedTokens

/-- What the charges of a price item add up to, by its code. -/
def quantityOf (usage : Usage) (code : String) : Int :=
  if code = PriceItemCode.usage then billablePromptTokens usage
  else if code = PriceItemCode.completion then asI64 usage.completionTokens
  else if code = PriceItemCode.promptCachedToken then asI64 usage.promptDetails.cachedTokens
  else if code = PriceItemCode.writeCachedTokens then writeCacheQuantity usage
  else 0

theorem asI64_eq {n : UInt64} (h : n.toNat < 2 ^ 63) : asI64 n = n.toNat := by
  unfold asI64
  rw [Int64.toInt, UInt64.toBitVec_toInt64, BitVec.toInt_eq_toNat_of_lt]
  · rfl
  · show 2 * n.toNat < 2 ^ 64
    omega

theorem asI64_zero : asI64 0 = 0 := rfl

theorem quantity_computeItemSubtotal (A : Decimal.Arithmetic) {quantity : Int}
    {pricing : Pricing} {detail : CostItemDetail} (hper : pricing.PerUnit)
    (h : computeItemSubtotal A quantity pricing = some detail) : detail.quantity = quantity := by
  obtain ⟨hmode, hunit⟩ := hper
  obtain ⟨perUnit, hunit⟩ := Option.isSome_iff_exists.mp hunit
  have hflat : ¬ pricing.mode = pricingModeFlatFee := by
    rw [hmode]
    decide
  unfold computeItemSubtotal at h
  rw [if_neg hflat, if_pos hmode, hunit] at h
  obtain ⟨sub, -, hdetail⟩ := Option.bind_eq_some_iff.mp h
  rw [← Option.some.inj hdetail]

theorem selectWriteCachedPrice_perUnit {item : ModelPriceItem}
    (h : item.pricing.PerUnit ∧ ∀ variant ∈ item.promptWriteCacheVariants, variant.pricing.PerUnit)
    (code : String) : (selectWriteCachedPrice code item).PerUnit := by
  unfold selectWriteCachedPrice
  cases hfind : item.promptWriteCacheVariants.find? fun variant => variant.variantCode = code with
  | none => exact h.1
  | some variant => exact h.2 variant (List.mem_of_find?_eq_some hfind)

/-- A charge has the code of its item and one of its prices. -/
theorem charges_mem {usage : Usage} {item : ModelPriceItem} {charge : Charge}
    (h : charge ∈ charges usage item) :
    charge.itemCode = item.itemCode ∧
      (charge.pricing = item.pricing ∨
        ∃ code, charge.pricing = selectWriteCachedPrice code item) := by
  rcases charges_cases usage item with ⟨hcharges, -⟩ | ⟨quantity, hcharges⟩
  · rw [hcharges] at h
    unfold writeCacheCharges at h
    by_cases hfive : 0 < usage.promptDetails.writeCachedTokens5m <;>
      by_cases hhour : 0 < usage.promptDetails.writeCachedTokens1h <;>
      simp only [hfive, hhour, or_true, or_self, if_true, if_false, List.mem_append,
        List.mem_singleton, List.not_mem_nil, or_false, false_or] at h
    · rcases h with rfl | rfl <;> exact ⟨rfl, .inr ⟨_, rfl⟩⟩
    · exact h ▸ ⟨rfl, .inr ⟨_, rfl⟩⟩
    · exact h ▸ ⟨rfl, .inr ⟨_, rfl⟩⟩
    · exact h ▸ ⟨rfl, .inl rfl⟩
  · rw [hcharges] at h
    exact List.mem_singleton.mp h ▸ ⟨rfl, .inl rfl⟩

theorem sum_writeCacheCharges (usage : Usage) (item : ModelPriceItem) :
    ((writeCacheCharges usage item).map (·.quantity)).sum = writeCacheQuantity usage := by
  have hzero : ∀ n : UInt64, ¬ 0 < n → asI64 n = 0 := by
    intro n hn
    rw [UInt64.le_zero_iff.mp (UInt64.not_lt.mp hn)]
    exact asI64_zero
  unfold writeCacheCharges writeCacheQuantity
  by_cases hfive : 0 < usage.promptDetails.writeCachedTokens5m <;>
    by_cases hhour : 0 < usage.promptDetails.writeCachedTokens1h
  · simp [hfive, hhour]
  · simp [hfive, hhour, hzero _ hhour]
  · simp [hfive, hhour, hzero _ hfive]
  · simp [hfive, hhour]

theorem sum_charges (usage : Usage) (item : ModelPriceItem) :
    ((charges usage item).map (·.quantity)).sum = quantityOf usage item.itemCode := by
  unfold charges quantityOf
  split_ifs with husage hcompletion hcached hwrite
  · exact Int.add_zero _
  · exact Int.add_zero _
  · exact Int.add_zero _
  · exact sum_writeCacheCharges usage item
  · rfl

/-- The codes whose items charge the prompt. -/
def promptSide : List String :=
  [PriceItemCode.usage, PriceItemCode.promptCachedToken, PriceItemCode.writeCachedTokens]

/-- The quantities of the cost items whose code passes. -/
def quantities (keep : String → Bool) (items : List ComputedCostItem) : List Int :=
  (items.filter fun item => keep item.itemCode).map (·.detail.quantity)

/-- Under prices per unit a cost item has the quantity of its charge. -/
theorem quantities_eq (A : Decimal.Arithmetic) {usage : Usage} {price : ModelPrice}
    (hper : price.PerUnit) {items : List ComputedCostItem}
    (h : List.Forall₂ (PricedTo A) (price.items.flatMap (charges usage)) items)
    (keep : String → Bool) :
    quantities keep items =
      ((price.items.flatMap (charges usage)).filter fun c => keep c.itemCode).map (·.quantity) := by
  have hcharges : ∀ charge ∈ price.items.flatMap (charges usage), charge.pricing.PerUnit := by
    intro charge hcharge
    obtain ⟨item, hitem, hcharge⟩ := List.mem_flatMap.mp hcharge
    rcases (charges_mem hcharge).2 with hpricing | ⟨code, hpricing⟩
    · rw [hpricing]
      exact (hper item hitem).1
    · rw [hpricing]
      exact selectWriteCachedPrice_perUnit (hper item hitem) code
  unfold quantities
  generalize price.items.flatMap (charges usage) = allCharges at h hcharges
  induction h with
  | nil => rfl
  | @cons charge item cs items hitem _ ih =>
      have hrest := ih fun c hc => hcharges c (List.mem_cons_of_mem _ hc)
      have hdetail := quantity_computeItemSubtotal A (hcharges charge List.mem_cons_self) hitem.2.2
      rw [List.filter_cons, List.filter_cons, hitem.1]
      by_cases hkeep : keep charge.itemCode
      · rw [if_pos hkeep, if_pos hkeep, List.map_cons, List.map_cons, hrest, hdetail]
      · rw [if_neg hkeep, if_neg hkeep, hrest]

/-- The charges of one price item all have its code. -/
theorem filter_charges (usage : Usage) (keep : String → Bool) (item : ModelPriceItem) :
    ((charges usage item).filter fun c => keep c.itemCode) =
      if keep item.itemCode then charges usage item else [] := by
  by_cases hkeep : keep item.itemCode
  · rw [if_pos hkeep, List.filter_eq_self]
    exact fun c hc => by rw [(charges_mem hc).1]; exact hkeep
  · rw [if_neg hkeep, List.filter_eq_nil_iff]
    exact fun c hc => by rw [(charges_mem hc).1]; exact hkeep

/-- What is charged under the codes that pass adds up over the price items. -/
theorem sum_filter_charges (usage : Usage) (keep : String → Bool) (items : List ModelPriceItem) :
    (((items.flatMap (charges usage)).filter fun c => keep c.itemCode).map (·.quantity)).sum =
      ((items.map (·.itemCode)).map fun code => if keep code then quantityOf usage code else 0).sum := by
  induction items with
  | nil => rfl
  | cons item items ih =>
      rw [List.flatMap_cons, List.filter_append, List.map_append, List.sum_append, ih,
        filter_charges, List.map_cons, List.map_cons, List.sum_cons]
      by_cases hkeep : keep item.itemCode
      · rw [if_pos hkeep, if_pos hkeep, sum_charges]
      · rw [if_neg hkeep, if_neg hkeep]
        rfl

/-- A value for each occurrence of a code. -/
theorem sum_ite_count (codes : List String) (code : String) (value : Int) :
    (codes.map fun c => if c = code then value else 0).sum = codes.count code * value := by
  induction codes with
  | nil => simp
  | cons c codes ih =>
      rw [List.map_cons, List.sum_cons, ih, List.count_cons]
      by_cases hc : c = code
      · simp [hc]
        ring
      · simp [hc]

/-- The completion items charge the completion tokens each. -/
theorem completion_charges (usage : Usage) (items : List ModelPriceItem) :
    ((items.flatMap (charges usage)).filter fun c => c.itemCode == PriceItemCode.completion).map
        (·.quantity) =
      List.replicate ((items.map (·.itemCode)).count PriceItemCode.completion)
        (asI64 usage.completionTokens) := by
  induction items with
  | nil => rfl
  | cons item items ih =>
      rw [List.flatMap_cons, List.filter_append, List.map_append, ih, filter_charges usage
        (· == PriceItemCode.completion), List.map_cons, List.count_cons]
      by_cases hcode : item.itemCode = PriceItemCode.completion
      · have hcharges : charges usage item =
            [⟨item.itemCode, item.pricing, asI64 usage.completionTokens, none⟩] := by
          unfold charges
          rw [if_neg (by rw [hcode]; decide), if_pos hcode]
        rw [if_pos (by simpa using hcode), if_pos (by simpa using hcode), hcharges,
          List.replicate_succ]
        rfl
      · rw [if_neg (by simpa using hcode), if_neg (by simpa using hcode)]
        rfl

/-! ## The partition -/

/-- Every counter is below `2 ^ 63`. -/
def CountersFit (usage : Usage) : Prop :=
  usage.promptTokens.toNat < 2 ^ 63 ∧ usage.completionTokens.toNat < 2 ^ 63 ∧
    usage.promptDetails.cachedTokens.toNat < 2 ^ 63 ∧
    usage.promptDetails.writeCachedTokens.toNat < 2 ^ 63 ∧
    usage.promptDetails.writeCachedTokens5m.toNat < 2 ^ 63 ∧
    usage.promptDetails.writeCachedTokens1h.toNat < 2 ^ 63

/-- No lifetime of the cache writes is known, or they cover them. -/
def LifetimesCover (usage : Usage) : Prop :=
  usage.promptDetails.writeCachedTokens5m = 0 ∧ usage.promptDetails.writeCachedTokens1h = 0 ∨
    usage.promptDetails.writeCachedTokens5m.toNat + usage.promptDetails.writeCachedTokens1h.toNat =
      usage.promptDetails.writeCachedTokens.toNat

/-- Each of the four items once. -/
def EachOnce (price : ModelPrice) : Prop :=
  ∀ code ∈ PriceItemCode.completion :: promptSide, (price.items.map (·.itemCode)).count code = 1

theorem writeCacheQuantity_eq {usage : Usage} (hfit : CountersFit usage)
    (hlifetimes : LifetimesCover usage) :
    writeCacheQuantity usage = usage.promptDetails.writeCachedTokens.toNat := by
  obtain ⟨-, -, -, hwrite, hfive, hhour⟩ := hfit
  show (if 0 < usage.promptDetails.writeCachedTokens5m ∨
      0 < usage.promptDetails.writeCachedTokens1h then
    asI64 usage.promptDetails.writeCachedTokens5m + asI64 usage.promptDetails.writeCachedTokens1h
    else asI64 usage.promptDetails.writeCachedTokens) = _
  rw [asI64_eq hwrite, asI64_eq hfive, asI64_eq hhour]
  rcases hlifetimes with ⟨hfive0, hhour0⟩ | hcover
  · rw [hfive0, hhour0]
    rfl
  · split_ifs with hknown
    · omega
    · rfl

theorem billablePromptTokens_eq {usage : Usage} (hfit : CountersFit usage)
    (hcached : usage.promptDetails.cachedTokens.toNat +
      usage.promptDetails.writeCachedTokens.toNat ≤ usage.promptTokens.toNat) :
    billablePromptTokens usage = usage.promptTokens.toNat -
      usage.promptDetails.cachedTokens.toNat - usage.promptDetails.writeCachedTokens.toNat := by
  obtain ⟨hprompt, -, hcache, hwrite, -, -⟩ := hfit
  unfold billablePromptTokens
  rw [asI64_eq hprompt, asI64_eq hcache, asI64_eq hwrite]
  omega

/-- The prompt side of a price that has each item once. -/
theorem sum_promptSide {usage : Usage} {price : ModelPrice} (honce : EachOnce price) :
    ((price.items.map (·.itemCode)).map fun code =>
        if code ∈ promptSide then quantityOf usage code else 0).sum =
      billablePromptTokens usage + asI64 usage.promptDetails.cachedTokens +
        writeCacheQuantity usage := by
  have hsplit : (fun code => if code ∈ promptSide then quantityOf usage code else 0) = fun code =>
      ((if code = PriceItemCode.usage then billablePromptTokens usage else 0) +
        (if code = PriceItemCode.promptCachedToken then
          asI64 usage.promptDetails.cachedTokens else 0)) +
        (if code = PriceItemCode.writeCachedTokens then writeCacheQuantity usage else 0) := by
    funext code
    by_cases husage : code = PriceItemCode.usage
    · subst husage
      simp [promptSide, quantityOf, PriceItemCode.usage, PriceItemCode.promptCachedToken,
        PriceItemCode.writeCachedTokens]
    by_cases hcached : code = PriceItemCode.promptCachedToken
    · subst hcached
      simp [promptSide, quantityOf, PriceItemCode.usage, PriceItemCode.promptCachedToken,
        PriceItemCode.writeCachedTokens, PriceItemCode.completion]
    by_cases hwrite : code = PriceItemCode.writeCachedTokens
    · subst hwrite
      simp [promptSide, quantityOf, PriceItemCode.usage, PriceItemCode.promptCachedToken,
        PriceItemCode.writeCachedTokens, PriceItemCode.completion]
    · simp [promptSide, husage, hcached, hwrite]
  have hcount : ∀ code ∈ promptSide, ((price.items.map (·.itemCode)).count code : Int) = 1 :=
    fun code hcode => by rw [honce code (List.mem_cons_of_mem _ hcode)]; rfl
  rw [hsplit, List.sum_map_add, List.sum_map_add, sum_ite_count, sum_ite_count, sum_ite_count,
    hcount _ (by simp [promptSide]), hcount _ (by simp [promptSide]),
    hcount _ (by simp [promptSide])]
  ring

/-- **Every prompt token is billed once.** The prompt-side cost items of a
computation charge the prompt's tokens between them, the completion item the
completion's, and the total is the subtotals added up. -/
theorem prompt_tokens_billed_once (A : Decimal.Arithmetic) (usage : Usage) (price : ModelPrice)
    (hfit : CountersFit usage)
    (hcached : usage.promptDetails.cachedTokens.toNat +
      usage.promptDetails.writeCachedTokens.toNat ≤ usage.promptTokens.toNat)
    (hlifetimes : LifetimesCover usage) (hper : price.PerUnit) (honce : EachOnce price)
    (result : ComputeUsageCostResult)
    (h : computeUsageCostFull A (some usage) price = some result) :
    (quantities (· ∈ promptSide) result.items).sum = usage.promptTokens.toNat ∧
      quantities (· == PriceItemCode.completion) result.items = [usage.completionTokens.toNat] ∧
      A.sumFrom 0 (result.items.map (·.detail.subtotal)) = some result.total := by
  rw [computeUsageCostFull_eq] at h
  obtain ⟨items, hitems, hpriced, htotal⟩ := foldlM_pushCharge A h
  obtain rfl : result.items = items := hitems
  refine ⟨?_, ?_, htotal⟩
  · rw [quantities_eq A hper hpriced, sum_filter_charges usage (· ∈ promptSide)]
    have hsum := @sum_promptSide usage price honce
    rw [billablePromptTokens_eq hfit hcached, asI64_eq hfit.2.2.1,
      writeCacheQuantity_eq hfit hlifetimes] at hsum
    simp only [decide_eq_true_eq]
    rw [hsum]
    omega
  · rw [quantities_eq A hper hpriced (· == PriceItemCode.completion), completion_charges,
      honce _ List.mem_cons_self, asI64_eq hfit.2.1]
    rfl

theorem isDecimal_million : IsDecimal 1000000 := ⟨1000000, 0, by norm_num, by omega, by norm_num⟩

/-- A price of one for each token. -/
def onePerToken : Pricing :=
  ⟨pricingModeUsagePerUnit, none, some ⟨1000000, isDecimal_million⟩, none⟩

def samplePrice : ModelPrice :=
  ⟨[⟨PriceItemCode.usage, onePerToken, []⟩, ⟨PriceItemCode.completion, onePerToken, []⟩,
    ⟨PriceItemCode.promptCachedToken, onePerToken, []⟩,
    ⟨PriceItemCode.writeCachedTokens, onePerToken, []⟩]⟩

def sampleUsage : Usage :=
  { promptTokens := 10
    completionTokens := 4
    totalTokens := 14
    promptDetails :=
      { cachedTokens := 2
        writeCachedTokens := 3
        writeCachedTokens5m := 1
        writeCachedTokens1h := 2 } }

theorem isDecimal_small (n : Fin 100) : IsDecimal (n.val : ℤ) :=
  isDecimal_int (by rw [abs_of_nonneg (by omega)]; omega)

def small (n : Fin 100) : Decimal := ⟨(n.val : ℤ), isDecimal_small n⟩

theorem add_small (A : Decimal.Arithmetic) {a b c : Fin 100} (h : a.val + b.val = c.val) :
    A.add (small a) (small b) = some (small c) := by
  have hsum : ((small a : Decimal) : ℚ) + (small b : Decimal) = (small c : Decimal) := by
    show ((a.val : ℤ) : ℚ) + ((b.val : ℤ) : ℚ) = ((c.val : ℤ) : ℚ)
    exact_mod_cast h
  show A.round _ = _
  rw [hsum]
  exact A.round_exact _

theorem computeItemSubtotal_onePerToken (A : Decimal.Arithmetic) (n : Fin 100) :
    computeItemSubtotal A n.val onePerToken = some ⟨n.val, small n, []⟩ := by
  have hline : lineCost A ⟨1000000, isDecimal_million⟩ n.val =
      some (small n) := by
    rw [lineCost_eq A (by omega) (by omega)]
    have hcost : ((1000000 : ℚ) * (((n.val : ℤ) : ℚ) / 10 ^ 6)) = (small n : Decimal) := by
      show _ = ((n.val : ℤ) : ℚ)
      ring
    show A.round (1000000 * (((n.val : ℤ) : ℚ) / 10 ^ 6)) = _
    rw [hcost]
    exact A.round_exact _
  unfold computeItemSubtotal
  rw [if_neg (show ¬ onePerToken.mode = pricingModeFlatFee by decide),
    if_pos (show onePerToken.mode = pricingModeUsagePerUnit from rfl)]
  show (lineCost A _ n.val).bind _ = _
  rw [hline]
  rfl

theorem prompt_tokens_billed_once_sample :
    ∃ result, computeUsageCostFull .truncating (some sampleUsage) samplePrice = some result ∧
      (quantities (· ∈ promptSide) result.items).sum = 10 := by
  have hpush : ∀ (result : ComputeUsageCostResult) (code : String) (variant : Option String)
      (n total total' : Fin 100), result.total = small total → total.val + n.val = total'.val →
      pushCharge .truncating result ⟨code, onePerToken, n.val, variant⟩ =
        some ⟨result.items ++ [⟨code, variant, ⟨n.val, small n, []⟩⟩], small total'⟩ := by
    intro result code variant n total total' htotal hadd
    unfold pushCharge
    simp only [computeItemSubtotal_onePerToken, htotal]
    show ((Decimal.Arithmetic.truncating.add (small total) (small n)).bind _) = _
    rw [add_small _ hadd]
    rfl
  have hcharges : samplePrice.items.flatMap (charges sampleUsage) =
      [⟨PriceItemCode.usage, onePerToken, (5 : Fin 100).val, none⟩,
        ⟨PriceItemCode.completion, onePerToken, (4 : Fin 100).val, none⟩,
        ⟨PriceItemCode.promptCachedToken, onePerToken, (2 : Fin 100).val, none⟩,
        ⟨PriceItemCode.writeCachedTokens, onePerToken, (1 : Fin 100).val,
          some PromptWriteCacheVariantCode.fiveMin⟩,
        ⟨PriceItemCode.writeCachedTokens, onePerToken, (2 : Fin 100).val,
          some PromptWriteCacheVariantCode.oneHour⟩] := by
    rfl
  have hzero : ({} : ComputeUsageCostResult).total = small 0 := by
    refine Subtype.ext ?_
    show (0 : ℚ) = (((0 : Fin 100).val : ℤ) : ℚ)
    norm_num
  have hresult : ∃ result,
      computeUsageCostFull .truncating (some sampleUsage) samplePrice = some result := by
    rw [computeUsageCostFull_eq, hcharges, ← Option.isSome_iff_exists]
    simp only [List.foldlM_cons, List.foldlM_nil]
    rw [hpush _ _ _ 5 0 5 hzero rfl, Option.bind_eq_bind, Option.bind_some,
      hpush _ _ _ 4 5 9 rfl rfl, Option.bind_some,
      hpush _ _ _ 2 9 11 rfl rfl, Option.bind_some,
      hpush _ _ _ 1 11 12 rfl rfl, Option.bind_some,
      hpush _ _ _ 2 12 14 rfl rfl, Option.bind_some]
    rfl
  obtain ⟨result, hresult⟩ := hresult
  refine ⟨result, hresult, (prompt_tokens_billed_once .truncating sampleUsage samplePrice
    ?_ ?_ ?_ ?_ ?_ result hresult).1⟩
  · exact ⟨by decide, by decide, by decide, by decide, by decide, by decide⟩
  · decide
  · exact .inr (by decide)
  · intro item hitem
    have honePerToken : onePerToken.PerUnit := ⟨rfl, rfl⟩
    simp only [samplePrice, List.mem_cons, List.not_mem_nil, or_false] at hitem
    rcases hitem with rfl | rfl | rfl | rfl <;>
      exact ⟨honePerToken, fun _ h => absurd h List.not_mem_nil⟩
  · unfold EachOnce
    simp [samplePrice, promptSide, PriceItemCode.usage, PriceItemCode.completion,
      PriceItemCode.promptCachedToken, PriceItemCode.writeCachedTokens]

end Conduit.Billing.UsageCost
