import Conduit.Base.Decimal
import Conduit.Transformers.Unified
import Mathlib

/-!
# The cost of a usage

A price item charges a fixed fee, a price per million tokens, a price for each
tier the tokens pass through, or the price of the tier that holds them all. A
usage is split over the items of its model's price: cached and cache-writing
prompt tokens by their own items, the other prompt tokens by theirs. Money is
in decimals; an operation that overflows stops the computation.
-/

namespace Conduit.Billing

open Base Transformers

namespace UsageCost

/-! ## Prices -/

structure PriceTier where
  upTo : Option Int
  pricePerUnit : Decimal

/-- The modes of `pricing.rs`; an unknown mode charges nothing. -/
def pricingModeFlatFee : String := "flat_fee"
def pricingModeUsagePerUnit : String := "usage_per_unit"
def pricingModeTiered : String := "usage_tiered"
def pricingModeVolume : String := "usage_volume"

structure Pricing where
  mode : String
  flatFee : Option Decimal
  usagePerUnit : Option Decimal
  /-- The tiers of `TieredPricing`. -/
  usageTiered : Option (List PriceTier)

namespace PriceItemCode

def usage : String := "prompt_tokens"
def completion : String := "completion_tokens"
def promptCachedToken : String := "prompt_cached_tokens"
def writeCachedTokens : String := "prompt_write_cached_tokens"

end PriceItemCode

namespace PromptWriteCacheVariantCode

def fiveMin : String := "five_min"
def oneHour : String := "one_hour"

end PromptWriteCacheVariantCode

structure PromptWriteCacheVariant where
  variantCode : String
  pricing : Pricing

structure ModelPriceItem where
  itemCode : String
  pricing : Pricing
  promptWriteCacheVariants : List PromptWriteCacheVariant

structure ModelPrice where
  items : List ModelPriceItem

/-! ## Costs -/

structure TierCostDetail where
  upTo : Option Int
  units : Int
  subtotal : Decimal

structure CostItemDetail where
  quantity : Int := 0
  subtotal : Decimal := 0
  tierBreakdown : List TierCostDetail := []

structure ComputedCostItem where
  itemCode : String
  promptWriteCacheVariantCode : Option String
  detail : CostItemDetail

structure ComputeUsageCostResult where
  items : List ComputedCostItem := []
  total : Decimal := 0

section Computation

variable (A : Decimal.Arithmetic)

/-- `Decimal::from(units) / 1_000_000`. -/
def unitsInMillionTokens (units : Int) : Option Decimal :=
  if units ≤ 0 then some 0
  else do A.div (← A.round units) (← A.round 1000000)

/-- A price times the millions of units. -/
def lineCost (pricePerUnit : Decimal) (units : Int) : Option Decimal := do
  A.mul pricePerUnit (← unitsInMillionTokens A units)

/-- The tiers from `prevUpTo` on, with the total and the breakdown so far. -/
def tierLoop (quantity : Int) :
    Int → List PriceTier → Decimal × List TierCostDetail → Option (Decimal × List TierCostDetail)
  | _, [], acc => some acc
  | prevUpTo, tier :: tiers, (total, tierBreakdown) =>
      let tierUnits := match tier.upTo with
        | some upTo =>
            if quantity ≤ upTo then max (quantity - prevUpTo) 0 else max (upTo - prevUpTo) 0
        | none => max (quantity - prevUpTo) 0
      let within := tier.upTo.any (quantity ≤ ·)
      if tierUnits ≤ 0 then
        if within then some (total, tierBreakdown)
        else tierLoop quantity (tier.upTo.getD 0) tiers (total, tierBreakdown)
      else do
        let sub ← lineCost A tier.pricePerUnit tierUnits
        let total ← A.add total sub
        let acc := (total, tierBreakdown ++ [⟨tier.upTo, tierUnits, sub⟩])
        if within then some acc else tierLoop quantity (tier.upTo.getD 0) tiers acc

def computeTieredSubtotal (quantity : Int) (tiers : List PriceTier) : Option CostItemDetail := do
  let (total, tierBreakdown) ← tierLoop A quantity 0 tiers (0, [])
  pure ⟨quantity, total, tierBreakdown⟩

/-- All the units at the price of the first tier they fit in. -/
def computeVolumeSubtotal (quantity : Int) (tiers : List PriceTier) : Option CostItemDetail :=
  match tiers.find? fun tier => tier.upTo.all (quantity ≤ ·) with
  | some tier => do
      let sub ← lineCost A tier.pricePerUnit quantity
      pure ⟨quantity, sub, [⟨tier.upTo, quantity, sub⟩]⟩
  | none => pure {}

/-- A mode without its data charges nothing; a flat fee is one request. -/
def computeItemSubtotal (quantity : Int) (pricing : Pricing) : Option CostItemDetail :=
  if pricing.mode = pricingModeFlatFee then
    match pricing.flatFee with
    | some fee => some ⟨1, fee, []⟩
    | none => some {}
  else if pricing.mode = pricingModeUsagePerUnit then
    match pricing.usagePerUnit with
    | some perUnit => do
        let sub ← lineCost A perUnit quantity
        pure ⟨quantity, sub, []⟩
    | none => some {}
  else if pricing.mode = pricingModeTiered then
    match pricing.usageTiered with
    | some tiers => computeTieredSubtotal A quantity tiers
    | none => some {}
  else if pricing.mode = pricingModeVolume then
    match pricing.usageTiered with
    | some tiers => computeVolumeSubtotal A quantity tiers
    | none => some {}
  else some {}

/-- `as i64`. -/
def asI64 (n : UInt64) : Int := n.toInt64.toInt

def billablePromptTokens (usage : Usage) : Int :=
  max (asI64 usage.promptTokens - asI64 usage.promptDetails.cachedTokens -
    asI64 usage.promptDetails.writeCachedTokens) 0

/-- The pricing of the first variant of the code, else the item's own. -/
def selectWriteCachedPrice (variantCode : String) (item : ModelPriceItem) : Pricing :=
  match item.promptWriteCacheVariants.find? (fun variant => variant.variantCode = variantCode) with
  | some variant => variant.pricing
  | none => item.pricing

def pushItem (item : ModelPriceItem) (pricing : Pricing) (quantity : Int)
    (variantCode : Option String) (result : ComputeUsageCostResult) :
    Option ComputeUsageCostResult := do
  let detail ← computeItemSubtotal A quantity pricing
  let total ← A.add result.total detail.subtotal
  pure ⟨result.items ++ [⟨item.itemCode, variantCode, detail⟩], total⟩

/-- A cache write is charged by its lifetime where one is known. -/
def pushWriteCached (usage : Usage) (item : ModelPriceItem) (result : ComputeUsageCostResult) :
    Option ComputeUsageCostResult := do
  let fiveMin := usage.promptDetails.writeCachedTokens5m
  let oneHour := usage.promptDetails.writeCachedTokens1h
  if 0 < fiveMin ∨ 0 < oneHour then
    let result ← if 0 < fiveMin then
        pushItem A item (selectWriteCachedPrice PromptWriteCacheVariantCode.fiveMin item)
          (asI64 fiveMin) (some PromptWriteCacheVariantCode.fiveMin) result
      else pure result
    if 0 < oneHour then
      pushItem A item (selectWriteCachedPrice PromptWriteCacheVariantCode.oneHour item)
        (asI64 oneHour) (some PromptWriteCacheVariantCode.oneHour) result
    else pure result
  else
    pushItem A item item.pricing (asI64 usage.promptDetails.writeCachedTokens) none result

def pushPriceItem (usage : Usage) (result : ComputeUsageCostResult) (item : ModelPriceItem) :
    Option ComputeUsageCostResult :=
  if item.itemCode = PriceItemCode.usage then
    pushItem A item item.pricing (billablePromptTokens usage) none result
  else if item.itemCode = PriceItemCode.completion then
    pushItem A item item.pricing (asI64 usage.completionTokens) none result
  else if item.itemCode = PriceItemCode.promptCachedToken then
    pushItem A item item.pricing (asI64 usage.promptDetails.cachedTokens) none result
  else if item.itemCode = PriceItemCode.writeCachedTokens then
    pushWriteCached A usage item result
  else pushItem A item item.pricing 0 none result

def computeUsageCostFull (usage : Option Usage) (price : ModelPrice) :
    Option ComputeUsageCostResult :=
  match usage with
  | none => some {}
  | some usage => price.items.foldlM (pushPriceItem A usage) {}

end Computation

end UsageCost

end Conduit.Billing
