import CiroFuel.Operations
import CiroFuel.Rounding
import Mathlib.Tactic.Linarith

/-!
# The laws of a price breakdown

Every component is rounded before the next is derived from it, so each one is in
whole halalas and the outer rounding of the total changes nothing. Routing derives
a stored quote again with the fee of the haul: the fuel side stays, and only the
fee and what it adds to the tax come on top.
-/
namespace CiroFuel

/-- Whole halalas. -/
def PriceBreakdown.Whole (b : PriceBreakdown) : Prop :=
  b.fuelLineTotal ∈ grid 100 ∧ (∀ fee, b.deliveryFee = some fee → fee ∈ grid 100) ∧
    b.serviceFee ∈ grid 100 ∧ b.tax ∈ grid 100 ∧ b.total ∈ grid 100

/-- The components add up. -/
def PriceBreakdown.AddsUp (b : PriceBreakdown) : Prop :=
  b.total = b.fuelLineTotal + b.deliveryFee.getD 0 + b.serviceFee + b.tax

section derive
variable (unitPrice quantityLiters : ℚ) (deliveryFee : Option ℚ)
variable (serviceFeePercent taxRatePercent : ℚ) (pricedAt : Instant)

theorem roundCurrency_mem (q : ℚ) : roundCurrency q ∈ grid 100 := roundTo_mem q

theorem roundCurrency_eq {q : ℚ} (h : q ∈ grid 100) : roundCurrency q = q :=
  roundTo_eq (by decide) h

theorem roundCurrency_mono {p q : ℚ} (h : p ≤ q) : roundCurrency p ≤ roundCurrency q :=
  roundTo_mono h

theorem roundedFee_mem : (deliveryFee.map roundCurrency).getD 0 ∈ grid 100 := by
  cases deliveryFee with
  | none => exact (grid 100).zero_mem
  | some fee => exact roundCurrency_mem fee

theorem derive_addsUp : (derivePriceBreakdown unitPrice quantityLiters deliveryFee
    serviceFeePercent taxRatePercent pricedAt).AddsUp := by
  apply roundCurrency_eq
  apply AddSubgroup.add_mem
  · apply AddSubgroup.add_mem
    · apply AddSubgroup.add_mem
      · exact roundCurrency_mem _
      · exact roundedFee_mem deliveryFee
    · exact roundCurrency_mem _
  · exact roundCurrency_mem _

theorem derive_whole : (derivePriceBreakdown unitPrice quantityLiters deliveryFee
    serviceFeePercent taxRatePercent pricedAt).Whole := by
  refine ⟨roundCurrency_mem _, fun fee hfee => ?_, roundCurrency_mem _, roundCurrency_mem _,
    roundCurrency_mem _⟩
  have hmem := roundedFee_mem deliveryFee
  change deliveryFee.map roundCurrency = some fee at hfee
  rw [hfee] at hmem
  exact hmem

/-- An absent fee is priced as a fee of zero, and stays absent. -/
theorem derive_none :
    (derivePriceBreakdown unitPrice quantityLiters none serviceFeePercent taxRatePercent
        pricedAt).total =
      (derivePriceBreakdown unitPrice quantityLiters (some 0) serviceFeePercent taxRatePercent
        pricedAt).total ∧
    (derivePriceBreakdown unitPrice quantityLiters none serviceFeePercent taxRatePercent
        pricedAt).deliveryFee = none := by
  have hzero : roundCurrency 0 = 0 := roundCurrency_eq (grid 100).zero_mem
  constructor
  · simp only [derivePriceBreakdown, Option.map_none, Option.map_some, Option.getD_none,
      Option.getD_some, hzero]
  · rfl

end derive

section mono
variable {unitPrice unitPrice' quantityLiters quantityLiters' : ℚ}
variable {deliveryFee deliveryFee' : Option ℚ} {serviceFeePercent taxRatePercent : ℚ}

theorem percent_mono {p q percent : ℚ} (hpercent : 0 ≤ percent) (h : p ≤ q) :
    roundCurrency (p * percent / 100) ≤ roundCurrency (q * percent / 100) := by
  apply roundCurrency_mono
  have := mul_le_mul_of_nonneg_right h hpercent
  linarith

theorem roundedFee_mono (h : deliveryFee.getD 0 ≤ deliveryFee'.getD 0) :
    (deliveryFee.map roundCurrency).getD 0 ≤ (deliveryFee'.map roundCurrency).getD 0 := by
  have hround : ∀ fee : Option ℚ, (fee.map roundCurrency).getD 0 = roundCurrency (fee.getD 0) := by
    intro fee
    cases fee with
    | none => exact (roundCurrency_eq (grid 100).zero_mem).symm
    | some fee => rfl
  rw [hround, hround]
  exact roundCurrency_mono h

/-- Dearer fuel, more of it or a dearer haul never lower the total. -/
theorem derive_mono (hunitPrice : 0 ≤ unitPrice) (hquantity : 0 ≤ quantityLiters)
    (hservice : 0 ≤ serviceFeePercent) (htax : 0 ≤ taxRatePercent)
    (hprices : unitPrice ≤ unitPrice') (hquantities : quantityLiters ≤ quantityLiters')
    (hfees : deliveryFee.getD 0 ≤ deliveryFee'.getD 0) (pricedAt pricedAt' : Instant) :
    (derivePriceBreakdown unitPrice quantityLiters deliveryFee serviceFeePercent taxRatePercent
        pricedAt).total ≤
      (derivePriceBreakdown unitPrice' quantityLiters' deliveryFee' serviceFeePercent
        taxRatePercent pricedAt').total := by
  have hfuel : roundCurrency (unitPrice * quantityLiters) ≤
      roundCurrency (unitPrice' * quantityLiters') := by
    apply roundCurrency_mono
    exact mul_le_mul hprices hquantities hquantity (hunitPrice.trans hprices)
  have hfee := roundedFee_mono hfees
  have hserviceFee := percent_mono hservice hfuel
  have hbase := add_le_add (add_le_add hfuel hfee) hserviceFee
  apply roundCurrency_mono
  exact add_le_add hbase (percent_mono htax hbase)

end mono

/-! ### A quote that is derived again -/

/-- The fuel side is kept, and the total rises by the fee and by what it adds to the tax. -/
structure PriceBreakdown.Hauled (quoted priced : PriceBreakdown) (fee : ℚ) : Prop where
  fuelLineTotal : priced.fuelLineTotal = quoted.fuelLineTotal
  serviceFee : priced.serviceFee = quoted.serviceFee
  deliveryFee : priced.deliveryFee = some fee
  total : priced.total - quoted.total = fee + (priced.tax - quoted.tax)

/-- Two breakdowns that add up differ by what their components differ by. -/
theorem PriceBreakdown.AddsUp.hauled {quoted priced : PriceBreakdown} {fee : ℚ}
    (hquoted : quoted.AddsUp) (hpriced : priced.AddsUp) (hnone : quoted.deliveryFee = none)
    (hfee : priced.deliveryFee = some fee) (hfuel : priced.fuelLineTotal = quoted.fuelLineTotal)
    (hservice : priced.serviceFee = quoted.serviceFee) : quoted.Hauled priced fee where
  fuelLineTotal := hfuel
  serviceFee := hservice
  deliveryFee := hfee
  total := by
    rw [AddsUp, hnone, Option.getD_none] at hquoted
    rw [AddsUp, hfee, Option.getD_some, hfuel, hservice] at hpriced
    linarith

/-- Routing prices an order with a stored quote again. -/
theorem settledPrice_quoted {order : OrderDocument} {unitPrice serviceFeePercent taxRatePercent : ℚ}
    {quotedAt : Instant} {quoted : PriceBreakdown} (hstored : order.priceBreakdown = some quoted)
    (hquoted : quoted = derivePriceBreakdown unitPrice order.quantityLiters none serviceFeePercent
      taxRatePercent quotedAt) (deliveryFee : ℚ) (pricedAt : Instant) :
    ∃ priced, settledPrice order deliveryFee pricedAt = (some priced, priced.total) ∧
      quoted.Hauled priced (roundCurrency deliveryFee) := by
  subst hquoted
  refine ⟨_, by rw [settledPrice, hstored], ?_⟩
  exact (derive_addsUp _ _ _ _ _ _).hauled (derive_addsUp _ _ _ _ _ _) rfl rfl rfl rfl

/-- The fee that routing adds is in whole halalas. -/
theorem DeliveryRate.roundCurrency_fee (rate : DeliveryRate) (distanceMeters : ℚ) :
    roundCurrency (rate.fee distanceMeters) = rate.fee distanceMeters :=
  roundCurrency_eq (roundCurrency_mem _)

/-- A breakdown is in whole halalas and adds up; routing adds the fee of the haul and its tax to
the quote; no price, quantity or fee lowers the total by rising; an absent fee costs nothing. -/
theorem price_breakdown_laws {unitPrice quantityLiters serviceFeePercent taxRatePercent : ℚ}
    (hunitPrice : 0 ≤ unitPrice) (hquantity : 0 ≤ quantityLiters)
    (hservice : 0 ≤ serviceFeePercent) (htax : 0 ≤ taxRatePercent) (pricedAt : Instant) :
    (∀ deliveryFee, (derivePriceBreakdown unitPrice quantityLiters deliveryFee serviceFeePercent
        taxRatePercent pricedAt).Whole ∧
      (derivePriceBreakdown unitPrice quantityLiters deliveryFee serviceFeePercent
        taxRatePercent pricedAt).AddsUp) ∧
    (∀ (order : OrderDocument) (quoted : PriceBreakdown), order.quantityLiters = quantityLiters →
      order.priceBreakdown = some quoted → quoted = derivePriceBreakdown unitPrice quantityLiters
        none serviceFeePercent taxRatePercent pricedAt →
      (∀ deliveryFee routedAt, ∃ priced,
        settledPrice order deliveryFee routedAt = (some priced, priced.total) ∧
          quoted.Hauled priced (roundCurrency deliveryFee)) ∧
      ∀ (rate : DeliveryRate) (distanceMeters : ℚ) routedAt, ∃ priced,
        settledPrice order (rate.fee distanceMeters) routedAt = (some priced, priced.total) ∧
          quoted.Hauled priced (rate.fee distanceMeters)) ∧
    (∀ (unitPrice' quantityLiters' : ℚ) (deliveryFee deliveryFee' : Option ℚ) (pricedAt' : Instant),
      unitPrice ≤ unitPrice' → quantityLiters ≤ quantityLiters' →
      deliveryFee.getD 0 ≤ deliveryFee'.getD 0 →
      (derivePriceBreakdown unitPrice quantityLiters deliveryFee serviceFeePercent taxRatePercent
          pricedAt).total ≤
        (derivePriceBreakdown unitPrice' quantityLiters' deliveryFee' serviceFeePercent
          taxRatePercent pricedAt').total) ∧
    (derivePriceBreakdown unitPrice quantityLiters none serviceFeePercent taxRatePercent
        pricedAt).total =
      (derivePriceBreakdown unitPrice quantityLiters (some 0) serviceFeePercent taxRatePercent
        pricedAt).total ∧
    (derivePriceBreakdown unitPrice quantityLiters none serviceFeePercent taxRatePercent
        pricedAt).deliveryFee = none := by
  refine ⟨fun deliveryFee => ⟨derive_whole .., derive_addsUp ..⟩, ?_, ?_, derive_none ..⟩
  · intro order quoted hlitres hstored hquoted
    subst hlitres
    have hauled := settledPrice_quoted hstored hquoted
    constructor
    · exact hauled
    · intro rate distanceMeters routedAt
      have hhauled := hauled (rate.fee distanceMeters) routedAt
      rwa [rate.roundCurrency_fee] at hhauled
  · intro unitPrice' quantityLiters' deliveryFee deliveryFee' pricedAt' hprices hquantities hfees
    exact derive_mono hunitPrice hquantity hservice htax hprices hquantities hfees pricedAt pricedAt'

/-- 10,000 litres at 2.13 with a fee of 2.5 % and a tax of 15 %, and a haul of 50. -/
theorem price_breakdown_laws_diesel :
    (derivePriceBreakdown (213 / 100) 10000 none (5 / 2) 15 0).Whole ∧
      (derivePriceBreakdown (213 / 100) 10000 none (5 / 2) 15 0).total ≤
        (derivePriceBreakdown (213 / 100) 10000 (some 50) (5 / 2) 15 0).total := by
  have hunitPrice : (0 : ℚ) ≤ 213 / 100 := by norm_num
  have hquantity : (0 : ℚ) ≤ 10000 := by norm_num
  have hservice : (0 : ℚ) ≤ 5 / 2 := by norm_num
  have htax : (0 : ℚ) ≤ 15 := by norm_num
  obtain ⟨hwhole, -, hmono, -⟩ := price_breakdown_laws hunitPrice hquantity hservice htax 0
  refine ⟨(hwhole none).1, hmono _ _ none (some 50) 0 le_rfl le_rfl ?_⟩
  rw [Option.getD_none, Option.getD_some]
  norm_num

end CiroFuel
