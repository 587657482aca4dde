import CiroFuel.Arithmetic
import CiroFuel.OrderState

/-!
# Prices

The fuel line is quoted from the fuel company's rates. The delivery leg is added
once a transport company is chosen, from that company's own rates and the
distance to the nearest warehouse that stocks the grade. Every component is
rounded half up before the next is derived from it.
-/
namespace CiroFuel
open Snapshot

/-- Deployment settings, the distance the database and the geofence measure, and the
arithmetic in which litres and account amounts are added. -/
structure Settings where
  paymentDeadlineMinutes : ℕ := 30
  defaultCommissionCeiling : ℚ
  warehouseGeofenceRadiusMeters : ℕ := 500
  distanceMeters : GeoPoint → GeoPoint → ℚ
  arithmetic : Arithmetic := .doubles

/-- The length of the payment window in milliseconds. -/
def Settings.paymentWindow (cfg : Settings) : ℕ := cfg.paymentDeadlineMinutes * 60000

/-- Rounds to a multiple of `1 / factor`, half up. -/
def roundTo (factor : ℕ) (value : ℚ) : ℚ := (value * factor + 1 / 2).floor / factor

def roundCurrency (value : ℚ) : ℚ := roundTo 100 value

def roundLitres (A : Arithmetic) (value : ℚ) : ℚ := A.roundTo 1000 value

def derivePriceBreakdown (unitPrice quantityLiters : ℚ) (deliveryFee : Option ℚ)
    (serviceFeePercent taxRatePercent : ℚ) (pricedAt : Instant) : PriceBreakdown :=
  let fuelLineTotal := roundCurrency (unitPrice * quantityLiters)
  let roundedDeliveryFee := deliveryFee.map roundCurrency
  let serviceFee := roundCurrency (fuelLineTotal * serviceFeePercent / 100)
  let tax := roundCurrency
    ((fuelLineTotal + roundedDeliveryFee.getD 0 + serviceFee) * taxRatePercent / 100)
  let total := roundCurrency (fuelLineTotal + roundedDeliveryFee.getD 0 + serviceFee + tax)
  { fuelLineTotal := fuelLineTotal
    deliveryFee := roundedDeliveryFee
    serviceFee := serviceFee
    tax := tax
    total := total
    unitPrice := unitPrice
    serviceFeePercent := serviceFeePercent
    taxRatePercent := taxRatePercent
    pricedAt := pricedAt }

/-! ### Reading one collection -/

/-- The documents selected by `pick`, with their ids, in storage order. -/
def Docs.collect {α : Type} (pick : (k : Key) → Doc k → Option α) (d : Docs Doc) : List α :=
  d.entries.filterMap fun e => pick e.1 e.2

def pickCompany : (k : Key) → Doc k → Option (Id × Company)
  | .company id, (c : Company) => some (id, c)
  | _, _ => none

def pickWarehouse : (k : Key) → Doc k → Option (Id × Warehouse)
  | .warehouse id, (w : Warehouse) => some (id, w)
  | _, _ => none

def pickInvoice : (k : Key) → Doc k → Option (Id × Invoice)
  | .invoice id, (x : Invoice) => some (id, x)
  | _, _ => none

def pickAccountMovement : (k : Key) → Doc k → Option (Id × AccountMovement)
  | .accountMovement id, (m : AccountMovement) => some (id, m)
  | _, _ => none

def pickCommissionTerm : (k : Key) → Doc k → Option (Id × CommissionTerm)
  | .commissionTerm id, (t : CommissionTerm) => some (id, t)
  | _, _ => none

def pickCashbackProgramme : (k : Key) → Doc k → Option (Id × CashbackProgramme)
  | .cashbackProgramme id, (p : CashbackProgramme) => some (id, p)
  | _, _ => none

/-! ### Rates -/

def getBasePrice (company : Option Company) (fuelType : FuelType) : Option ℚ :=
  company.bind fun c => (c.fuelPrices.find? fun p => p.1 = fuelType).map (·.2)

/-- The live rates for one grade: unit price, service fee and tax. -/
def currentRates (unitPrice : Option ℚ) (pricingConfig : Option PricingConfig) :
    Option (ℚ × PricingConfig) :=
  match unitPrice, pricingConfig with
  | some unitPrice, some pricingConfig => some (unitPrice, pricingConfig)
  | _, _ => none

def findServingTransporters (d : Docs Doc) (fuelCompanyId : Id) (regionCode : ℕ) : List Id :=
  ((Docs.collect pickCompany d).filter fun c =>
    c.2.type = .transport && c.2.parentFuelCompanyId = some fuelCompanyId &&
      c.2.status = .active && c.2.servedRegions.contains regionCode).map (·.1)

structure DeliveryTarget where
  regionCode : ℕ
  governorateCode : Option ℕ
  coordinates : GeoPoint

/-- A governorate rate wins over its region's. -/
def rateFor (rates : List DeliveryRate) (target : DeliveryTarget) : Option DeliveryRate :=
  (rates.find? fun r => r.regionCode = target.regionCode && target.governorateCode.isSome &&
      r.governorateCode = target.governorateCode).or
    (rates.find? fun r => r.regionCode = target.regionCode && r.governorateCode.isNone)

/-- The nearest in-service warehouse that stocks the grade, with its distance. -/
def findNearestSupplying (cfg : Settings) (d : Docs Doc) (coordinates : GeoPoint)
    (fuelType : FuelType) : Option (Id × Warehouse × ℚ) :=
  let supplying := (Docs.collect pickWarehouse d).filter fun w =>
    w.2.isActive && w.2.fuelTypes.contains fuelType
  supplying.foldl
    (fun nearest w =>
      let distance := cfg.distanceMeters coordinates w.2.location
      match nearest with
      | some (id, w', distance') =>
          if distance < distance' then some (w.1, w.2, distance) else some (id, w', distance')
      | none => some (w.1, w.2, distance))
    none

/-- What a rate charges for a haul of this length. -/
def DeliveryRate.fee (rate : DeliveryRate) (distanceMeters : ℚ) : ℚ :=
  roundCurrency (max rate.minPrice (distanceMeters / 1000 * rate.pricePerKm))

end CiroFuel
