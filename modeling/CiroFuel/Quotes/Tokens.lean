import CiroFuel.Pricing
import CiroFuel.Json.Conversions
import CiroFuel.Encoding.Base64
import CiroFuel.Encoding.Utf8

/-!
# Quote tokens

A quote is handed out as a token: the inputs and the rates it was made from and the
instant it expires, as JSON in base 64. Nothing is signed. A token that comes back may
be any string, and what it decodes to any value; its fields are compared with the inputs
and the live rates, and the price is derived from the live rates alone.
-/
namespace CiroFuel.Quotes
open Json Encoding

structure PricingConfig where
  serviceFeePercent : Double
  taxRatePercent : Double

structure Company where
  fuelPrices : List (FuelType × Double)
  pricingConfig : Option PricingConfig

/-- The companies there are, with the rates they have now. -/
abbrev Companies := JsString → Option Company

structure Rates where
  unitPrice : Double
  serviceFeePercent : Double
  taxRatePercent : Double
deriving DecidableEq

/-- Minutes until a quote expires; `none` for a setting that is no number. -/
structure Settings where
  quoteExpiryMinutes : Option ℕ := some 10

/-- When a quote expires that is made now. -/
def Settings.expiry (cfg : Settings) (now : Instant) : Option ℤ :=
  cfg.quoteExpiryMinutes.map fun minutes => (now + minutes * 60000 : ℕ)

inductive ErrorCode where
  | quoteExpired | quoteStale | pricingNotConfigured
deriving DecidableEq

/-- What a call throws: a conflict, or an error of the language. -/
inductive Thrown where
  | conflict (error : ErrorCode) (message : String) (currentBreakdown : Option PriceBreakdown)
  | typeError
  | rangeError
deriving DecidableEq

def notConfigured : Thrown :=
  .conflict .pricingNotConfigured "Pricing is not yet configured for this fuel company" none

def notValid : Thrown := .conflict .quoteExpired "This quote token is not valid" none

def expired : Thrown := .conflict .quoteExpired "This quote has expired" none

def stale (currentBreakdown : PriceBreakdown) : Thrown :=
  .conflict .quoteStale "Pricing has changed since this quote" (some currentBreakdown)

structure Quote where
  breakdown : PriceBreakdown
  quoteToken : JsString
  expiresAt : ℤ

def fuelTypeText : FuelType → List Char
  | .diesel => "DIESEL".toList
  | .petrol91 => "PETROL_91".toList
  | .petrol95 => "PETROL_95".toList
  | .kerosene => "KEROSENE".toList

/-! ### Rates -/

section rates
variable (companies : Companies) (fuelCompanyId : JsString) (fuelType : FuelType)
variable (quantityLiters : Double)

def getBasePrice : Option Double :=
  (companies fuelCompanyId).bind fun c =>
    (c.fuelPrices.find? fun p => p.1 = fuelType).map (·.2)

def getPricingConfig : Option PricingConfig := (companies fuelCompanyId).bind (·.pricingConfig)

def currentRates : Except Thrown Rates :=
  match getBasePrice companies fuelCompanyId fuelType, getPricingConfig companies fuelCompanyId with
  | some unitPrice, some config =>
      .ok ⟨unitPrice, config.serviceFeePercent, config.taxRatePercent⟩
  | _, _ => .error notConfigured

/-- The breakdown without a delivery fee. -/
def derive (rates : Rates) (pricedAt : Instant) : PriceBreakdown :=
  derivePriceBreakdown rates.unitPrice.value quantityLiters.value none
    rates.serviceFeePercent.value rates.taxRatePercent.value pricedAt

def priceWithoutQuote (pricedAt : Instant) : Except Thrown PriceBreakdown := do
  let rates ← currentRates companies fuelCompanyId fuelType
  return derive quantityLiters rates pricedAt

end rates

/-! ### Tokens -/

def name (s : String) : JsString := ofText s.toList

/-- What a token says. -/
def payload (fuelCompanyId : JsString) (fuelType : FuelType) (quantityLiters : Double)
    (rates : Rates) (expiresAt : List Char) : Value :=
  .object [
    (name "fuelCompanyId", .string fuelCompanyId),
    (name "fuelType", .string (ofText (fuelTypeText fuelType))),
    (name "quantityLiters", .number (.finite quantityLiters)),
    (name "unitPrice", .number (.finite rates.unitPrice)),
    (name "serviceFeePercent", .number (.finite rates.serviceFeePercent)),
    (name "taxRatePercent", .number (.finite rates.taxRatePercent)),
    (name "expiresAt", .string (ofText expiresAt))]

/-- `Buffer.from(JSON.stringify(payload)).toString('base64url')` -/
def tokenOf (payload : Value) : JsString := Base64.encode (Utf8.encode payload.stringify)

def decode (token : JsString) : Except Thrown Value :=
  match parse (Utf8.decode (Base64.decode token)) with
  | some payload => .ok payload
  | none => .error notValid

/-- A property of a value. Nothing can be read from `null`. -/
def property (v : Value) (key : String) : Except Thrown (Option Value) :=
  match v with
  | .null => .error .typeError
  | v => .ok (v.get (name key))

/-- `new Date(x)`; `none` is a date that is not valid. -/
def newDate (otherDate : JsString → Option ℤ) (x : Option Value) : Except Thrown (Option ℤ) :=
  match toDate otherDate x with
  | .thrown => .error .typeError
  | .invalid => .ok none
  | .time t => .ok (some t)

/-- `x === s` -/
def isString (x : Option Value) (s : JsString) : Bool :=
  match x with
  | some (.string s') => s' = s
  | _ => false

/-- `x === n` -/
def isNumber (x : Option Value) (n : Double) : Bool :=
  match x with
  | some (.number n') => n' = .finite n
  | _ => false

section service
variable (otherDate : JsString → Option ℤ) (cfg : Settings) (companies : Companies)
variable (fuelCompanyId : JsString) (fuelType : FuelType) (quantityLiters : Double)

def quote (now pricedAt : Instant) : Except Thrown Quote := do
  let rates ← currentRates companies fuelCompanyId fuelType
  match cfg.expiry now, (cfg.expiry now).bind Dates.toISOString with
  | some expiresAt, some text =>
      .ok {
        breakdown := derive quantityLiters rates pricedAt
        quoteToken := tokenOf (payload fuelCompanyId fuelType quantityLiters rates text)
        expiresAt := expiresAt }
  | _, _ => .error .rangeError

/-- The payload is of a quote for the same inputs. -/
def sameInputs (payload : Value) : Bool :=
  isString (payload.get (name "fuelCompanyId")) fuelCompanyId &&
    isString (payload.get (name "fuelType")) (ofText (fuelTypeText fuelType)) &&
    isNumber (payload.get (name "quantityLiters")) quantityLiters

def sameRates (rates : Rates) (payload : Value) : Bool :=
  isNumber (payload.get (name "unitPrice")) rates.unitPrice &&
    isNumber (payload.get (name "serviceFeePercent")) rates.serviceFeePercent &&
    isNumber (payload.get (name "taxRatePercent")) rates.taxRatePercent

/-- The clock is read for the expiry, then for a new quote, and last for the price. -/
def redeem (quoteToken : JsString) (now requotedAt pricedAt : Instant) :
    Except Thrown PriceBreakdown := do
  let payload ← decode quoteToken
  let expiresAt ← newDate otherDate (← property payload "expiresAt")
  if expiresAt.any fun t => t ≤ (now : ℤ) then
    .error expired
  else if !sameInputs fuelCompanyId fuelType quantityLiters payload then
    let current ← quote cfg companies fuelCompanyId fuelType quantityLiters requotedAt pricedAt
    .error (stale current.breakdown)
  else
    let rates ← currentRates companies fuelCompanyId fuelType
    if !sameRates rates payload then .error (stale (derive quantityLiters rates pricedAt))
    else .ok (derive quantityLiters rates pricedAt)

end service
end CiroFuel.Quotes
