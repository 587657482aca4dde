import CiroFuel.Quotes.Tokens

/-!
# Redeeming a quote

What is redeemed is priced from the live rates, as an order without a quote is. A token
that was just handed out is redeemed as long as it has not expired and the rates stay
as they were.
-/
namespace CiroFuel.Quotes
open Json Encoding

/-! ### Tokens that were handed out -/

theorem decode_tokenOf {v : Value} (h : v.Finite) : decode (tokenOf v) = .ok v := by
  rw [decode, tokenOf, Base64.decode_encode, Utf8.decode_encode, h.parse_stringify]

section payload
variable (fuelCompanyId : JsString) (fuelType : FuelType) (quantityLiters : Double)
variable (rates : Rates) (expiresAt : List Char)

theorem payload_finite :
    (payload fuelCompanyId fuelType quantityLiters rates expiresAt).Finite := by
  apply Value.Finite.object
  simp only [List.forall_mem_cons]
  exact ⟨.string _, .string _, .number _, .number _, .number _, .number _, .string _, by simp⟩

theorem sameInputs_payload : sameInputs fuelCompanyId fuelType quantityLiters
    (payload fuelCompanyId fuelType quantityLiters rates expiresAt) = true := by
  have hcompany : (payload fuelCompanyId fuelType quantityLiters rates expiresAt).get
      (name "fuelCompanyId") = some (.string fuelCompanyId) := rfl
  have hfuel : (payload fuelCompanyId fuelType quantityLiters rates expiresAt).get
      (name "fuelType") = some (.string (ofText (fuelTypeText fuelType))) := rfl
  have hquantity : (payload fuelCompanyId fuelType quantityLiters rates expiresAt).get
      (name "quantityLiters") = some (.number (.finite quantityLiters)) := rfl
  rw [sameInputs, hcompany, hfuel, hquantity]
  simp [isString, isNumber]

theorem sameRates_payload : sameRates rates
    (payload fuelCompanyId fuelType quantityLiters rates expiresAt) = true := by
  have hunitPrice : (payload fuelCompanyId fuelType quantityLiters rates expiresAt).get
      (name "unitPrice") = some (.number (.finite rates.unitPrice)) := rfl
  have hservice : (payload fuelCompanyId fuelType quantityLiters rates expiresAt).get
      (name "serviceFeePercent") = some (.number (.finite rates.serviceFeePercent)) := rfl
  have htax : (payload fuelCompanyId fuelType quantityLiters rates expiresAt).get
      (name "taxRatePercent") = some (.number (.finite rates.taxRatePercent)) := rfl
  rw [sameRates, hunitPrice, hservice, htax]
  simp [isNumber]

end payload

/-! ### What redeeming comes to -/

theorem property_eq {v : Value} (h : v ≠ .null) (key : String) :
    property v key = .ok (v.get (name key)) := by
  cases v with
  | null => exact absurd rfl h
  | _ => rfl

theorem currentRates_error {companies : Companies} {fuelCompanyId : JsString}
    {fuelType : FuelType} {e : Thrown}
    (h : currentRates companies fuelCompanyId fuelType = .error e) :
    e = notConfigured := by
  rw [currentRates] at h
  split at h
  · cases h
  · exact (Except.error.inj h).symm

section quote
variable {cfg : Settings} {companies : Companies} {fuelCompanyId : JsString} {fuelType : FuelType}
variable {quantityLiters : Double} {now pricedAt : Instant} {rates : Rates}

/-- A quote that is made now expires within the range of dates. -/
def Settings.Expires (cfg : Settings) (now : Instant) : Prop :=
  ∃ minutes, cfg.quoteExpiryMinutes = some minutes ∧ now + minutes * 60000 ≤ 8640000000000000

theorem expires_iff : cfg.Expires now ↔
    ∃ t text, cfg.expiry now = some t ∧ Dates.toISOString t = some text := by
  constructor
  · rintro ⟨minutes, hminutes, hrange⟩
    refine ⟨_, _, by rw [Settings.expiry, hminutes]; rfl, if_pos ?_⟩
    rw [abs_of_nonneg (Int.natCast_nonneg _)]
    exact_mod_cast hrange
  · rintro ⟨t, text, ht, htext⟩
    obtain ⟨minutes, hminutes, rfl⟩ := Option.map_eq_some_iff.mp ht
    have hrange := (Dates.toISOString_eq htext).1
    rw [abs_of_nonneg (Int.natCast_nonneg _)] at hrange
    exact ⟨minutes, hminutes, by exact_mod_cast hrange⟩

theorem quote_eq (hrates : currentRates companies fuelCompanyId fuelType = .ok rates) {t : ℤ}
    {text : List Char} (ht : cfg.expiry now = some t) (htext : Dates.toISOString t = some text) :
    quote cfg companies fuelCompanyId fuelType quantityLiters now pricedAt = .ok {
      breakdown := derive quantityLiters rates pricedAt
      quoteToken := tokenOf (payload fuelCompanyId fuelType quantityLiters rates text)
      expiresAt := t } := by
  rw [quote, hrates, ht, Option.bind_some, htext]
  rfl

theorem quote_unpriced {e : Thrown}
    (h : currentRates companies fuelCompanyId fuelType = .error e) :
    quote cfg companies fuelCompanyId fuelType quantityLiters now pricedAt = .error e := by
  rw [quote, h]
  rfl

/-- Without a date there is no text of it. -/
theorem quote_unending (hrates : currentRates companies fuelCompanyId fuelType = .ok rates)
    (h : ¬cfg.Expires now) :
    quote cfg companies fuelCompanyId fuelType quantityLiters now pricedAt =
      .error .rangeError := by
  rw [quote, hrates]
  cases ht : cfg.expiry now with
  | none => rfl
  | some t =>
      rw [Option.bind_some]
      cases htext : Dates.toISOString t with
      | none => rfl
      | some text => exact absurd (expires_iff.mpr ⟨t, text, ht, htext⟩) h

/-- What a quote says. -/
theorem quote_ok {quoted : Quote}
    (h : quote cfg companies fuelCompanyId fuelType quantityLiters now pricedAt = .ok quoted) :
    ∃ rates text, currentRates companies fuelCompanyId fuelType = .ok rates ∧
      Dates.toISOString quoted.expiresAt = some text ∧
      quoted.breakdown = derive quantityLiters rates pricedAt ∧
      quoted.quoteToken = tokenOf (payload fuelCompanyId fuelType quantityLiters rates text) := by
  cases hrates : currentRates companies fuelCompanyId fuelType with
  | error e =>
      rw [quote_unpriced hrates] at h
      cases h
  | ok rates =>
      by_cases hexpires : cfg.Expires now
      · obtain ⟨t, text, ht, htext⟩ := expires_iff.mp hexpires
        rw [quote_eq hrates ht htext] at h
        cases h
        exact ⟨rates, text, rfl, htext, rfl, rfl⟩
      · rw [quote_unending hrates hexpires] at h
        cases h

end quote

section redeem
variable {otherDate : JsString → Option ℤ} {cfg : Settings} {companies : Companies}
variable {fuelCompanyId : JsString} {fuelType : FuelType} {quantityLiters : Double}
variable {token : JsString} {now requotedAt pricedAt : Instant} {v : Value} {date : Option ℤ}
variable {rates : Rates} {breakdown : PriceBreakdown} {e : Thrown}

/-- The date has come. -/
def Past (date : Option ℤ) (now : Instant) : Prop := ∃ t, date = some t ∧ t ≤ now

theorem past_iff : (date.any fun t => t ≤ (now : ℤ)) = true ↔ Past date now := by
  cases date <;> simp [Past]

theorem redeem_undecoded (hdecode : decode token = .error e) :
    redeem otherDate cfg companies fuelCompanyId fuelType quantityLiters token now requotedAt
      pricedAt = .error e := by
  rw [redeem, hdecode]
  rfl

theorem redeem_null (hdecode : decode token = .ok .null) :
    redeem otherDate cfg companies fuelCompanyId fuelType quantityLiters token now requotedAt
      pricedAt = .error .typeError := by
  rw [redeem, hdecode]
  rfl

theorem redeem_undated (hdecode : decode token = .ok v) (hne : v ≠ .null)
    (hdate : newDate otherDate (v.get (name "expiresAt")) = .error e) :
    redeem otherDate cfg companies fuelCompanyId fuelType quantityLiters token now requotedAt
      pricedAt = .error e := by
  rw [redeem, hdecode]
  change (property v "expiresAt").bind _ = _
  rw [property_eq hne]
  change (newDate otherDate (v.get (name "expiresAt"))).bind _ = _
  rw [hdate]
  rfl

section read
variable (hdecode : decode token = .ok v) (hne : v ≠ .null)
variable (hdate : newDate otherDate (v.get (name "expiresAt")) = .ok date)
include hdecode hne hdate

/-- A payload whose expiry has been read. -/
theorem redeem_read :
    redeem otherDate cfg companies fuelCompanyId fuelType quantityLiters token now requotedAt
        pricedAt =
      if date.any fun t => t ≤ (now : ℤ) then .error expired
      else if !sameInputs fuelCompanyId fuelType quantityLiters v then
        (quote cfg companies fuelCompanyId fuelType quantityLiters requotedAt pricedAt).bind
          fun current => .error (stale current.breakdown)
      else (currentRates companies fuelCompanyId fuelType).bind fun rates =>
        if !sameRates rates v then .error (stale (derive quantityLiters rates pricedAt))
        else .ok (derive quantityLiters rates pricedAt) := by
  rw [redeem, hdecode]
  change (property v "expiresAt").bind _ = _
  rw [property_eq hne]
  change (newDate otherDate (v.get (name "expiresAt"))).bind _ = _
  rw [hdate]
  rfl

theorem redeem_past (hpast : Past date now) :
    redeem otherDate cfg companies fuelCompanyId fuelType quantityLiters token now requotedAt
      pricedAt = .error expired := by
  rw [redeem_read hdecode hne hdate, if_pos (past_iff.mpr hpast)]

theorem redeem_otherInputs (hpast : ¬Past date now)
    (hinputs : ¬sameInputs fuelCompanyId fuelType quantityLiters v) :
    redeem otherDate cfg companies fuelCompanyId fuelType quantityLiters token now requotedAt
        pricedAt =
      (quote cfg companies fuelCompanyId fuelType quantityLiters requotedAt pricedAt).bind
        fun current => .error (stale current.breakdown) := by
  rw [redeem_read hdecode hne hdate, if_neg fun h => hpast (past_iff.mp h),
    if_pos (by simpa using hinputs)]

theorem redeem_sameInputs (hpast : ¬Past date now)
    (hinputs : sameInputs fuelCompanyId fuelType quantityLiters v) :
    redeem otherDate cfg companies fuelCompanyId fuelType quantityLiters token now requotedAt
        pricedAt =
      (currentRates companies fuelCompanyId fuelType).bind fun rates =>
        if !sameRates rates v then .error (stale (derive quantityLiters rates pricedAt))
        else .ok (derive quantityLiters rates pricedAt) := by
  rw [redeem_read hdecode hne hdate, if_neg fun h => hpast (past_iff.mp h),
    if_neg (by simpa using hinputs)]

theorem redeem_live (hpast : ¬Past date now)
    (hinputs : sameInputs fuelCompanyId fuelType quantityLiters v)
    (hcurrent : currentRates companies fuelCompanyId fuelType = .ok rates)
    (hrates : sameRates rates v) :
    redeem otherDate cfg companies fuelCompanyId fuelType quantityLiters token now requotedAt
      pricedAt = .ok (derive quantityLiters rates pricedAt) := by
  rw [redeem_sameInputs hdecode hne hdate hpast hinputs, hcurrent]
  change (if !sameRates rates v then _ else _) = _
  rw [if_neg (by simpa using hrates)]

theorem redeem_otherRates (hpast : ¬Past date now)
    (hinputs : sameInputs fuelCompanyId fuelType quantityLiters v)
    (hcurrent : currentRates companies fuelCompanyId fuelType = .ok rates)
    (hrates : ¬sameRates rates v) :
    redeem otherDate cfg companies fuelCompanyId fuelType quantityLiters token now requotedAt
      pricedAt = .error (stale (derive quantityLiters rates pricedAt)) := by
  rw [redeem_sameInputs hdecode hne hdate hpast hinputs, hcurrent]
  change (if !sameRates rates v then _ else _) = _
  rw [if_pos (by simpa using hrates)]

end read

/-- A token that is redeemed has come through every check. -/
theorem redeem_ok (h : redeem otherDate cfg companies fuelCompanyId fuelType quantityLiters token
      now requotedAt pricedAt = .ok breakdown) :
    ∃ v date rates, decode token = .ok v ∧
      newDate otherDate (v.get (name "expiresAt")) = .ok date ∧ ¬Past date now ∧
      sameInputs fuelCompanyId fuelType quantityLiters v ∧
      currentRates companies fuelCompanyId fuelType = .ok rates ∧ sameRates rates v ∧
      breakdown = derive quantityLiters rates pricedAt := by
  cases hdecode : decode token with
  | error e =>
      rw [redeem_undecoded hdecode] at h
      cases h
  | ok v =>
      by_cases hne : v = .null
      · rw [redeem_null (hne ▸ hdecode)] at h
        cases h
      cases hdate : newDate otherDate (v.get (name "expiresAt")) with
      | error e =>
          rw [redeem_undated hdecode hne hdate] at h
          cases h
      | ok date =>
          by_cases hpast : Past date now
          · rw [redeem_past hdecode hne hdate hpast] at h
            cases h
          by_cases hinputs : sameInputs fuelCompanyId fuelType quantityLiters v
          · rw [redeem_sameInputs hdecode hne hdate hpast hinputs] at h
            cases hcurrent : currentRates companies fuelCompanyId fuelType with
            | error e =>
                rw [hcurrent] at h
                cases h
            | ok rates =>
                by_cases hrates : sameRates rates v
                · refine ⟨v, date, rates, rfl, hdate, hpast, hinputs, rfl, hrates, ?_⟩
                  rw [hcurrent] at h
                  change (if !sameRates rates v then _ else _) = _ at h
                  rw [if_neg (by simpa using hrates)] at h
                  exact (Except.ok.inj h).symm
                · rw [hcurrent] at h
                  change (if !sameRates rates v then _ else _) = _ at h
                  rw [if_pos (by simpa using hrates)] at h
                  cases h
          · rw [redeem_otherInputs hdecode hne hdate hpast hinputs] at h
            cases hquote : quote cfg companies fuelCompanyId fuelType quantityLiters requotedAt
                pricedAt with
            | error e =>
                rw [hquote] at h
                cases h
            | ok current =>
                rw [hquote] at h
                cases h

end redeem

/-! ### The price is derived from the live rates -/

section price
variable {otherDate : JsString → Option ℤ} {cfg cfg' : Settings} {companies companies' : Companies}
variable {fuelCompanyId : JsString} {fuelType : FuelType} {quantityLiters : Double}
variable {now requotedAt pricedAt : Instant} {rates : Rates}

theorem priceWithoutQuote_eq (h : currentRates companies fuelCompanyId fuelType = .ok rates) :
    priceWithoutQuote companies fuelCompanyId fuelType quantityLiters pricedAt =
      .ok (derive quantityLiters rates pricedAt) := by
  rw [priceWithoutQuote, h]
  rfl

theorem not_past {t : ℤ} (h : now < t) : ¬Past (some t) now := by
  rintro ⟨t', ht, hle⟩
  cases ht
  omega

/-- A token that was handed out and has not expired is redeemed at the same rates. -/
theorem redeem_tokenOf {t : ℤ} {text : List Char} (htext : Dates.toISOString t = some text)
    (hnow : now < t) (hcurrent : currentRates companies fuelCompanyId fuelType = .ok rates) :
    redeem otherDate cfg companies fuelCompanyId fuelType quantityLiters
        (tokenOf (payload fuelCompanyId fuelType quantityLiters rates text)) now requotedAt
        pricedAt =
      .ok (derive quantityLiters rates pricedAt) := by
  have hdate : newDate otherDate ((payload fuelCompanyId fuelType quantityLiters rates text).get
      (name "expiresAt")) = .ok (some t) := by
    change newDate otherDate (some (.string (ofText text))) = _
    rw [newDate, toDate_ISOString otherDate htext]
  exact redeem_live (decode_tokenOf (payload_finite _ _ _ _ _)) nofun hdate (not_past hnow)
    (sameInputs_payload _ _ _ _ _) hcurrent (sameRates_payload _ _ _ _ _)

end price

/-- Whatever the token, a price is the one of an order without a quote. A token of a quote that
has not expired, at the rates of the quote, is redeemed at the price of the quote. -/
theorem priced_by_live_rates (otherDate : JsString → Option ℤ) (cfg : Settings)
    (companies : Companies) (fuelCompanyId : JsString) (fuelType : FuelType)
    (quantityLiters : Double) :
    (∀ token now requotedAt pricedAt breakdown,
      redeem otherDate cfg companies fuelCompanyId fuelType quantityLiters token now requotedAt
        pricedAt = .ok breakdown →
      priceWithoutQuote companies fuelCompanyId fuelType quantityLiters pricedAt = .ok breakdown) ∧
    ∀ quotedAt pricedAt quoted,
      quote cfg companies fuelCompanyId fuelType quantityLiters quotedAt pricedAt = .ok quoted →
      ∀ cfg' companies' (now requotedAt pricedAt' : Instant),
        currentRates companies' fuelCompanyId fuelType =
          currentRates companies fuelCompanyId fuelType →
        now < quoted.expiresAt →
        redeem otherDate cfg' companies' fuelCompanyId fuelType quantityLiters quoted.quoteToken
          now requotedAt pricedAt' = .ok { quoted.breakdown with pricedAt := pricedAt' } := by
  constructor
  · intro token now requotedAt pricedAt breakdown h
    obtain ⟨v, date, rates, -, -, -, -, hcurrent, -, rfl⟩ := redeem_ok h
    exact priceWithoutQuote_eq hcurrent
  · intro quotedAt pricedAt quoted hquoted cfg' companies' now requotedAt pricedAt' hsame hnow
    obtain ⟨rates, text, hcurrent, htext, hbreakdown, htoken⟩ := quote_ok hquoted
    rw [htoken, hbreakdown, redeem_tokenOf htext hnow (hsame.trans hcurrent)]
    rfl

/-! A quote for a thousand litres that is redeemed after nine minutes. -/

/-- Two riyals and a quarter. -/
def twoAndAQuarter : Double where
  value := 9 / 4
  representable := ⟨9, -2, by decide, by decide, by decide, by decide +kernel⟩

def fifteen : Double where
  value := 15
  representable := ⟨15, 0, by decide, by decide, by decide, by decide +kernel⟩

def thousand : Double where
  value := 1000
  representable := ⟨1000, 0, by decide, by decide, by decide, by decide +kernel⟩

def oneCompany : Companies := fun _ => some {
  fuelPrices := [(.diesel, twoAndAQuarter)]
  pricingConfig := some { serviceFeePercent := fifteen, taxRatePercent := fifteen } }

theorem priced_by_live_rates_inTime : ∃ token breakdown,
    redeem (fun _ => none) {} oneCompany (name "c") .diesel thousand token 540000 540000 540000 =
      .ok breakdown ∧
    priceWithoutQuote oneCompany (name "c") .diesel thousand 540000 = .ok breakdown := by
  obtain ⟨hwithout, hquoted⟩ :=
    priced_by_live_rates (fun _ => none) {} oneCompany (name "c") .diesel thousand
  have hcurrent : currentRates oneCompany (name "c") .diesel =
      .ok ⟨twoAndAQuarter, fifteen, fifteen⟩ := rfl
  have htext : Dates.toISOString 600000 = some (Dates.ofTime 600000).text := if_pos (by decide)
  have hquote : quote {} oneCompany (name "c") .diesel thousand 0 0 = .ok _ :=
    quote_eq hcurrent rfl htext
  have hredeem := hquoted 0 0 _ hquote {} oneCompany 540000 540000 540000 rfl (by decide)
  exact ⟨_, _, hredeem, hwithout _ _ _ _ _ hredeem⟩

end CiroFuel.Quotes
