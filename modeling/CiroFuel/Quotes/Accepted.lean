import CiroFuel.Quotes.Redeeming

/-!
# Which tokens are accepted

A token should be redeemed exactly when it is live, and otherwise be refused with a
conflict. The code reads the expiry of whatever was decoded: of `null` it cannot, an
object may have no text to make a date of, and a date that is not valid is never past.
A token for other inputs is answered with a new quote, which may expire beyond the last
date.
-/
namespace CiroFuel.Quotes
open Json

def Thrown.IsConflict : Thrown → Prop
  | conflict .. => True
  | _ => False

section accepted
variable (otherDate : JsString → Option ℤ) (cfg : Settings) (companies : Companies)
variable (fuelCompanyId : JsString) (fuelType : FuelType) (quantityLiters : Double)

/-- The payload is of a quote for the inputs at the rates of now, and expires later. -/
structure Live (now : Instant) (v : Value) : Prop where
  object : ∃ members, v = .object members
  expiresAt : ∃ t : ℤ, newDate otherDate (v.get (name "expiresAt")) = .ok (some t) ∧ now < t
  inputs : sameInputs fuelCompanyId fuelType quantityLiters v
  rates : ∃ rates, currentRates companies fuelCompanyId fuelType = .ok rates ∧ sameRates rates v

/-- Live tokens are redeemed, and all others are refused with a conflict. -/
def AcceptedWhenLive (token : JsString) (now requotedAt pricedAt : Instant) : Prop :=
  ((∃ breakdown, redeem otherDate cfg companies fuelCompanyId fuelType quantityLiters token now
      requotedAt pricedAt = .ok breakdown) ↔
    ∃ v, decode token = .ok v ∧
      Live otherDate companies fuelCompanyId fuelType quantityLiters now v) ∧
  ∀ e, redeem otherDate cfg companies fuelCompanyId fuelType quantityLiters token now requotedAt
    pricedAt = .error e → e.IsConflict

/-- The expiry of the payload can be read, it is a date when all else is as in a quote, and
a new quote that is needed expires within the range of dates. -/
structure Readable (now requotedAt : Instant) (v : Value) : Prop where
  notNull : v ≠ .null
  noThrow : ∃ date, newDate otherDate (v.get (name "expiresAt")) = .ok date
  dated : sameInputs fuelCompanyId fuelType quantityLiters v →
    (∃ rates, currentRates companies fuelCompanyId fuelType = .ok rates ∧ sameRates rates v) →
    newDate otherDate (v.get (name "expiresAt")) ≠ .ok none
  requoted : ¬sameInputs fuelCompanyId fuelType quantityLiters v →
    (∃ rates, currentRates companies fuelCompanyId fuelType = .ok rates) →
    (∀ date, newDate otherDate (v.get (name "expiresAt")) = .ok date → ¬Past date now) →
    cfg.Expires requotedAt

end accepted

section proof
variable {otherDate : JsString → Option ℤ} {cfg : Settings} {companies : Companies}
variable {fuelCompanyId : JsString} {fuelType : FuelType} {quantityLiters : Double}
variable {token : JsString} {now requotedAt pricedAt : Instant} {v : Value}

theorem Live.notNull (h : Live otherDate companies fuelCompanyId fuelType quantityLiters now v) :
    v ≠ .null := by
  obtain ⟨members, rfl⟩ := h.object
  nofun

theorem Live.redeem_ok (hdecode : decode token = .ok v)
    (h : Live otherDate companies fuelCompanyId fuelType quantityLiters now v) :
    ∃ breakdown, redeem otherDate cfg companies fuelCompanyId fuelType quantityLiters token now
      requotedAt pricedAt = .ok breakdown := by
  obtain ⟨t, hdate, hnow⟩ := h.expiresAt
  obtain ⟨rates, hcurrent, hrates⟩ := h.rates
  exact ⟨_, redeem_live hdecode h.notNull hdate (not_past hnow) h.inputs hcurrent hrates⟩

/-- Only objects have properties. -/
theorem object_of_get {key : JsString} {x : Value} (h : v.get key = some x) :
    ∃ members, v = .object members := by
  cases v with
  | object members => exact ⟨members, rfl⟩
  | _ => cases h

theorem object_of_sameInputs (h : sameInputs fuelCompanyId fuelType quantityLiters v) :
    ∃ members, v = .object members := by
  rw [sameInputs, Bool.and_eq_true, Bool.and_eq_true] at h
  cases hget : v.get (name "fuelCompanyId") with
  | none =>
      rw [hget] at h
      exact absurd h.1.1 Bool.false_ne_true
  | some x => exact object_of_get hget

/-- A token that is redeemed is live, when its date is one. -/
theorem live_of_redeem_ok {breakdown : PriceBreakdown}
    (hread : ∀ v, decode token = .ok v →
      Readable otherDate cfg companies fuelCompanyId fuelType quantityLiters now requotedAt v)
    (h : redeem otherDate cfg companies fuelCompanyId fuelType quantityLiters token now requotedAt
      pricedAt = .ok breakdown) :
    ∃ v, decode token = .ok v ∧
      Live otherDate companies fuelCompanyId fuelType quantityLiters now v := by
  obtain ⟨v, date, rates, hdecode, hdate, hpast, hinputs, hcurrent, hrates, -⟩ := redeem_ok h
  have hlive := (hread v hdecode).dated hinputs ⟨rates, hcurrent, hrates⟩
  refine ⟨v, hdecode, object_of_sameInputs hinputs, ?_, hinputs, rates, hcurrent, hrates⟩
  cases date with
  | none => exact absurd hdate hlive
  | some t => exact ⟨t, hdate, Int.not_le.mp fun hle => hpast ⟨t, rfl, hle⟩⟩

theorem decode_error {e : Thrown} (h : decode token = .error e) : e = notValid := by
  rw [decode] at h
  split at h
  · cases h
  · exact (Except.error.inj h).symm

/-- A payload that can be read is refused with a conflict, if it is refused. -/
theorem Readable.conflict {e : Thrown} (hdecode : decode token = .ok v)
    (hread : Readable otherDate cfg companies fuelCompanyId fuelType quantityLiters now
      requotedAt v)
    (h : redeem otherDate cfg companies fuelCompanyId fuelType quantityLiters token now requotedAt
      pricedAt = .error e) : e.IsConflict := by
  obtain ⟨date, hdate⟩ := hread.noThrow
  by_cases hpast : Past date now
  · rw [redeem_past hdecode hread.notNull hdate hpast] at h
    cases h
    trivial
  by_cases hinputs : sameInputs fuelCompanyId fuelType quantityLiters v
  · cases hcurrent : currentRates companies fuelCompanyId fuelType with
    | error e' =>
        rw [redeem_sameInputs hdecode hread.notNull hdate hpast hinputs, hcurrent] at h
        cases h
        rw [currentRates_error hcurrent]
        trivial
    | ok rates =>
        by_cases hrates : sameRates rates v
        · rw [redeem_live hdecode hread.notNull hdate hpast hinputs hcurrent hrates] at h
          cases h
        · rw [redeem_otherRates hdecode hread.notNull hdate hpast hinputs hcurrent hrates] at h
          cases h
          trivial
  · rw [redeem_otherInputs hdecode hread.notNull hdate hpast hinputs] at h
    cases hcurrent : currentRates companies fuelCompanyId fuelType with
    | error e' =>
        rw [quote_unpriced hcurrent] at h
        cases h
        rw [currentRates_error hcurrent]
        trivial
    | ok rates =>
        have hexpires := hread.requoted hinputs ⟨rates, hcurrent⟩ fun date' hdate' => by
          rw [hdate] at hdate'
          cases hdate'
          exact hpast
        obtain ⟨t, text, ht, htext⟩ := expires_iff.mp hexpires
        rw [quote_eq hcurrent ht htext] at h
        cases h
        trivial

theorem not_past_none : ¬Past none now := by
  rintro ⟨t, ht, -⟩
  cases ht

/-- A payload that cannot be read is refused with an error of the language or redeemed. -/
theorem readable_of_accepted (hdecode : decode token = .ok v)
    (h : AcceptedWhenLive otherDate cfg companies fuelCompanyId fuelType quantityLiters token now
      requotedAt pricedAt) :
    Readable otherDate cfg companies fuelCompanyId fuelType quantityLiters now requotedAt v := by
  obtain ⟨hlive, hconflict⟩ := h
  have hne : v ≠ .null := by
    rintro rfl
    exact hconflict _ (redeem_null hdecode)
  have hdated : ∃ date, newDate otherDate (v.get (name "expiresAt")) = .ok date := by
    cases hdate : newDate otherDate (v.get (name "expiresAt")) with
    | ok date => exact ⟨date, rfl⟩
    | error e =>
        have hthrown : e = .typeError := by
          rw [newDate] at hdate
          split at hdate <;> cases hdate
          rfl
        have := hconflict _ (redeem_undated hdecode hne hdate)
        rw [hthrown] at this
        exact this.elim
  refine ⟨hne, hdated, fun hinputs hrates hdate => ?_, fun hinputs hcurrent hpast => ?_⟩
  · obtain ⟨rates, hcurrent, hrates⟩ := hrates
    have hredeem : redeem otherDate cfg companies fuelCompanyId fuelType quantityLiters token now
        requotedAt pricedAt = .ok _ :=
      redeem_live hdecode hne hdate not_past_none hinputs hcurrent hrates
    obtain ⟨v', hdecode', hlive'⟩ := hlive.mp ⟨_, hredeem⟩
    rw [hdecode] at hdecode'
    cases hdecode'
    obtain ⟨t, ht, -⟩ := hlive'.expiresAt
    rw [hdate] at ht
    cases ht
  · obtain ⟨rates, hcurrent⟩ := hcurrent
    obtain ⟨date, hdate⟩ := hdated
    by_contra hexpires
    refine hconflict .rangeError ?_
    rw [redeem_otherInputs hdecode hne hdate (hpast date hdate) hinputs,
      quote_unending hcurrent hexpires]
    rfl

end proof

/-- Live tokens are redeemed and all others are refused with a conflict exactly if what the token
decodes to can be read. -/
theorem accepted_when_live_iff (otherDate : JsString → Option ℤ) (cfg : Settings)
    (companies : Companies) (fuelCompanyId : JsString) (fuelType : FuelType)
    (quantityLiters : Double) (token : JsString) (now requotedAt pricedAt : Instant) :
    AcceptedWhenLive otherDate cfg companies fuelCompanyId fuelType quantityLiters token now
        requotedAt pricedAt ↔
      ∀ v, decode token = .ok v →
        Readable otherDate cfg companies fuelCompanyId fuelType quantityLiters now requotedAt
          v := by
  constructor
  · exact fun h v hdecode => readable_of_accepted hdecode h
  · intro h
    refine ⟨⟨fun ⟨breakdown, hredeem⟩ => live_of_redeem_ok h hredeem, ?_⟩, fun e he => ?_⟩
    · rintro ⟨v, hdecode, hlive⟩
      exact hlive.redeem_ok hdecode
    · cases hdecode : decode token with
      | ok v => exact (h v hdecode).conflict hdecode he
      | error e' =>
          rw [redeem_undecoded hdecode] at he
          cases he
          rw [decode_error hdecode]
          trivial

/-! ### Tokens that cannot be read -/

/-- `null` in base 64. -/
def nullToken : JsString := name "bnVsbA"

theorem decode_nullToken : decode nullToken = .ok .null := by
  have hbytes : Encoding.Utf8.decode (Encoding.Base64.decode nullToken) = "null".toList := by
    decide +kernel
  rw [decode, hbytes]
  rfl

/-- The payload of a quote at the live rates, without its expiry. -/
def undated : Value :=
  .object [
    (name "fuelCompanyId", .string (name "c")),
    (name "fuelType", .string (ofText (fuelTypeText .diesel))),
    (name "quantityLiters", .number (.finite thousand)),
    (name "unitPrice", .number (.finite twoAndAQuarter)),
    (name "serviceFeePercent", .number (.finite fifteen)),
    (name "taxRatePercent", .number (.finite fifteen))]

theorem undated_finite : undated.Finite := by
  apply Value.Finite.object
  simp only [List.forall_mem_cons]
  exact ⟨.string _, .string _, .number _, .number _, .number _, .number _, by simp⟩

/-- A token of `null` ends in an error of the language, and one without an expiry is redeemed
at any time. -/
theorem accepted_undated :
    ¬AcceptedWhenLive (fun _ => none) {} oneCompany (name "c") .diesel thousand nullToken 0 0 0 ∧
    ∀ now, ¬AcceptedWhenLive (fun _ => none) {} oneCompany (name "c") .diesel thousand
      (tokenOf undated) now now now := by
  constructor
  · rintro ⟨-, hconflict⟩
    exact hconflict _ (redeem_null decode_nullToken)
  · rintro now ⟨hlive, -⟩
    have hdecode := decode_tokenOf undated_finite
    have hcurrent : currentRates oneCompany (name "c") .diesel =
        .ok ⟨twoAndAQuarter, fifteen, fifteen⟩ := rfl
    have hredeem : redeem (fun _ => none) {} oneCompany (name "c") .diesel thousand
        (tokenOf undated) now now now = .ok _ :=
      redeem_live hdecode nofun rfl not_past_none (by decide +kernel) hcurrent (by decide +kernel)
    obtain ⟨v, hdecode', hlive⟩ := hlive.mp ⟨_, hredeem⟩
    rw [hdecode] at hdecode'
    cases hdecode'
    obtain ⟨t, hdate, -⟩ := hlive.expiresAt
    cases hdate

end CiroFuel.Quotes
