import CiroFuel.Pagination
import CiroFuel.Pricing
import CiroFuel.TenantScope

/-!
# The fuel exchange: offers and proposals

A fuel company offers the market a quantity of fuel it needs; other fuel
companies answer with a price or decline. An offer is for its parties and, if
open to the market, for every fuel company; a proposal is for its author and for
the company that raised the offer. Two plugins merge that into every filter.
-/
namespace CiroFuel.Exchange
open Query

inductive ExchangeOfferState where
  | open_ | awarded | withdrawn | closedNoAward
deriving DecidableEq, Repr

inductive ProposalOutcome where
  | proposed | declined | awarded | notSelected
deriving DecidableEq, Repr

/-- A price from a request body. `null` passes the validators and is zero in a product. -/
abbrev Price := Option ℚ

def Price.amount (p : Price) : ℚ := p.getD 0

structure ExchangeOffer where
  partyCompanyIds : List Id
  openToMarket : Bool
  raisedByCompanyId : Id
  raisedByUserId : Id
  fuelType : FuelType
  quantityLitres : ℚ
  deliveryAt : Instant
  city : ℕ
  district : Option String := none
  locationUrl : Option String := none
  notes : Option String := none
  state : ExchangeOfferState := .open_
  awardedProposalId : Option Id := none
  awardedCompanyId : Option Id := none
  agreedUnitPrice : Option Price := none
  agreedTotal : Option ℚ := none
  agreedQuantityLitres : Option ℚ := none
  currency : Option Currency := none
  resolvedBy : Option Id := none
  resolvedAt : Option Instant := none
  createdAt : Instant
  updatedAt : Instant
deriving DecidableEq

structure ExchangeOfferDocument extends ExchangeOffer where
  id : Id
deriving DecidableEq

/-- The offer is for the company to read. -/
def ExchangeOffer.isFor (o : ExchangeOffer) (c : Id) : Bool :=
  o.partyCompanyIds.contains c || o.openToMarket

def ExchangeOffer.withId (o : ExchangeOffer) (id : Id) : ExchangeOfferDocument :=
  { o with id := id }

structure ExchangeProposal where
  offerId : Id
  offerRaisedByCompanyId : Id
  proposingCompanyId : Id
  proposingUserId : Id
  outcome : ProposalOutcome := .proposed
  unitPrice : Option Price := none
  currency : Option Currency := none
  respondedAt : Instant
  resolvedAt : Option Instant := none
deriving DecidableEq

structure ExchangeProposalDocument extends ExchangeProposal where
  id : Id
deriving DecidableEq

/-- The proposal is for the company to read. -/
def ExchangeProposal.isFor (p : ExchangeProposal) (c : Id) : Bool :=
  decide (p.proposingCompanyId = c) || decide (p.offerRaisedByCompanyId = c)

def ExchangeProposal.withId (p : ExchangeProposal) (id : Id) : ExchangeProposalDocument :=
  { p with id := id }

/-- A company with what it tells the companies it deals with. -/
structure CompanyRecord extends Company where
  name : String
  contactEmail : String
  contactPhone : String
deriving DecidableEq

/-! ### The plugins -/

def roleName : UserRole → String
  | .superAdmin => "SUPER_ADMIN"
  | .fuelCompanyAdmin => "FUEL_COMPANY_ADMIN"
  | .transportCompanyAdmin => "TRANSPORT_COMPANY_ADMIN"
  | .client => "CLIENT"
  | .driver => "DRIVER"

/-- The company whose documents are scoped to; none bypasses the scope. -/
def resolveActingCompanyId (mechanism : String) (ctx : RequestScope) :
    Except String (Option IdString) :=
  match ctx.role with
  | none => .ok none
  | some .superAdmin => .ok none
  | some .fuelCompanyAdmin =>
      match ctx.companyId.filter IdString.truthy with
      | none =>
          .error (mechanism ++
            " isolation violation: FUEL_COMPANY_ADMIN context is missing companyId")
      | some id => .ok (some id)
  | some role =>
      .error (mechanism ++ " isolation violation: no scoping rule defined for role " ++
        roleName role)

/-- What a plugin merges into a filter; the given scope is that of a company. -/
def companyScope {δ : Type} (mechanism : String) (scope : Id → Conditions String δ)
    (ctx : RequestScope) : Except String (Conditions String δ) := do
  let some actingCompanyId ← resolveActingCompanyId mechanism ctx | return .empty
  let id ← actingCompanyId.objectId
  return scope id

/-- Offers that name the company a party, and those open to the market. -/
def partySetScope (ctx : RequestScope) : Except String (Conditions String ExchangeOfferDocument) :=
  companyScope "Party-set" (fun id => .disj
    [.only (.field "partyCompanyIds") fun o => o.partyCompanyIds.contains id,
      .only (.field "openToMarket") fun o => o.openToMarket]) ctx

/-- Proposals the company has made, and those on offers it has raised. -/
def proposalScope (ctx : RequestScope) :
    Except String (Conditions String ExchangeProposalDocument) :=
  companyScope "Proposal" (fun id => .disj
    [.only (.field "proposingCompanyId") fun p => decide (p.proposingCompanyId = id),
      .only (.field "offerRaisedByCompanyId") fun p => decide (p.offerRaisedByCompanyId = id)]) ctx

/-- The request of an administrator of the fuel company. -/
structure ActsFor (ctx : RequestScope) (c : Id) : Prop where
  role : ctx.role = some .fuelCompanyAdmin
  company : ctx.companyId = some (.id c)

section scopes
variable {ctx : RequestScope} {c : Id}

theorem ActsFor.companyScope {δ : Type} (h : ActsFor ctx c) (mechanism : String)
    (scope : Id → Conditions String δ) :
    Exchange.companyScope mechanism scope ctx = .ok (scope c) := by
  obtain ⟨userId, role, companyId, parentFuelCompanyId⟩ := ctx
  obtain ⟨hrole, hcompany⟩ := h
  cases hrole
  cases hcompany
  rfl

/-- The party-set scope is one disjunction. -/
theorem ActsFor.partySetScope (h : ActsFor ctx c) :
    ∃ scope, Exchange.partySetScope ctx = .ok scope ∧ (∀ o, scope.holds o = o.isFor c) ∧
      ∀ n, n ≠ .or → scope.get n = none := by
  refine ⟨_, h.companyScope _ _, fun o => ?_, fun n hn => ?_⟩
  · simp [ExchangeOffer.isFor]
  · rw [Conditions.disj, Conditions.get_only, if_neg hn]

theorem ActsFor.proposalScope (h : ActsFor ctx c) :
    ∃ scope, Exchange.proposalScope ctx = .ok scope ∧
      (∀ p, scope.holds p = p.isFor c) ∧ ∀ n, n ≠ .or → scope.get n = none := by
  refine ⟨_, h.companyScope _ _, fun p => ?_, fun n hn => ?_⟩
  · simp [ExchangeProposal.isFor]
  · rw [Conditions.disj, Conditions.get_only, if_neg hn]

end scopes

/-- A disjunction merged into a filter that has none of its own replaces nothing. -/
theorem merge_of_only_or {δ : Type} {filter scope : Conditions String δ}
    (hfilter : filter.get .or = none) (hscope : ∀ n, n ≠ .or → scope.get n = none) (d : δ) :
    (filter.merge scope).holds d = (filter.holds d && scope.holds d) := by
  refine Conditions.holds_merge_disjoint (fun n hn => ?_) d
  by_cases hor : n = .or
  · rw [hor, hfilter]
  · rw [hscope n hor] at hn
    cases hn

end CiroFuel.Exchange
