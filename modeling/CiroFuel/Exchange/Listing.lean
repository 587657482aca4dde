import CiroFuel.ClientLists
import CiroFuel.Exchange.Offers

/-!
# Reading the exchange

The list, the detail and the summary of offers as a fuel company gets them. Which
offers come in is a matter of relevance (who raised them, which grades the reader
sells) and asked for by the service; which offers may be read at all is added to
every query by the plugin.
-/
namespace CiroFuel.Exchange
open Query

structure Database where
  offers : List ExchangeOfferDocument
  proposals : List ExchangeProposalDocument
  companies : List (Id × CompanyRecord)

/-! ### Companies -/

def findCompany (companies : List (Id × CompanyRecord)) (id : Id) : Except String CompanyRecord :=
  match companies.lookup id with
  | some company => .ok company
  | none => .error "Company not found"

def findSuspendedFuelCompanyIds (companies : List (Id × CompanyRecord)) : List Id :=
  (companies.filter fun e => decide (e.2.type = .fuel ∧ e.2.status = .suspended)).map (·.1)

def CompanyRecord.soldGrades (company : CompanyRecord) : List FuelType := company.fuelPrices.map (·.1)

/-! ### Queries under the plugins -/

def findOfferById (ctx : RequestScope) (offers : List ExchangeOfferDocument) (id : Id) :
    Except String (Option ExchangeOfferDocument) := do
  let scope ← partySetScope ctx
  let filter := Conditions.only (.field "_id") fun o : ExchangeOfferDocument => decide (o.id = id)
  return offers.find? (filter.merge scope).holds

def countOffers (ctx : RequestScope) (offers : List ExchangeOfferDocument)
    (filter : Conditions String ExchangeOfferDocument) : Except String ℕ := do
  let scope ← partySetScope ctx
  return offers.countP (filter.merge scope).holds

def findProposals (ctx : RequestScope) (proposals : List ExchangeProposalDocument)
    (filter : Conditions String ExchangeProposalDocument) :
    Except String (List ExchangeProposalDocument) := do
  let scope ← proposalScope ctx
  return proposals.filter (filter.merge scope).holds

def countProposals (ctx : RequestScope) (proposals : List ExchangeProposalDocument)
    (filter : Conditions String ExchangeProposalDocument) : Except String ℕ := do
  let scope ← proposalScope ctx
  return proposals.countP (filter.merge scope).holds

/-! ### The list -/

inductive ExchangeDirection where
  | incoming | outgoing | all
deriving DecidableEq, Repr

def ExchangeOfferDocument.position (o : ExchangeOfferDocument) : Position Numbers := fun f =>
  if f = "createdAt" then o.createdAt else if f = "_id" then o.id else 0

def EXCHANGE_SORT_KEYS : List (SortField String) := [⟨"createdAt", .desc⟩, ⟨"_id", .desc⟩]

/-- The elements of an `$and` or an `$or`. -/
def allOf {δ : Type} (ps : List (Conditions String δ)) : δ → Bool := fun d => ps.all fun p => p.holds d

def raisedBy (c : Id) : Conditions String ExchangeOfferDocument :=
  .only (.field "raisedByCompanyId") fun o => decide (o.raisedByCompanyId = c)

/-- Offers of companies that may trade, in a grade the acting company sells unless
the offer was made to it. -/
def buildIncomingFilter (companies : List (Id × CompanyRecord)) (acting : Id) :
    Except String (Conditions String ExchangeOfferDocument) := do
  let suspendedIds := findSuspendedFuelCompanyIds companies
  let company ← findCompany companies acting
  return .object
    [(.field "raisedByCompanyId", fun o => !(suspendedIds ++ [acting]).contains o.raisedByCompanyId),
      (.and, allOf [.disj
        [.only (.field "openToMarket") fun o => !o.openToMarket,
          .object [(.field "openToMarket", fun o => o.openToMarket),
            (.field "fuelType", fun o => company.soldGrades.contains o.fuelType)]]])]

def directionFilter (companies : List (Id × CompanyRecord)) (acting : Id) :
    ExchangeDirection → Except String (Conditions String ExchangeOfferDocument)
  | .outgoing => .ok (raisedBy acting)
  | .incoming => buildIncomingFilter companies acting
  | .all => do
      let incomingFilter ← buildIncomingFilter companies acting
      return .conj [.disj [raisedBy acting, incomingFilter]]

/-- What comes in is what still awaits an answer, unless a state is asked for. -/
def effectiveState (direction : ExchangeDirection) (state : Option ExchangeOfferState) :
    Option ExchangeOfferState :=
  if direction = .incoming then some (state.getD .open_) else state

def inState (s : ExchangeOfferState) : Conditions String ExchangeOfferDocument :=
  .only (.field "state") fun o => decide (o.state = s)

def listFilter (companies : List (Id × CompanyRecord)) (acting : Id)
    (direction : ExchangeDirection) (state : Option ExchangeOfferState) :
    Except String (Conditions String ExchangeOfferDocument) := do
  let filter ← directionFilter companies acting direction
  match effectiveState direction state with
  | some s => return .conj [filter, inState s]
  | none => return filter

structure AgreedFigures where
  awardedCompanyId : Option Id
  agreedUnitPrice : Option Price
  agreedTotal : Option ℚ
  agreedQuantityLitres : Option ℚ
  currency : Option Currency
deriving DecidableEq

structure OfferSummary where
  id : Id
  openToMarket : Bool
  raisedByCompanyId : Id
  fuelType : FuelType
  quantityLitres : ℚ
  deliveryAt : Instant
  city : ℕ
  district : Option String
  locationUrl : Option String
  notes : Option String
  state : ExchangeOfferState
  createdAt : Instant
  updatedAt : Instant
  agreed : Option AgreedFigures
deriving DecidableEq

def toOfferSummary (offer : ExchangeOfferDocument) (includeAgreed : Bool) : OfferSummary where
  id := offer.id
  openToMarket := offer.openToMarket
  raisedByCompanyId := offer.raisedByCompanyId
  fuelType := offer.fuelType
  quantityLitres := offer.quantityLitres
  deliveryAt := offer.deliveryAt
  city := offer.city
  district := offer.district
  locationUrl := offer.locationUrl
  notes := offer.notes
  state := offer.state
  createdAt := offer.createdAt
  updatedAt := offer.updatedAt
  agreed :=
    if includeAgreed then some {
      awardedCompanyId := offer.awardedCompanyId
      agreedUnitPrice := offer.agreedUnitPrice
      agreedTotal := offer.agreedTotal
      agreedQuantityLitres := offer.agreedQuantityLitres
      currency := offer.currency }
    else none

structure OfferListItem where
  summary : OfferSummary
  raisedByCompanyName : Option String
  proposalCount : Option ℕ := none
  declineCount : Option ℕ := none
deriving DecidableEq

def ofOffer (offerId : Id) : Name String × (ExchangeProposalDocument → Bool) :=
  (.field "offerId", fun p => decide (p.offerId = offerId))

def shapeListItem (ctx : RequestScope) (proposals : List ExchangeProposalDocument)
    (names : List (Id × String)) (acting : Id) (offer : ExchangeOfferDocument) :
    Except String OfferListItem := do
  let isRaiser := decide (offer.raisedByCompanyId = acting)
  let includeAgreed := isRaiser ||
    (decide (offer.state = .awarded) && decide (offer.awardedCompanyId = some acting))
  let item : OfferListItem := {
    summary := toOfferSummary offer includeAgreed
    raisedByCompanyName := names.lookup offer.raisedByCompanyId }
  if isRaiser then
    let proposalCount ← countProposals ctx proposals
      (.object [ofOffer offer.id, (.field "outcome", fun p => decide (p.outcome ≠ .declined))])
    let declineCount ← countProposals ctx proposals
      (.object [ofOffer offer.id, (.field "outcome", fun p => decide (p.outcome = .declined))])
    return { item with proposalCount := some proposalCount, declineCount := some declineCount }
  else return item

def companyName (companies : List (Id × CompanyRecord)) (id : Id) : Except String (Id × String) := do
  let company ← findCompany companies id
  return (id, company.name)

def shapeListItems (ctx : RequestScope) (proposals : List ExchangeProposalDocument)
    (companies : List (Id × CompanyRecord)) (offers : List ExchangeOfferDocument) (acting : Id) :
    Except String (List OfferListItem) := do
  let names ← (offers.map fun o => o.raisedByCompanyId).dedup.mapM (companyName companies)
  offers.mapM (shapeListItem ctx proposals names acting)

structure OfferPage where
  items : List OfferListItem
  nextCursor : Option (Position Numbers)

/-- `GET fuel-exchange/offers` -/
def findAll (ctx : RequestScope) (db : Database) (acting : Id) (direction : ExchangeDirection)
    (state : Option ExchangeOfferState) (cursor : Option (Position Numbers)) :
    Except String OfferPage := do
  let filter ← listFilter db.companies acting direction state
  let scope ← partySetScope ctx
  let page := paginate ExchangeOfferDocument.position scope db.offers filter EXCHANGE_SORT_KEYS
    cursor DEFAULT_PAGE_SIZE
  let items ← shapeListItems ctx db.proposals db.companies page.items acting
  return { items := items, nextCursor := page.nextCursor }

/-! ### The detail -/

structure CompanyContact where
  name : String
  contactEmail : String
  contactPhone : String
deriving DecidableEq

def CompanyRecord.contact (company : CompanyRecord) : CompanyContact where
  name := company.name
  contactEmail := company.contactEmail
  contactPhone := company.contactPhone

structure PricedTerms where
  unitPrice : Price
  currency : Option Currency
  total : ℚ
deriving DecidableEq

structure ProposalShape where
  id : Id
  outcome : ProposalOutcome
  respondedAt : Instant
  proposingCompanyId : Option Id
  priced : Option PricedTerms
  company : Option CompanyContact
deriving DecidableEq

def toProposalShape (proposal : ExchangeProposalDocument) (offerQuantityLitres : ℚ)
    (revealIdentity : Bool := true) (company : Option CompanyContact := none) : ProposalShape where
  id := proposal.id
  outcome := proposal.outcome
  respondedAt := proposal.respondedAt
  proposingCompanyId := if revealIdentity then some proposal.proposingCompanyId else none
  priced := proposal.unitPrice.map fun unitPrice => {
    unitPrice := unitPrice
    currency := proposal.currency
    total := roundCurrency (unitPrice.amount * offerQuantityLitres) }
  company := company

structure OfferDetail where
  summary : OfferSummary
  raisedByCompanyName : String
  proposals : Option (List ProposalShape) := none
  proposalCount : Option ℕ := none
  declineCount : Option ℕ := none
  myProposal : Option ProposalShape := none
  raiserContact : Option CompanyContact := none
deriving DecidableEq

/-- A proposal as the raiser is shown it: of a decline, no more than that there is one. -/
def shapeForRaiser (companies : List (Id × CompanyRecord)) (offer : ExchangeOfferDocument)
    (p : ExchangeProposalDocument) : Except String ProposalShape :=
  if p.outcome = .declined then return toProposalShape p offer.quantityLitres false
  else do
    let company ← findCompany companies p.proposingCompanyId
    return toProposalShape p offer.quantityLitres true (some company.contact)

def buildDetail (ctx : RequestScope) (proposals : List ExchangeProposalDocument)
    (companies : List (Id × CompanyRecord)) (offer : ExchangeOfferDocument) (acting : Option Id)
    (role : UserRole) : Except String OfferDetail := do
  let isSuperAdmin := decide (role = .superAdmin)
  let isRaiser := !isSuperAdmin && decide (acting = some offer.raisedByCompanyId)
  let isAwardedCompany := !isSuperAdmin && !isRaiser && decide (offer.state = .awarded) &&
    (acting.isSome && decide (acting = offer.awardedCompanyId))
  let raiserCompany ← findCompany companies offer.raisedByCompanyId
  let result : OfferDetail := {
    summary := toOfferSummary offer (isRaiser || isSuperAdmin || isAwardedCompany)
    raisedByCompanyName := raiserCompany.name }
  if isRaiser || isSuperAdmin then
    let found ← findProposals ctx proposals (.object [ofOffer offer.id])
    let shapes ← found.mapM (shapeForRaiser companies offer)
    return { result with
      proposals := some shapes
      proposalCount := some (found.countP fun p => decide (p.outcome ≠ .declined))
      declineCount := some (found.countP fun p => decide (p.outcome = .declined)) }
  else
    let own ← match acting with
      | some c => do
          let found ← findProposals ctx proposals (.object [ofOffer offer.id,
            (.field "proposingCompanyId", fun p => decide (p.proposingCompanyId = c))])
          pure found.head?
      | none => pure none
    return { result with
      myProposal := own.map fun p => toProposalShape p offer.quantityLitres
      raiserContact := if isAwardedCompany then some raiserCompany.contact else none }

/-- `GET fuel-exchange/offers/:id` -/
def findOne (ctx : RequestScope) (db : Database) (id : Id) (acting : Option Id) (role : UserRole) :
    Except String OfferDetail := do
  let some offer ← findOfferById ctx db.offers id | throw "Exchange offer not found"
  buildDetail ctx db.proposals db.companies offer acting role

/-! ### The summary -/

structure Month where
  start : Instant
  finish : Instant

def Month.includes (m : Month) (t : Instant) : Bool := decide (m.start ≤ t ∧ t < m.finish)

structure ExchangeSummary where
  incomingAwaitingAnswer : ℕ
  outgoingOpen : ℕ
  awardedThisMonth : ℕ
deriving DecidableEq

def awaitingAnswerFilter (incomingFilter : Conditions String ExchangeOfferDocument)
    (answeredOfferIds : List Id) : Conditions String ExchangeOfferDocument :=
  incomingFilter.assign
    [(.field "state", fun o => decide (o.state = .open_)),
      (.field "_id", fun o => !answeredOfferIds.contains o.id)]

def outgoingOpenFilter (acting : Id) : Conditions String ExchangeOfferDocument :=
  .object
    [(.field "raisedByCompanyId", fun o => decide (o.raisedByCompanyId = acting)),
      (.field "state", fun o => decide (o.state = .open_))]

def awardedThisMonthFilter (acting : Id) (month : Month) : Conditions String ExchangeOfferDocument :=
  .object
    [(.and, allOf [.disj [raisedBy acting,
        .only (.field "awardedCompanyId") fun o => decide (o.awardedCompanyId = some acting)]]),
      (.field "state", fun o => decide (o.state = .awarded)),
      (.field "resolvedAt", fun o => o.resolvedAt.any month.includes)]

/-- `find(..).distinct('offerId')`; the plugin's hooks do not run for `distinct`. -/
def answeredOfferIds (proposals : List ExchangeProposalDocument) (acting : Id) : List Id :=
  ((proposals.filter fun p => decide (p.proposingCompanyId = acting)).map fun p => p.offerId).dedup

/-- `GET fuel-exchange/offers/summary` -/
def summary (ctx : RequestScope) (db : Database) (acting : Id) (month : Month) :
    Except String ExchangeSummary := do
  let incomingFilter ← buildIncomingFilter db.companies acting
  let answered := answeredOfferIds db.proposals acting
  let incomingAwaitingAnswer ← countOffers ctx db.offers (awaitingAnswerFilter incomingFilter answered)
  let outgoingOpen ← countOffers ctx db.offers (outgoingOpenFilter acting)
  let awardedThisMonth ← countOffers ctx db.offers (awardedThisMonthFilter acting month)
  return {
    incomingAwaitingAnswer := incomingAwaitingAnswer
    outgoingOpen := outgoingOpen
    awardedThisMonth := awardedThisMonth }

/-! ### What is asked for -/

/-- The grades a company sells, none if there is no such company. -/
def gradesOf (companies : List (Id × CompanyRecord)) (acting : Id) : List FuelType :=
  ((companies.lookup acting).map CompanyRecord.soldGrades).getD []

/-- The offer is for the company to answer, as far as grade and raiser go. -/
def comesIn (companies : List (Id × CompanyRecord)) (acting : Id) (o : ExchangeOfferDocument) : Bool :=
  !(findSuspendedFuelCompanyIds companies).contains o.raisedByCompanyId &&
    decide (o.raisedByCompanyId ≠ acting) &&
    (!o.openToMarket || (gradesOf companies acting).contains o.fuelType)

def goesOut (acting : Id) (o : ExchangeOfferDocument) : Bool := decide (o.raisedByCompanyId = acting)

def directed (companies : List (Id × CompanyRecord)) (acting : Id) (o : ExchangeOfferDocument) :
    ExchangeDirection → Bool
  | .incoming => comesIn companies acting o
  | .outgoing => goesOut acting o
  | .all => goesOut acting o || comesIn companies acting o

/-- What a list is meant to hold. -/
def asked (companies : List (Id × CompanyRecord)) (acting : Id) (direction : ExchangeDirection)
    (state : Option ExchangeOfferState) (o : ExchangeOfferDocument) : Bool :=
  directed companies acting o direction &&
    (effectiveState direction state).all fun s => decide (o.state = s)

section filters
variable {companies : List (Id × CompanyRecord)} {acting : Id} {o : ExchangeOfferDocument}

theorem buildIncomingFilter_ok {filter : Conditions String ExchangeOfferDocument}
    (h : buildIncomingFilter companies acting = .ok filter) :
    (∀ o, filter.holds o = comesIn companies acting o) ∧
      ∀ n, n ≠ .field "raisedByCompanyId" → n ≠ .and → filter.get n = none := by
  unfold buildIncomingFilter findCompany at h
  cases hcompany : companies.lookup acting with
  | none =>
      rw [hcompany] at h
      cases h
  | some company =>
      rw [hcompany] at h
      cases h
      constructor
      · intro o
        have hgrade : (Conditions.object [(Name.field "openToMarket", fun o => o.openToMarket),
            (Name.field "fuelType", fun o => company.soldGrades.contains o.fuelType)]
              : Conditions String ExchangeOfferDocument).holds o =
            (o.openToMarket && company.soldGrades.contains o.fuelType) := by
          rw [Conditions.holds_object (by simp)]
          simp
        rw [Conditions.holds_object (by simp)]
        simp only [List.all_cons, List.all_nil, allOf, Conditions.holds_disj, List.any_cons,
          List.any_nil, Conditions.holds_only, hgrade, comesIn, gradesOf, hcompany]
        cases o.openToMarket <;> simp
      · intro n hraised hand
        apply Conditions.get_object
        simp [hraised, hand]

theorem directionFilter_ok {direction : ExchangeDirection}
    {filter : Conditions String ExchangeOfferDocument}
    (h : directionFilter companies acting direction = .ok filter) :
    (∀ o, filter.holds o = directed companies acting o direction) ∧ filter.get .or = none := by
  cases direction with
  | incoming =>
      obtain ⟨hholds, hnames⟩ := buildIncomingFilter_ok h
      exact ⟨hholds, hnames _ (by simp) (by simp)⟩
  | outgoing =>
      cases h
      exact ⟨fun o => Conditions.holds_only _ _ o, rfl⟩
  | all =>
      simp only [directionFilter] at h
      obtain ⟨incoming, hincoming, h⟩ := except_bind_ok h
      cases h
      refine ⟨?_, Conditions.get_conj_ne (by simp)⟩
      intro o
      simp [(buildIncomingFilter_ok hincoming).1, raisedBy, goesOut, directed]

/-- What is listed under a direction and a state is what is asked for. -/
theorem listFilter_ok {direction : ExchangeDirection} {state : Option ExchangeOfferState}
    {filter : Conditions String ExchangeOfferDocument}
    (h : listFilter companies acting direction state = .ok filter) :
    (∀ o, filter.holds o = asked companies acting direction state o) ∧ filter.get .or = none := by
  unfold listFilter at h
  obtain ⟨p, hp, h⟩ := except_bind_ok h
  obtain ⟨hholds, hor⟩ := directionFilter_ok hp
  cases hstate : effectiveState direction state with
  | none =>
      simp only [hstate] at h
      cases h
      exact ⟨fun o => by simp [hholds, asked, hstate], hor⟩
  | some s =>
      simp only [hstate] at h
      cases h
      refine ⟨?_, Conditions.get_conj_ne (by simp)⟩
      intro o
      simp [hholds, asked, hstate, inState]

/-- The filters are there for every company on record. -/
theorem listFilter_exists (hcompany : (companies.lookup acting).isSome) (direction : ExchangeDirection)
    (state : Option ExchangeOfferState) :
    (∃ incoming, buildIncomingFilter companies acting = .ok incoming) ∧
      ∃ filter, listFilter companies acting direction state = .ok filter := by
  obtain ⟨company, hcompany⟩ := Option.isSome_iff_exists.mp hcompany
  have hincoming : ∃ incoming, buildIncomingFilter companies acting = .ok incoming := by
    simp only [buildIncomingFilter, findCompany, hcompany]
    exact ⟨_, rfl⟩
  refine ⟨hincoming, ?_⟩
  obtain ⟨incoming, hincoming⟩ := hincoming
  cases direction <;> cases state <;> simp only [listFilter, directionFilter, hincoming] <;>
    exact ⟨_, rfl⟩

theorem effectiveFilter_ok {filter : Conditions String ExchangeOfferDocument}
    (cursor : Option (Position Numbers)) (h : filter.get .or = none) :
    (∀ o, (effectiveFilter ExchangeOfferDocument.position filter EXCHANGE_SORT_KEYS cursor).holds o =
      (filter.holds o && decide (After EXCHANGE_SORT_KEYS cursor o.position))) ∧
    (effectiveFilter ExchangeOfferDocument.position filter EXCHANGE_SORT_KEYS cursor).get .or =
      none := by
  constructor
  · intro o
    rw [Bool.eq_iff_iff, effectiveFilter_holds (by decide), Bool.and_eq_true, decide_eq_true_iff]
  · cases cursor with
    | none => exact h
    | some boundary => exact Conditions.get_conj_ne (by simp)

/-- A list page is taken from what is asked for and is the company's to read. -/
theorem listFilter_merged {scope : Conditions String ExchangeOfferDocument}
    (hisFor : ∀ o, scope.holds o = o.isFor acting) (hor : ∀ n, n ≠ .or → scope.get n = none)
    {direction : ExchangeDirection} {state : Option ExchangeOfferState}
    {filter : Conditions String ExchangeOfferDocument}
    (hfilter : listFilter companies acting direction state = .ok filter)
    (cursor : Option (Position Numbers)) (o : ExchangeOfferDocument) :
    ((effectiveFilter ExchangeOfferDocument.position filter EXCHANGE_SORT_KEYS
        cursor).merge scope).holds o =
      (asked companies acting direction state o && o.isFor acting &&
        decide (After EXCHANGE_SORT_KEYS cursor o.position)) := by
  obtain ⟨hholds, hnone⟩ := listFilter_ok hfilter
  obtain ⟨heffective, hnone⟩ := effectiveFilter_ok cursor hnone
  rw [merge_of_only_or hnone hor, heffective, hholds, hisFor, Bool.and_right_comm]

theorem awaitingAnswerFilter_ok {incoming : Conditions String ExchangeOfferDocument}
    (h : buildIncomingFilter companies acting = .ok incoming) (answered : List Id) :
    (∀ o, (awaitingAnswerFilter incoming answered).holds o =
      (comesIn companies acting o && decide (o.state = .open_) && !answered.contains o.id)) ∧
    (awaitingAnswerFilter incoming answered).get .or = none := by
  obtain ⟨hholds, hnames⟩ := buildIncomingFilter_ok h
  constructor
  · intro o
    rw [Bool.eq_iff_iff, awaitingAnswerFilter, Conditions.holds_assign (by simp), hholds]
    · simp [and_assoc]
    · simp [hnames]
  · rw [awaitingAnswerFilter, Conditions.get_assign (by simp)]
    exact hnames _ (by simp) (by simp)

theorem outgoingOpenFilter_ok (acting : Id) :
    (∀ o, (outgoingOpenFilter acting).holds o = (goesOut acting o && decide (o.state = .open_))) ∧
    (outgoingOpenFilter acting).get .or = none := by
  refine ⟨fun o => ?_, Conditions.get_object (by simp)⟩
  rw [outgoingOpenFilter, Conditions.holds_object (by simp)]
  simp [goesOut]

theorem awardedThisMonthFilter_ok (acting : Id) (month : Month) :
    (∀ o, (awardedThisMonthFilter acting month).holds o =
      ((goesOut acting o || decide (o.awardedCompanyId = some acting)) &&
        decide (o.state = .awarded) && o.resolvedAt.any month.includes)) ∧
    (awardedThisMonthFilter acting month).get .or = none := by
  refine ⟨fun o => ?_, Conditions.get_object (by simp)⟩
  rw [awardedThisMonthFilter, Conditions.holds_object (by simp)]
  simp [goesOut, raisedBy, allOf, Bool.and_assoc]

end filters

/-- What the database evaluates, for a list at any direction, state and cursor and
for each of the counts, is what the caller asks for, of the offers that are the
company's to read. -/
theorem injected_scope_exact (companies : List (Id × CompanyRecord)) (ctx : RequestScope)
    (acting : Id) (hctx : ActsFor ctx acting) :
    ∃ scope, partySetScope ctx = .ok scope ∧
      ((companies.lookup acting).isSome → ∀ direction state,
        (∃ incoming, buildIncomingFilter companies acting = .ok incoming) ∧
          ∃ filter, listFilter companies acting direction state = .ok filter) ∧
      (∀ direction state cursor filter, listFilter companies acting direction state = .ok filter →
        ∀ o, ((effectiveFilter ExchangeOfferDocument.position filter EXCHANGE_SORT_KEYS
            cursor).merge scope).holds o =
          (asked companies acting direction state o && o.isFor acting &&
            decide (After EXCHANGE_SORT_KEYS cursor o.position))) ∧
      (∀ answered incoming, buildIncomingFilter companies acting = .ok incoming →
        ∀ o, ((awaitingAnswerFilter incoming answered).merge scope).holds o =
          (comesIn companies acting o && decide (o.state = .open_) && !answered.contains o.id &&
            o.isFor acting)) ∧
      (∀ o, ((outgoingOpenFilter acting).merge scope).holds o =
        (goesOut acting o && decide (o.state = .open_) && o.isFor acting)) ∧
      ∀ month o, ((awardedThisMonthFilter acting month).merge scope).holds o =
        ((goesOut acting o || decide (o.awardedCompanyId = some acting)) &&
          decide (o.state = .awarded) && o.resolvedAt.any month.includes && o.isFor acting) := by
  obtain ⟨scope, hscope, hisFor, hor⟩ := hctx.partySetScope
  refine ⟨scope, hscope, listFilter_exists, ?_, ?_, ?_, ?_⟩
  · intro direction state cursor filter hfilter o
    exact listFilter_merged hisFor hor hfilter cursor o
  · intro answered incoming hincoming o
    obtain ⟨hholds, hnone⟩ := awaitingAnswerFilter_ok hincoming answered
    rw [merge_of_only_or hnone hor, hholds, hisFor]
  · intro o
    obtain ⟨hholds, hnone⟩ := outgoingOpenFilter_ok acting
    rw [merge_of_only_or hnone hor, hholds, hisFor]
  · intro month o
    obtain ⟨hholds, hnone⟩ := awardedThisMonthFilter_ok acting month
    rw [merge_of_only_or hnone hor, hholds, hisFor]

/-! ### A company of the market -/

def marketCompany (type : CompanyType) (fuelPrices : List (FuelType × ℚ)) : CompanyRecord where
  type := type
  fuelPrices := fuelPrices
  name := "Fuel company"
  contactEmail := "desk@fuel.example"
  contactPhone := "0500000000"

def marketCompanies : List (Id × CompanyRecord) :=
  [(10, marketCompany .fuel [(.diesel, 2)]), (12, marketCompany .fuel [(.diesel, 3)])]

/-- An administrator of company 10. -/
def marketScope : RequestScope where
  userId := some (.id 21)
  role := some .fuelCompanyAdmin
  companyId := some (.id 10)

theorem injected_scope_exact_diesel :
    ∃ scope, partySetScope marketScope = .ok scope ∧
      ((marketCompanies.lookup 10).isSome → ∀ direction state,
        (∃ incoming, buildIncomingFilter marketCompanies 10 = .ok incoming) ∧
          ∃ filter, listFilter marketCompanies 10 direction state = .ok filter) ∧
      (∀ direction state cursor filter, listFilter marketCompanies 10 direction state = .ok filter →
        ∀ o, ((effectiveFilter ExchangeOfferDocument.position filter EXCHANGE_SORT_KEYS
            cursor).merge scope).holds o =
          (asked marketCompanies 10 direction state o && o.isFor 10 &&
            decide (After EXCHANGE_SORT_KEYS cursor o.position))) ∧
      (∀ answered incoming, buildIncomingFilter marketCompanies 10 = .ok incoming →
        ∀ o, ((awaitingAnswerFilter incoming answered).merge scope).holds o =
          (comesIn marketCompanies 10 o && decide (o.state = .open_) && !answered.contains o.id &&
            o.isFor 10)) ∧
      (∀ o, ((outgoingOpenFilter 10).merge scope).holds o =
        (goesOut 10 o && decide (o.state = .open_) && o.isFor 10)) ∧
      ∀ month o, ((awardedThisMonthFilter 10 month).merge scope).holds o =
        ((goesOut 10 o || decide (o.awardedCompanyId = some 10)) &&
          decide (o.state = .awarded) && o.resolvedAt.any month.includes && o.isFor 10) :=
  injected_scope_exact marketCompanies marketScope 10 ⟨rfl, rfl⟩

end CiroFuel.Exchange
