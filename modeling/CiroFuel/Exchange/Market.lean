import CiroFuel.Exchange.Offers
import CiroFuel.Snapshot.Bulk
import CiroFuel.Snapshot.Execution

/-!
# Trading on the exchange

Raising an offer, answering it, awarding it and withdrawing it. An award is a
transaction on its own snapshot; every other write is one atomic operation. A
handler checks what it has read of an offer and writes later, and only the
conditional updates look at the offer again.
-/
namespace CiroFuel.Exchange
open Snapshot

inductive Key where
  | offer (id : Id)
  | proposal (id : Id)
  | company (id : Id)
deriving DecidableEq

@[reducible] def Doc : Key → Type
  | .offer _ => ExchangeOffer
  | .proposal _ => ExchangeProposal
  | .company _ => CompanyRecord

/-- One answer to an offer from each company. -/
inductive IndexEntry where
  | answer (offerId proposingCompanyId : Id)
deriving DecidableEq

instance : Indexed Doc IndexEntry where
  entries
    | .proposal _, (p : ExchangeProposal) => [.answer p.offerId p.proposingCompanyId]
    | _, _ => []

end CiroFuel.Exchange

namespace CiroFuel.Snapshot.Store
open Exchange

def offer (s : Store Exchange.Doc) (id : Id) : Option ExchangeOffer := s.find (Key.offer id)

def proposal (s : Store Exchange.Doc) (id : Id) : Option ExchangeProposal :=
  s.find (Key.proposal id)

end CiroFuel.Snapshot.Store

namespace CiroFuel.Exchange
open Snapshot

structure HttpError where
  status : ℕ
  error : Option String := none
  message : String
deriving DecidableEq, Repr

def deliveryInPast : HttpError :=
  ⟨400, some "EXCHANGE_DELIVERY_IN_PAST", "deliveryAt must be in the future"⟩

def fuelTypeName : FuelType → String
  | .diesel => "DIESEL"
  | .petrol91 => "PETROL_91"
  | .petrol95 => "PETROL_95"
  | .kerosene => "KEROSENE"

def noEligibleCompany (fuelType : FuelType) : HttpError :=
  ⟨400, some "EXCHANGE_NO_ELIGIBLE_COMPANY",
    "No other fuel company on the platform sells " ++ fuelTypeName fuelType⟩

def partyInvalid (openToMarket : Bool) : HttpError :=
  ⟨400, some "EXCHANGE_PARTY_INVALID",
    if openToMarket then "A market offer must name exactly one party: the company raising it"
    else "partyCompanyIds must name exactly two companies, including the one creating this record"⟩

def offerNotFound : HttpError := ⟨404, none, "Exchange offer not found"⟩

def ownOffer : HttpError := ⟨403, none, "The raising company cannot answer its own offer"⟩

def offerNotOpen (message : String) : HttpError := ⟨409, some "EXCHANGE_OFFER_NOT_OPEN", message⟩

def priceOrDecline : HttpError := ⟨400, none, "Provide exactly one of unitPrice or decline"⟩

def gradeNotSold (fuelType : FuelType) : HttpError :=
  ⟨400, some "EXCHANGE_GRADE_NOT_SOLD", "Your company does not sell " ++ fuelTypeName fuelType⟩

def alreadyAnswered : HttpError :=
  ⟨409, some "EXCHANGE_ALREADY_ANSWERED", "You have already answered this offer"⟩

def proposalNotFound : HttpError := ⟨404, none, "Proposal not found"⟩

def alreadyResolved : HttpError :=
  ⟨409, some "EXCHANGE_ALREADY_RESOLVED", "This offer has already been resolved"⟩

/-- The total of a proposal without a price is no number. -/
def castError : HttpError := ⟨500, none, "Internal server error"⟩

/-! ### Writes -/

abbrev Action := Tx Doc HttpError

structure CreateOfferDto where
  fuelType : FuelType
  quantityLitres : ℚ
  deliveryAt : Instant
  city : ℕ
  district : Option String := none
  locationUrl : Option String := none
  notes : Option String := none

def offerOf (acting userId : Id) (dto : CreateOfferDto) (createdAt : Instant) : ExchangeOffer where
  partyCompanyIds := [acting]
  openToMarket := true
  raisedByCompanyId := acting
  raisedByUserId := userId
  fuelType := dto.fuelType
  quantityLitres := dto.quantityLitres
  deliveryAt := dto.deliveryAt
  city := dto.city
  district := dto.district
  locationUrl := dto.locationUrl
  notes := dto.notes
  createdAt := createdAt
  updatedAt := createdAt

/-- What the plugin demands of a new offer. -/
def ExchangeOffer.validParties (o : ExchangeOffer) (acting : Id) : Bool :=
  if o.openToMarket then decide (o.partyCompanyIds = [acting])
  else decide (o.partyCompanyIds.length = 2) && o.partyCompanyIds.contains acting

def createOffer (acting userId : Id) (dto : CreateOfferDto) : Action ExchangeOfferDocument := do
  let createdAt ← Tx.getTime
  let offer := offerOf acting userId dto createdAt
  if offer.validParties acting then
    let id ← Tx.freshId
    Tx.insert (Key.offer id) offer
    return offer.withId id
  else Tx.throw (partyInvalid offer.openToMarket)

/-- A price or a decline. -/
structure CreateProposalDto where
  unitPrice : Option Price := none
  decline : Option Bool := none

def CreateProposalDto.isDecline (dto : CreateProposalDto) : Bool := decide (dto.decline = some true)

def proposalOf (offer : ExchangeOfferDocument) (acting userId : Id) (dto : CreateProposalDto)
    (respondedAt : Instant) : ExchangeProposal where
  offerId := offer.id
  offerRaisedByCompanyId := offer.raisedByCompanyId
  proposingCompanyId := acting
  proposingUserId := userId
  outcome := if dto.isDecline then .declined else .proposed
  unitPrice := if dto.isDecline then none else dto.unitPrice
  currency := if dto.isDecline then none else some .sar
  respondedAt := respondedAt

def createProposal (proposal : ExchangeProposal) : Action ExchangeProposalDocument := do
  let id ← Tx.freshId
  Tx.insert (Key.proposal id) proposal
  return proposal.withId id

/-- What an award sets. -/
def ExchangeOffer.award (o : ExchangeOffer) (proposal : ExchangeProposalDocument)
    (quantityLitres total : ℚ) (userId : Id) (now at_ : Instant) : ExchangeOffer :=
  { o with
    state := .awarded
    awardedProposalId := some proposal.id
    awardedCompanyId := some proposal.proposingCompanyId
    agreedUnitPrice := proposal.unitPrice
    agreedTotal := some total
    agreedQuantityLitres := some quantityLitres
    currency := proposal.currency
    resolvedBy := some userId
    resolvedAt := some now
    updatedAt := at_ }

def ExchangeProposal.resolve (p : ExchangeProposal) (outcome : ProposalOutcome) (now : Instant) :
    ExchangeProposal :=
  { p with
    outcome := outcome
    resolvedAt := some now }

def openFor (acting : Id) (o : ExchangeOffer) : Bool := decide (o.state = .open_) && o.isFor acting

/-- The other proposals on the offer. -/
def siblings (offerId proposalId acting : Id) : (k : Key) → Doc k → Bool
  | .proposal id, (p : ExchangeProposal) =>
      decide (p.offerId = offerId) && decide (id ≠ proposalId) && p.isFor acting
  | _, _ => false

def notSelected (now : Instant) : (k : Key) → Doc k → Doc k
  | .proposal _, (p : ExchangeProposal) => p.resolve .notSelected now
  | .offer _, o => o
  | .company _, c => c

/-- The transaction of an award, for the offer and the proposal read before it. -/
def awardOffer (offer : ExchangeOfferDocument) (proposal : ExchangeProposalDocument)
    (acting userId : Id) (now : Instant) : Action ExchangeOfferDocument := do
  match proposal.unitPrice with
  | none => Tx.throw castError
  | some price =>
      let total := roundCurrency (price.amount * offer.quantityLitres)
      let at_ ← Tx.getTime
      let result ← Tx.findOneAndUpdate (Key.offer offer.id) (openFor acting) fun o =>
        ExchangeOffer.award o proposal offer.quantityLitres total userId now at_
      match result with
      | none => Tx.throw alreadyResolved
      | some updatedOffer =>
          let _ ← Tx.updateOne (Key.proposal proposal.id)
            (fun p : ExchangeProposal => p.isFor acting)
            fun p : ExchangeProposal => p.resolve .awarded now
          Tx.updateMany (siblings offer.id proposal.id acting) (notSelected now)
          return ExchangeOffer.withId updatedOffer offer.id

def ExchangeOffer.withdraw (o : ExchangeOffer) (userId : Id) (now at_ : Instant) : ExchangeOffer :=
  { o with
    state := .withdrawn
    resolvedBy := some userId
    resolvedAt := some now
    updatedAt := at_ }

def withdrawOffer (offerId acting userId : Id) (now : Instant) : Action ExchangeOfferDocument := do
  let at_ ← Tx.getTime
  let result ← Tx.findOneAndUpdate (Key.offer offerId) (openFor acting) fun o =>
    ExchangeOffer.withdraw o userId now at_
  match result with
  | none => Tx.throw alreadyResolved
  | some offer => return ExchangeOffer.withId offer offerId

/-! ### Calls -/

/-- The offer and the proposal in a label are those the handler read. -/
inductive Call where
  | create (acting userId : Id) (dto : CreateOfferDto)
  | propose (offer : ExchangeOfferDocument) (acting userId : Id) (dto : CreateProposalDto)
      (respondedAt : Instant)
  | award (offer : ExchangeOfferDocument) (proposal : ExchangeProposalDocument)
      (acting userId : Id) (now : Instant)
  | withdraw (offer : ExchangeOfferDocument) (acting userId : Id) (now : Instant)
  | putCompany (id : Id) (company : CompanyRecord)

namespace Call

@[reducible] def Reply : Call → Type
  | .create .. => ExchangeOfferDocument
  | .propose .. => ExchangeProposalDocument
  | .award .. => ExchangeOfferDocument
  | .withdraw .. => ExchangeOfferDocument
  | .putCompany .. => Unit

def body : (c : Call) → Action c.Reply
  | .create acting userId dto => createOffer acting userId dto
  | .propose offer acting userId dto respondedAt =>
      createProposal (proposalOf offer acting userId dto respondedAt)
  | .award offer proposal acting userId now => awardOffer offer proposal acting userId now
  | .withdraw offer acting userId now => withdrawOffer offer.id acting userId now
  | .putCompany id company => Tx.upsert (Key.company id) company fun _ => company

def isolated : Call → Bool
  | .award .. => true
  | _ => false

end Call

/-! ### Handlers -/

abbrev Handler := Prog Doc Call.Reply HttpError

namespace Handler

/-- An effect outside the database; its failure is the handler's. -/
def sideEffect : Handler Unit := .outside fun ok => if ok then .pure () else .fail .unavailable

def require {α : Type} (e : HttpError) : Option α → Handler α
  | some a => pure a
  | none => Prog.throw e

def refuseIf (b : Bool) (e : HttpError) : Handler Unit := if b then Prog.throw e else pure ()

end Handler

open Exchange.Handler

/-- `offerModel.findById` for a company. -/
def readOffer (acting offerId : Id) : Handler ExchangeOfferDocument := do
  let found : Option ExchangeOffer ← Prog.find (Key.offer offerId)
  let offer ← require offerNotFound (found.filter fun o => o.isFor acting)
  return offer.withId offerId

def readProposal (acting proposalId offerId : Id) : Handler ExchangeProposalDocument := do
  let found : Option ExchangeProposal ← Prog.find (Key.proposal proposalId)
  let proposal ← require proposalNotFound
    (found.filter fun p => decide (p.offerId = offerId) && p.isFor acting)
  return proposal.withId proposalId

def isActive (id : Id) : Handler Bool := do
  let found : Option CompanyRecord ← Prog.find (Key.company id)
  return found.any fun c => decide (c.status = .active)

def basePrice (id : Id) (fuelType : FuelType) : Handler (Option ℚ) := do
  let found : Option CompanyRecord ← Prog.find (Key.company id)
  return found.bind fun c => c.fuelPrices.lookup fuelType

/-- `findActiveFuelCompaniesSellingGrade` -/
def sellers (fuelType : FuelType) (excluding : Id) (d : Docs Doc) : List Id :=
  d.entries.filterMap fun
    | ⟨.company id, (c : CompanyRecord)⟩ =>
        if c.type = .fuel ∧ c.status = .active ∧ c.fuelPrices.any (fun e => e.1 = fuelType) ∧
          id ≠ excluding then some id else none
    | _ => none

/-- `POST fuel-exchange/offers` -/
def create (acting userId : Id) (dto : CreateOfferDto) : Handler ExchangeOfferDocument := do
  let now ← Prog.getTime
  refuseIf (decide (dto.deliveryAt ≤ now)) deliveryInPast
  let docs ← Prog.scan
  refuseIf (sellers dto.fuelType acting docs).isEmpty (noEligibleCompany dto.fuelType)
  let offer ← Prog.perform (.create acting userId dto)
  sideEffect
  return offer

/-- A company that names a price must sell the grade. -/
def checkGrade (acting : Id) (fuelType : FuelType) (dto : CreateProposalDto) : Handler Unit :=
  if dto.isDecline then pure ()
  else do
    let price ← basePrice acting fuelType
    refuseIf price.isNone (gradeNotSold fuelType)

def translateDuplicate {α : Type} : Except (Failure HttpError) α → Handler α
  | .ok a => pure a
  | .error .duplicateKey => Prog.throw alreadyAnswered
  | .error e => .fail e

/-- `POST fuel-exchange/offers/:id/proposals` -/
def propose (offerId acting userId : Id) (dto : CreateProposalDto) :
    Handler ExchangeProposalDocument := do
  let offer ← readOffer acting offerId
  refuseIf (decide (offer.raisedByCompanyId = acting)) ownOffer
  refuseIf (decide (offer.state ≠ .open_)) (offerNotOpen "This offer is not open")
  let raiserActive ← isActive offer.raisedByCompanyId
  refuseIf (!raiserActive) (offerNotOpen "The raising company is suspended")
  refuseIf (dto.isDecline == dto.unitPrice.isSome) priceOrDecline
  checkGrade acting offer.fuelType dto
  let respondedAt ← Prog.getTime
  let answer ← Prog.attempt (.propose offer acting userId dto respondedAt)
  let proposal ← translateDuplicate answer
  sideEffect
  return proposal

/-- `POST fuel-exchange/offers/:id/award` -/
def award (offerId acting userId proposalId : Id) : Handler ExchangeOfferDocument := do
  let offer ← readOffer acting offerId
  refuseIf (decide (offer.raisedByCompanyId ≠ acting)) offerNotFound
  let proposal ← readProposal acting proposalId offer.id
  refuseIf (decide (proposal.outcome = .declined)) proposalNotFound
  let now ← Prog.getTime
  let updatedOffer ← Prog.perform (.award offer proposal acting userId now)
  sideEffect
  return updatedOffer

/-- `PATCH fuel-exchange/offers/:id/withdraw` -/
def withdraw (offerId acting userId : Id) : Handler ExchangeOfferDocument := do
  let offer ← readOffer acting offerId
  refuseIf (decide (offer.raisedByCompanyId ≠ acting)) offerNotFound
  let now ← Prog.getTime
  let result ← Prog.perform (.withdraw offer acting userId now)
  sideEffect
  return result

/-- Requests of administrators of fuel companies, and changes of company records. -/
inductive Request where
  | create (acting userId : Id) (dto : CreateOfferDto)
  | propose (offerId acting userId : Id) (dto : CreateProposalDto)
  | award (offerId acting userId proposalId : Id)
  | withdraw (offerId acting userId : Id)
  | putCompany (id : Id) (company : CompanyRecord)

inductive Answer where
  | offer (offer : ExchangeOfferDocument)
  | proposal (proposal : ExchangeProposalDocument)
  | done

def handle : Request → Handler Answer
  | .create acting userId dto => do
      let offer ← create acting userId dto
      return .offer offer
  | .propose offerId acting userId dto => do
      let proposal ← propose offerId acting userId dto
      return .proposal proposal
  | .award offerId acting userId proposalId => do
      let offer ← award offerId acting userId proposalId
      return .offer offer
  | .withdraw offerId acting userId => do
      let offer ← withdraw offerId acting userId
      return .offer offer
  | .putCompany id company => do
      let _ ← Prog.perform (.putCompany id company)
      return .done

def machine : Machine Doc Call.Reply HttpError Request Answer where
  body := Call.body
  isolated := Call.isolated
  handle := handle
  admits _ _ _ := true

/-- The stored proposals. -/
def proposalsOf (d : Docs Doc) : List ExchangeProposalDocument :=
  d.entries.filterMap fun
    | ⟨.proposal id, (p : ExchangeProposal)⟩ => some (p.withId id)
    | _ => none

end CiroFuel.Exchange
