import CiroFuel.Collections
import CiroFuel.Exchange.Reads
import CiroFuel.Scripts

/-!
# From directed requests to offers

Before the market there were requests from one fuel company to another. A script
is to turn each into an offer for the same two companies, and into a proposal
where the recipient had answered. It looks every request up by the offer that
names it as its origin and passes over those that have one. But it calls a
function that its module neither declares nor imports, and so it throws before it
has looked at a request.
-/
namespace CiroFuel.OfferMigration
open Exchange Query Snapshot

/-! ### Data -/

inductive ExchangeRequestState where
  | awaitingResponse | accepted | declined | withdrawn
  | other (text : String)
deriving DecidableEq, Repr

structure ExchangeRequest where
  raisedByCompanyId : Id
  recipientCompanyId : Id
  raisedByUserId : Id
  fuelType : FuelType
  quantityLitres : ℚ
  unitPrice : ℚ
  currency : Currency
  deliveryAt : Instant
  deliveryPlaceText : Option String := none
  state : ExchangeRequestState
  resolvedBy : Option Id := none
  resolvedAt : Option Instant := none
  createdAt : Option Instant := none
deriving DecidableEq

structure OfferRecord extends ExchangeOffer where
  migratedFromRequestId : Option Id := none
deriving DecidableEq

/-- A proposal as it is stored; one that was migrated may name no user. -/
structure ProposalRecord where
  offerId : Id
  offerRaisedByCompanyId : Id
  proposingCompanyId : Id
  proposingUserId : Option Id
  outcome : ProposalOutcome
  unitPrice : Option ℚ := none
  currency : Option Currency := none
  respondedAt : Instant
  resolvedAt : Option Instant := none
  createdAt : Instant
  updatedAt : Instant
deriving DecidableEq

structure Database where
  exchangerequests : Collection Id ExchangeRequest := {}
  exchangeoffers : Collection Id OfferRecord := {}
  exchangeproposals : Collection Id ProposalRecord := {}

/-- The offers that name the request as their origin. -/
def Database.migrated (db : Database) (requestId : Id) : List (Id × OfferRecord) :=
  db.exchangeoffers.find fun _ o => decide (o.migratedFromRequestId = some requestId)

def Database.answers (db : Database) (offerId : Id) : List (Id × ProposalRecord) :=
  db.exchangeproposals.find fun _ p => decide (p.offerId = offerId)

inductive Write where
  | insertOffer (id : Id) (offer : OfferRecord)
  | insertProposal (id : Id) (proposal : ProposalRecord)
deriving DecidableEq

def Database.apply : Write → Database → Database
  | .insertOffer id offer, db => { db with exchangeoffers := db.exchangeoffers.insert id offer }
  | .insertProposal id proposal, db =>
      { db with exchangeproposals := db.exchangeproposals.insert id proposal }

/-- The unique indexes. -/
def Database.admits : Write → Database → Bool
  | .insertOffer id offer, db =>
      decide (id ∉ db.exchangeoffers.keys) &&
        db.exchangeoffers.docs.all fun d =>
          decide (offer.migratedFromRequestId = none ∨
            d.2.migratedFromRequestId ≠ offer.migratedFromRequestId)
  | .insertProposal id proposal, db =>
      decide (id ∉ db.exchangeproposals.keys) &&
        db.exchangeproposals.docs.all fun d =>
          decide (d.2.offerId ≠ proposal.offerId ∨
            d.2.proposingCompanyId ≠ proposal.proposingCompanyId)

/-- The identifiers in the database. -/
def Database.identifiers (db : Database) : List Id :=
  db.exchangerequests.keys ++ db.exchangeoffers.keys ++ db.exchangeproposals.keys ++
    db.exchangeproposals.docs.map fun d => d.2.offerId

/-- A generated value is a new identifier and the time. -/
def storage : Storage Database Write (Id × Instant) where
  apply := Database.apply
  admits := Database.admits
  fresh g db := decide (g.1 ∉ db.identifiers)

/-! ### The script -/

/-- `GovernorateCode.RIYADH_CITY` -/
def PROVISIONAL_CITY : ℕ := 0

structure Mapping where
  offerState : ExchangeOfferState
  proposalOutcome : Option ProposalOutcome := none
deriving DecidableEq

def mapState : ExchangeRequestState → Option Mapping
  | .awaitingResponse => some { offerState := .open_ }
  | .accepted => some { offerState := .awarded, proposalOutcome := some .awarded }
  | .declined => some { offerState := .closedNoAward, proposalOutcome := some .declined }
  | .withdrawn => some { offerState := .withdrawn }
  | .other _ => none

/-- The first code units of a text; half a character is stored as a replacement character. -/
def slice : ℕ → List Char → List Char
  | 0, _ => []
  | _, [] => []
  | n + 1, c :: cs =>
      if c.toNat < 0x10000 then c :: slice n cs
      else match n with
        | 0 => [Char.ofNat 0xFFFD]
        | n + 1 => c :: slice n cs

def migratedNotes (deliveryPlaceText : Option String) : String :=
  String.ofList (slice 1000 ("[migrated] " ++ deliveryPlaceText.getD "").toList)

def offerOf (requestId : Id) (req : ExchangeRequest) (offerState : ExchangeOfferState)
    (now : Instant) : OfferRecord where
  openToMarket := false
  partyCompanyIds := [req.raisedByCompanyId, req.recipientCompanyId]
  raisedByCompanyId := req.raisedByCompanyId
  raisedByUserId := req.raisedByUserId
  fuelType := req.fuelType
  quantityLitres := req.quantityLitres
  deliveryAt := req.deliveryAt
  city := PROVISIONAL_CITY
  notes := some (migratedNotes req.deliveryPlaceText)
  state := offerState
  resolvedBy := req.resolvedBy
  resolvedAt := req.resolvedAt
  migratedFromRequestId := some requestId
  createdAt := req.createdAt.getD now
  updatedAt := now
  -- Only an accepted request has figures that were agreed on.
  awardedCompanyId := if req.state = .accepted then some req.recipientCompanyId else none
  agreedUnitPrice := if req.state = .accepted then some (some req.unitPrice) else none
  agreedQuantityLitres := if req.state = .accepted then some req.quantityLitres else none
  agreedTotal := if req.state = .accepted then some (req.unitPrice * req.quantityLitres) else none
  currency := if req.state = .accepted then some req.currency else none

def proposalOf (offerId : Id) (req : ExchangeRequest) (outcome : ProposalOutcome)
    (now : Instant) : ProposalRecord where
  offerId := offerId
  offerRaisedByCompanyId := req.raisedByCompanyId
  proposingCompanyId := req.recipientCompanyId
  proposingUserId := req.resolvedBy
  outcome := outcome
  unitPrice := if outcome = .awarded then some req.unitPrice else none
  currency := if outcome = .awarded then some req.currency else none
  respondedAt := req.resolvedAt.getD now
  resolvedAt := req.resolvedAt
  createdAt := req.resolvedAt.getD now
  updatedAt := now

/-- What became of a request; a dry run names no offer. -/
inductive Outcome where
  | alreadyMigrated
  | unmapped (requestId : Id) (state : ExchangeRequestState)
  | created (offerId : Option Id) (proposal : Bool)
deriving DecidableEq

structure MigrateExchangeRequestsSummary where
  total : ℕ := 0
  offersCreated : ℕ := 0
  proposalsCreated : ℕ := 0
  alreadyMigrated : ℕ := 0
  unmapped : List (Id × ExchangeRequestState) := []
  needsCityReview : List Id := []
deriving DecidableEq

def MigrateExchangeRequestsSummary.add (summary : MigrateExchangeRequestsSummary) :
    Outcome → MigrateExchangeRequestsSummary
  | .alreadyMigrated => { summary with alreadyMigrated := summary.alreadyMigrated + 1 }
  | .unmapped requestId state =>
      { summary with unmapped := summary.unmapped ++ [(requestId, state)] }
  | .created offerId proposal =>
      { summary with
        offersCreated := summary.offersCreated + 1
        proposalsCreated := summary.proposalsCreated + proposal.toNat
        needsCityReview := summary.needsCityReview ++ offerId.toList }

/-- Declared in another module, which does not export it. -/
def emptySummary : MigrateExchangeRequestsSummary := {}

/-- The names that the script's module declares or imports. -/
def scope : List String :=
  ["NestFactory", "Logger", "getConnectionToken", "Connection", "AppModule",
    "ExchangeRequestState", "ExchangeOfferState", "ProposalOutcome", "GovernorateCode",
    "PROVISIONAL_CITY", "mapState", "migrateExchangeRequestsToOffers", "parseArgs", "runAsCli"]

inductive ScriptError where
  | referenceError (name : String)
deriving DecidableEq

abbrev Migration := ExceptT ScriptError (Script Database Write (Id × Instant))

def query {α : Type} (f : Database → α) : Migration α := ExceptT.lift (Script.query f)

def generate : Migration (Id × Instant) := ExceptT.lift Script.generate

def perform (w : Write) : Migration Unit := ExceptT.lift (Script.perform w)

/-- A call of a function by its name. -/
def call {α : Type} (name : String) (result : α) : Migration α :=
  if name ∈ scope then return result else throw (.referenceError name)

/-- The answer to an offer that has just been inserted, if the request had one. -/
def insertAnswer (offerId : Id) (req : ExchangeRequest) (now : Instant) :
    Option ProposalOutcome → Migration Outcome
  | none => return .created (some offerId) false
  | some outcome => do
      let (proposalId, _) ← generate
      perform (.insertProposal proposalId (proposalOf offerId req outcome now))
      return .created (some offerId) true

def createOffer (req : Id × ExchangeRequest) (mapping : Mapping) : Migration Outcome := do
  let (offerId, now) ← generate
  perform (.insertOffer offerId (offerOf req.1 req.2 mapping.offerState now))
  insertAnswer offerId req.2 now mapping.proposalOutcome

def migrateRequest (dryRun : Bool) (req : Id × ExchangeRequest) : Migration Outcome := do
  let existingOffer ← query fun db => (db.migrated req.1).head?
  if existingOffer.isSome then return .alreadyMigrated
  else match mapState req.2.state with
    | none => return .unmapped req.1 req.2.state
    | some mapping =>
        if dryRun then return .created none mapping.proposalOutcome.isSome
        else createOffer req mapping

def migrateExchangeRequestsToOffers (dryRun : Bool := false) :
    Migration MigrateExchangeRequestsSummary := do
  let summary ← call "emptySummary" emptySummary
  let requests ← query fun db => db.exchangerequests.docs
  let outcomes ← requests.mapM (migrateRequest dryRun)
  return outcomes.foldl MigrateExchangeRequestsSummary.add { summary with total := requests.length }

/-! ### Runs -/

/-- The script ends at its first call. -/
theorem migrate_throws (dryRun : Bool) : (migrateExchangeRequestsToOffers dryRun).run =
    pure (.error (.referenceError "emptySummary")) := by
  have hscope : "emptySummary" ∉ scope := by decide
  have hcall : call "emptySummary" emptySummary =
      (throw (.referenceError "emptySummary") : Migration _) := if_neg hscope
  rw [migrateExchangeRequestsToOffers, hcall]
  rfl

section run
variable {db : Database} {dryRun : Bool} {ws : List Write}

theorem migrate_ends {result : Except ScriptError MigrateExchangeRequestsSummary} :
    (migrateExchangeRequestsToOffers dryRun).run.Ends storage db ws result ↔
      ws = [] ∧ result = .error (.referenceError "emptySummary") := by
  rw [migrate_throws]
  exact Script.ends_pure

theorem migrate_stops :
    (migrateExchangeRequestsToOffers dryRun).run.Stops storage db ws ↔ ws = [] := by
  rw [migrate_throws]
  exact Iff.rfl

end run

/-! ### Readers -/

/-- Whoever reads an offer under the party-set scope acts for a company that it is for. -/
theorem reader_isFor {ctx : RequestScope} {scope filter : Conditions String ExchangeOfferDocument}
    {o : ExchangeOfferDocument} (hscope : partySetScope ctx = .ok scope) (hrole : ctx.role ≠ none)
    (hadmin : ctx.role ≠ some .superAdmin) (h : (filter.merge scope).holds o = true) :
    ∃ id c, ctx.companyId = some id ∧ id.objectId = .ok c ∧ o.isFor c = true := by
  have hholds := (Conditions.holds_merge.1 h).1
  obtain ⟨userId, role, companyId, parentFuelCompanyId⟩ := ctx
  cases role with
  | none => exact absurd rfl hrole
  | some role =>
      cases role with
      | superAdmin => exact absurd rfl hadmin
      | transportCompanyAdmin => cases hscope
      | client => cases hscope
      | driver => cases hscope
      | fuelCompanyAdmin =>
          cases companyId with
          | none => cases hscope
          | some id =>
              cases id with
              | empty => cases hscope
              | other text => cases hscope
              | id c =>
                  cases hscope
                  refine ⟨.id c, c, rfl, rfl, ?_⟩
                  simpa [ExchangeOffer.isFor] using hholds

/-- An offer stays on its terms in every run of the exchange. -/
theorem offer_terms {P : Event Exchange.Doc Exchange.Call.Reply → Prop} {init : Store Exchange.Doc}
    {log : List (Event Exchange.Doc Exchange.Call.Reply)}
    {s : Sys Exchange.Doc Exchange.Call.Reply Exchange.HttpError Exchange.Answer}
    (h : Run Exchange.machine init P log s) {offerId : Id} {o : ExchangeOffer}
    (hinit : init.offer offerId = some o) :
    ∃ o', s.store.offer offerId = some o' ∧ o'.terms = o.terms := by
  refine (traded h).logged
    (J := fun _ st => ∃ o', st.offer offerId = some o' ∧ o'.terms = o.terms) ⟨o, hinit, rfl⟩ ?_
  rintro _ ev hev ⟨-, hknown⟩ ⟨o₁, ho₁, hterms₁⟩
  obtain ⟨o₂, ho₂, hterms₂, -⟩ := (commit_onward hev hknown.older).offers offerId o₁ ho₁
  exact ⟨o₂, ho₂, hterms₂.trans hterms₁⟩

/-- The offer is closed to the market and names the parties, and in every run of the exchange
that starts with it only they read it. -/
structure Private (offerId : Id) (offer : OfferRecord) (parties : List Id) : Prop where
  closed : offer.openToMarket = false
  named : offer.partyCompanyIds = parties
  readers : ∀ (P : Event Exchange.Doc Exchange.Call.Reply → Prop) init log s,
    Run Exchange.machine init P log s → init.offer offerId = some offer.toExchangeOffer →
    ∀ o, s.store.offer offerId = some o →
    ∀ (ctx : RequestScope) (scope filter : Conditions String ExchangeOfferDocument),
    partySetScope ctx = .ok scope → ctx.role ≠ none → ctx.role ≠ some .superAdmin →
    (filter.merge scope).holds (o.withId offerId) = true →
    ∃ id c, ctx.companyId = some id ∧ id.objectId = .ok c ∧ c ∈ parties

/-- An offer as the script builds it is private to the companies of its request. -/
theorem private_offerOf (offerId requestId : Id) (req : ExchangeRequest)
    (offerState : ExchangeOfferState) (now : Instant) :
    Private offerId (offerOf requestId req offerState now)
      [req.raisedByCompanyId, req.recipientCompanyId] where
  closed := rfl
  named := rfl
  readers P init log s hrun hinit o ho ctx scope filter hscope hrole hadmin hread := by
    obtain ⟨o', ho', hterms⟩ := offer_terms hrun hinit
    obtain rfl : o' = o := Option.some.inj (ho'.symm.trans ho)
    obtain ⟨id, c, hid, hc, hfor⟩ := reader_isFor hscope hrole hadmin hread
    have hmarket : o'.openToMarket = false := congrArg ExchangeOffer.openToMarket hterms
    have hparties : o'.partyCompanyIds = [req.raisedByCompanyId, req.recipientCompanyId] :=
      congrArg ExchangeOffer.partyCompanyIds hterms
    refine ⟨id, c, hid, hc, ?_⟩
    rw [← hparties]
    simpa [ExchangeOffer.isFor, ExchangeOffer.withId, hmarket] using hfor

/-! ### What is asked of the script -/

/-- The proposal says what the recipient of the request answered. -/
structure Matches (offerId : Id) (req : ExchangeRequest) (outcome : ProposalOutcome)
    (p : ProposalRecord) : Prop where
  offer : p.offerId = offerId
  raiser : p.offerRaisedByCompanyId = req.raisedByCompanyId
  proposer : p.proposingCompanyId = req.recipientCompanyId
  answered : p.outcome = outcome
  price : p.unitPrice = if outcome = .awarded then some req.unitPrice else none
  currency : p.currency = if outcome = .awarded then some req.currency else none

theorem matches_proposalOf (offerId : Id) (req : ExchangeRequest) (outcome : ProposalOutcome)
    (now : Instant) : Matches offerId req outcome (proposalOf offerId req outcome now) :=
  ⟨rfl, rfl, rfl, rfl, rfl, rfl⟩

/-- The proposals on the offer are those that the request calls for. -/
def Answered (db : Database) (offerId : Id) (req : ExchangeRequest) :
    Option ProposalOutcome → Prop
  | none => db.answers offerId = []
  | some outcome =>
      ∃ proposalId p, db.answers offerId = [(proposalId, p)] ∧ Matches offerId req outcome p

/-- What the requests of the first database have become in the second. -/
structure Migrated (db db' : Database) (summary : MigrateExchangeRequestsSummary) : Prop where
  converted : ∀ req ∈ db.exchangerequests.docs, db.migrated req.1 = [] →
    ∀ mapping, mapState req.2.state = some mapping → ∃ offerId offer,
      offerId ∉ db.exchangeoffers.keys ∧ db'.migrated req.1 = [(offerId, offer)] ∧
      offer.state = mapping.offerState ∧
      Private offerId offer [req.2.raisedByCompanyId, req.2.recipientCompanyId] ∧
      Answered db' offerId req.2 mapping.proposalOutcome
  offers : ∃ new, db'.exchangeoffers.docs = db.exchangeoffers.docs ++ new ∧
    new.length = summary.offersCreated ∧ ∀ d ∈ new, ∃ req ∈ db.exchangerequests.docs,
      db.migrated req.1 = [] ∧ d ∈ db'.migrated req.1
  proposals : ∃ new, db'.exchangeproposals.docs = db.exchangeproposals.docs ++ new ∧
    new.length = summary.proposalsCreated
  counted : summary.offersCreated + summary.alreadyMigrated + summary.unmapped.length =
    db.exchangerequests.docs.length

/-- A full run migrates the requests, and the next one writes nothing. -/
def MigratesPrivately (db : Database) : Prop :=
  ∀ ws result, (migrateExchangeRequestsToOffers false).run.Ends storage db ws result →
    ∃ summary, result = .ok summary ∧ Migrated db (storage.after db ws) summary ∧
      ∀ ws₂ result₂, (migrateExchangeRequestsToOffers false).run.Ends storage
        (storage.after db ws) ws₂ result₂ → ws₂ = []

theorem not_migratesPrivately (db : Database) : ¬ MigratesPrivately db := by
  intro h
  obtain ⟨summary, hok, -⟩ := h [] _ (migrate_ends.2 ⟨rfl, rfl⟩)
  cases hok

/-- No run migrates the requests: every run, dry or not, writes nothing and throws. -/
theorem requests_never_migrated (db : Database) : ¬ MigratesPrivately db ∧
    ∀ dryRun ws result,
      (migrateExchangeRequestsToOffers dryRun).run.Ends storage db ws result ↔
        ws = [] ∧ result = .error (.referenceError "emptySummary") :=
  ⟨not_migratesPrivately db, fun _ _ _ => migrate_ends⟩

def legacyRequest (state : ExchangeRequestState) (resolvedBy : Option Id) : ExchangeRequest where
  raisedByCompanyId := 10
  recipientCompanyId := 12
  raisedByUserId := 21
  fuelType := .diesel
  quantityLitres := 1000
  unitPrice := 5 / 2
  currency := .sar
  deliveryAt := 90
  deliveryPlaceText := some "Riyadh warehouse"
  state := state
  resolvedBy := resolvedBy
  resolvedAt := resolvedBy.map fun _ => 50
  createdAt := some 40

/-- One request, and nothing migrated. -/
def Database.ofRequest (id : Id) (request : ExchangeRequest) : Database where
  exchangerequests := { docs := [(id, request)], nodup := List.nodup_singleton id }

def awaitingRequests : Database := .ofRequest 1 (legacyRequest .awaitingResponse none)

/-- A request that awaits its response can be mapped, and it gets no offer. -/
theorem requests_never_migrated_awaiting : ¬ MigratesPrivately awaitingRequests ∧
    (mapState (legacyRequest .awaitingResponse none).state).isSome = true ∧
    ∀ ws result, (migrateExchangeRequestsToOffers false).run.Ends storage awaitingRequests ws
      result → (storage.after awaitingRequests ws).migrated 1 = [] := by
  refine ⟨not_migratesPrivately awaitingRequests, rfl, fun ws result hends => ?_⟩
  obtain ⟨rfl, -⟩ := migrate_ends.1 hends
  rfl

end CiroFuel.OfferMigration
