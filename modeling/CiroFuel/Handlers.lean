import CiroFuel.Calls

/-!
# The endpoints, the webhook and the timeout job

Each handler reads what its source reads, one read at a time, and decides on
what it read; the store may have moved on before it calls anything. Effects
outside the database (queues, notifications, one-time codes) may fail, and a
queue call may take effect although its answer is lost.

A request states what the HTTP layer has already resolved: the authenticated
user, the validated body, whether the webhook signature verified, and the truck
a presented credential belongs to. Tenant filters are left out, so the model
admits at least the calls the platform admits.
-/
namespace CiroFuel
open Snapshot

structure AuthenticatedUser where
  userId : Id
  role : UserRole
  companyId : Option Id := none
deriving DecidableEq

def AuthenticatedUser.actor (user : AuthenticatedUser) : TransitionActor :=
  ⟨user.userId, user.role⟩

/-- A decoded quote token. An expiry that is no date never counts as past. -/
structure QuotePayload where
  fuelCompanyId : Id
  fuelType : FuelType
  quantityLiters : ℚ
  unitPrice : ℚ
  serviceFeePercent : ℚ
  taxRatePercent : ℚ
  expiresAt : Option Instant

structure CreateOrderDto where
  fuelType : FuelType
  quantityLiters : ℚ
  deliveryLocation : Option GeoPoint := none
  stationId : Option Id := none
  paymentMethod : Option PaymentMethod := none
  /-- The token presented, and what it decodes to. -/
  quoteToken : Option (Option QuotePayload) := none

inductive Answer where
  | order (order : OrderDocument)
  | routed (order : OrderDocument) (candidates : List Id)
  | webhook (duplicate : Bool) (accepted : Option Bool)
  | invoice (invoice : InvoiceDocument)
  | assigned (driverId : Id)
  | verified (order : OrderDocument) (stage : VerificationStage) (distanceMeters : Option ℕ)
  | reconciled (order : OrderDocument) (shortfallLitres : ℚ) (wentNegative : Bool)
  | balance (balance : LitreBalance)
  | done

abbrev Handler := Prog Doc Call.Reply Refusal

namespace Handler

abbrev perform (l : Call) : Handler l.Reply := Prog.perform l

abbrev attempt (l : Call) : Handler (Except (Failure Refusal) l.Reply) := Prog.attempt l

/-- An effect outside the database; its failure is the handler's. -/
def sideEffect : Handler Unit :=
  .outside fun ok => if ok then .pure () else .fail .unavailable

/-- A call to the queue, which may fail before it takes effect or after. -/
def enqueue (l : Call) : Handler l.Reply := do
  sideEffect
  let r ← perform l
  sideEffect
  return r

/-- Unwraps a read, or refuses. -/
def require {α : Type} (e : Refusal) : Option α → Handler α
  | some a => pure a
  | none => Prog.throw e

/-- Refuses when the condition holds. -/
def refuseIf (b : Bool) (e : Refusal) : Handler Unit := if b then Prog.throw e else pure ()

end Handler

open Handler

def findById (id : Id) : Handler OrderDocument := do
  let order ← require .orderNotFound (← Prog.find (Key.order id))
  return Order.withId order id

def findOneForUser (user : AuthenticatedUser) (id : Id) : Handler OrderDocument := do
  let order ← findById id
  let isOwner := match user.role with
    | .client => order.clientId = user.userId
    | .driver => order.driverId = some user.userId
    | _ => true
  refuseIf (!isOwner) .orderNotFound
  return order

/-! ### Creation -/

/-- The live rates; the price and the configuration are read separately. -/
def readRates (fuelCompanyId : Id) (fuelType : FuelType) : Handler (ℚ × PricingConfig) := do
  let priced : Option Company ← Prog.find (Key.company fuelCompanyId)
  let configured : Option Company ← Prog.find (Key.company fuelCompanyId)
  require .pricingNotConfigured
    (currentRates (getBasePrice priced fuelType) (configured.bind (·.pricingConfig)))

def priceWithoutQuote (fuelCompanyId : Id) (fuelType : FuelType) (quantityLiters : ℚ) :
    Handler PriceBreakdown := do
  let (unitPrice, rates) ← readRates fuelCompanyId fuelType
  let pricedAt ← Prog.getTime
  return derivePriceBreakdown unitPrice quantityLiters none rates.serviceFeePercent
    rates.taxRatePercent pricedAt

/-- Prices a quoted order from the live rates, which must be those of the quote. -/
def redeem (token : Option QuotePayload) (fuelCompanyId : Id) (fuelType : FuelType)
    (quantityLiters : ℚ) : Handler PriceBreakdown := do
  let payload ← require .quoteExpired token
  let now ← Prog.getTime
  refuseIf (payload.expiresAt.any (· ≤ now)) .quoteExpired
  let (unitPrice, rates) ← readRates fuelCompanyId fuelType
  refuseIf (payload.fuelCompanyId ≠ fuelCompanyId || payload.fuelType ≠ fuelType ||
    payload.quantityLiters ≠ quantityLiters) .quoteStale
  refuseIf (unitPrice ≠ payload.unitPrice || rates.serviceFeePercent ≠ payload.serviceFeePercent ||
    rates.taxRatePercent ≠ payload.taxRatePercent) .quoteStale
  let pricedAt ← Prog.getTime
  return derivePriceBreakdown unitPrice quantityLiters none rates.serviceFeePercent
    rates.taxRatePercent pricedAt

def findOwnedByClient (stationId clientId : Id) : Handler Station := do
  let station : Station ← require .stationNotFound (← Prog.find (Key.station stationId))
  refuseIf (!(station.clientId = clientId && station.isActive)) .stationNotFound
  return station

def createPriced (companyId : Id) (user : AuthenticatedUser) (dto : CreateOrderDto)
    (token : Option QuotePayload) : Handler OrderFields := do
  let stationId ← require .stationRequired dto.stationId
  let station ← findOwnedByClient stationId user.userId
  let priceBreakdown ← redeem token companyId dto.fuelType dto.quantityLiters
  return {
    fuelCompanyId := companyId
    clientId := user.userId
    fuelType := dto.fuelType
    quantityLiters := dto.quantityLiters
    deliveryLocation := dto.deliveryLocation.getD station.location
    stationId := some stationId
    priceBreakdown := priceBreakdown
    paymentMethod := dto.paymentMethod.getD .direct }

def createUnquoted (companyId : Id) (user : AuthenticatedUser) (client : User)
    (dto : CreateOrderDto) : Handler OrderFields := do
  let station ← match dto.stationId with
    | some stationId => some <$> findOwnedByClient stationId user.userId
    | none => pure none
  let embedded := client.station.bind (·.location)
  let deliveryLocation ← require .noDeliveryLocation
    (dto.deliveryLocation.or ((station.map (·.location)).or embedded))
  let priceBreakdown ← priceWithoutQuote companyId dto.fuelType dto.quantityLiters
  return {
    fuelCompanyId := companyId
    clientId := user.userId
    fuelType := dto.fuelType
    quantityLiters := dto.quantityLiters
    deliveryLocation := deliveryLocation
    stationId := dto.stationId
    priceBreakdown := priceBreakdown
    paymentMethod := dto.paymentMethod.getD .direct }

def create (user : AuthenticatedUser) (dto : CreateOrderDto) : Handler Answer := do
  let companyId ← require .clientWithoutCompany user.companyId
  let client : User ← require .userNotFound (← Prog.find (Key.user user.userId))
  let fields ← match dto.quoteToken with
    | some token => createPriced companyId user dto token
    | none => createUnquoted companyId user client dto
  let (order, _) ← perform (.create fields user.userId)
  return .order order

/-! ### Routing -/

def feeForCompany (cfg : Settings) (transportCompanyId : Id) (target : DeliveryTarget)
    (fuelType : FuelType) : Handler ℚ := do
  let company : Company ← require .transportCompanyNotFound
    (← Prog.find (Key.company transportCompanyId))
  let rate ← require .transportPriceNotSet (rateFor company.deliveryRates target)
  let nearest := findNearestSupplying cfg (← Prog.scan) target.coordinates fuelType
  let (_, _, distanceMeters) ← require .noWarehouseForGrade nearest
  return rate.fee distanceMeters

/-- The transport company an order is routed to: the chosen one, which must be a
candidate, or the only candidate. -/
def resolveTransporter (candidates : List Id) (chosen : Option Id) : Handler (Option Id) :=
  match chosen, candidates with
  | some id, _ => do
      refuseIf (!candidates.contains id) .transporterNotServing
      return some id
  | none, [id] => pure (some id)
  | none, _ => pure none

def routeOrder (cfg : Settings) (order : OrderDocument) (actor : TransitionActor)
    (source : OrderStatus) (chosen : Option Id) : Handler (OrderDocument × List Id) := do
  let client : Option User ← Prog.find (Key.user order.clientId)
  let station := client.bind (·.station)
  let regionCode ← require .noStationRegion (station.bind (·.regionCode))
  let candidates := findServingTransporters (← Prog.scan) order.fuelCompanyId regionCode
  match ← resolveTransporter candidates chosen with
  | none => do
      let updated ← if source = .awaitingRouting then pure order
        else perform (.awaitRouting order actor)
      sideEffect
      return (updated, candidates)
  | some transportCompanyId => do
      let target : DeliveryTarget :=
        { regionCode := regionCode
          governorateCode := station.bind (·.governorateCode)
          coordinates := order.deliveryLocation }
      let deliveryFee ← feeForCompany cfg transportCompanyId target order.fuelType
      let awaiting ← perform (.route order source transportCompanyId deliveryFee actor)
      -- The transporter and then the client are notified around the scheduling.
      sideEffect
      if awaiting.paymentMethod = .direct then
        enqueue (.schedule awaiting.id)
      sideEffect
      let fresh : Option Order ← Prog.find (Key.order awaiting.id)
      return ((fresh.map (·.withId awaiting.id)).getD awaiting, [])

def approveOrder (cfg : Settings) (user : AuthenticatedUser) (id : Id) (finalPrice : Option ℚ)
    (chosen : Option Id) : Handler Answer := do
  let order ← findById id
  let approved ← perform (.approve order user.actor finalPrice)
  let approved ← findById approved.id
  let (routed, candidates) ← routeOrder cfg approved user.actor .approved chosen
  return .routed routed candidates

def route (cfg : Settings) (user : AuthenticatedUser) (id : Id) (chosen : Option Id) :
    Handler Answer := do
  let order ← findById id
  refuseIf (!(order.status = .awaitingRouting || order.status = .approved)) .notRoutable
  let (routed, _) ← routeOrder cfg order user.actor order.status chosen
  refuseIf (routed.status = .awaitingRouting) .transporterNotServing
  return .order routed

def rejectOrder (user : AuthenticatedUser) (id : Id) (reason : String) : Handler Answer :=
  Answer.order <$> perform (.reject id user.actor reason)

/-! ### Settling the price -/

def acceptFinalPrice (user : AuthenticatedUser) (id : Id) : Handler Answer := do
  let order ← findOneForUser user id
  refuseIf (order.clientId ≠ user.userId) .orderNotFound
  refuseIf (order.status ≠ .pendingPayment) .orderNotAwaitingConfirmation
  refuseIf (order.paymentMethod = .direct) .directIsConfirmedByPaying
  let resumed ← perform (.accept order user.actor)
  enqueue (.unschedule order.id)
  return .order resumed

def redispatch (user : AuthenticatedUser) (id : Id) : Handler Answer := do
  let order ← findOneForUser user id
  refuseIf (order.status ≠ .approved) .notApproved
  refuseIf (user.role = .client && order.paymentTimeoutCount ≥ 2) .twoPaymentTimeouts
  let updated ← perform (.reopen order user.actor)
  enqueue (.schedule order.id)
  return .order updated

/-- The event is not applicable after all: its outcome is corrected, and the
company's administrators are told unless the payment was merely not made. -/
def correctOutcome (eventId : Id) (outcome : PaymentEventOutcome) (notify : Bool) :
    Handler Answer := do
  let _ ← perform (.markOutcome eventId outcome)
  if notify then sideEffect
  return .webhook false (some false)

/-- What the handler does once the settling transaction has returned. -/
def afterSettlement (order : OrderDocument) (eventId : Id) : Handler Answer :=
  -- Every failure from here on is caught and reported as out of sequence.
  .outside fun reached =>
    if !reached then correctOutcome eventId .outOfSequence true else
    .call (.unschedule order.id) fun
      | .error _ => correctOutcome eventId .outOfSequence true
      | .ok _ => .outside fun answered =>
          if !answered then correctOutcome eventId .outOfSequence true else
          .outside fun notified =>
            if !notified then correctOutcome eventId .outOfSequence true
            else .pure (.webhook false (some true))

def handleWebhook (gateway : PaymentGateway) (dto : PaymentWebhook) (signed : Bool) :
    Handler Answer := do
  if !signed then
    -- A failure to record the attempt is logged and forgotten.
    let _ ← attempt (.recordInvalid gateway dto)
    Prog.throw .invalidSignature
  else
    let order ← require (.unknownOrderId dto.orderId) (← Prog.find (Key.order dto.orderId))
    let order := Order.withId order dto.orderId
    match ← attempt (.recordPaid gateway dto order) with
    | .error .duplicateKey => return .webhook true none
    | .error e => .fail e
    | .ok eventId =>
        if !dto.paid then
          correctOutcome eventId .outOfSequence false
        else if some dto.amount ≠ order.finalPrice || dto.currency ≠ .sar then
          correctOutcome eventId .amountMismatch true
        else
          match ← attempt (.settle order eventId dto.transactionId) with
          | .ok _ => afterSettlement order eventId
          | .error _ => correctOutcome eventId .outOfSequence true

/-- The delayed job. A refused or failed transaction is a lost race; either way
the job is finished. -/
def timeOutJob (job : TimeoutJob) : Handler Answer := do
  match ← (Prog.find (Key.order job.orderId) : Handler (Option Order)) with
  | none => pure ()
  | some order =>
      let order := order.withId job.orderId
      if order.status = .pendingPayment then
        -- Notifying the parties may fail too, and is then only logged.
        let _ ← attempt (.timeOut job order)
  perform (.finishJob job)
  return .done

def settleManually (user : AuthenticatedUser) (id : Id) (paymentReference : Option ℕ) :
    Handler Answer := do
  let invoice : Invoice ← require .invoiceNotFound (← Prog.find (Key.invoice id))
  refuseIf (invoice.method = .direct) .notPermitted
  refuseIf (invoice.method = .deferred && user.role ≠ .transportCompanyAdmin) .notPermitted
  refuseIf (invoice.method = .credit && user.role ≠ .fuelCompanyAdmin) .notPermitted
  Answer.invoice <$> perform (.settleInvoice id paymentReference)

/-! ### Cancellation -/

def clientCancellable : List OrderStatus :=
  [.pendingApproval, .approved, .awaitingRouting, .routedToTransport, .pendingPayment]

def adminCancellable : List OrderStatus := clientCancellable ++ [OrderStatus.assignedToDriver, .loading]

def cancelOrder (user : AuthenticatedUser) (id : Id) (reason : Option String) :
    Handler Answer := do
  let order ← findOneForUser user id
  let isClient := user.role = .client && order.clientId = user.userId
  refuseIf (!(isClient || user.role = .fuelCompanyAdmin)) .notPermitted
  refuseIf (isClient && !clientCancellable.contains order.status) .clientMayNotCancel
  refuseIf (!isClient && !adminCancellable.contains order.status) .noLongerCancellable
  let updated ← perform (.cancel order user.actor reason)
  if order.status = .assignedToDriver || order.status = .pendingPayment then
    enqueue (.unschedule order.id)
  if order.status = .assignedToDriver || order.status = .loading then
    sideEffect
  return .order updated

/-! ### Dispatch -/

/-- Only a driver whose app is shut is assignable without being eligible. -/
def User.isOffline (driver : User) : Bool :=
  driver.isActive && driver.isAvailable && driver.activeOrderId.isNone && !driver.isOnline

def assign (cfg : Settings) (orderId driverId truckId tankId : Id) (reason : Option String) :
    Handler Answer := do
  let order ← findById orderId
  refuseIf (order.status ≠ .routedToTransport) (.notEligibleForAssignment orderId)
  let driver : Option User ← Prog.find (Key.user driverId)
  let offline := driver.any (·.isOffline)
  refuseIf (offline && trim (reason.getD "") = "") .assignmentReasonRequired
  let nearest := findNearestSupplying cfg (← Prog.scan) order.deliveryLocation order.fuelType
  let (warehouseId, warehouse, _) ← require .noWarehouseForGrade nearest
  let a : Assignment :=
    { driverId := driverId
      truckId := truckId
      tankId := tankId
      warehouseId := warehouseId
      warehouse := ⟨warehouse.name, warehouse.addressText, warehouse.location⟩
      ineligibleReason := if offline then some reason else none }
  match ← attempt (.assign order a) with
  | .error .duplicateKey => Prog.throw .orderAlreadyAssigned
  | .error e => .fail e
  | .ok _ =>
      -- The driver is notified and the escalation scheduled.
      sideEffect
      return .assigned driverId

def reassign (orderId truckId tankId : Id) : Handler Answer := do
  let order ← findById orderId
  refuseIf (order.status ≠ .assignedToDriver) .alreadyDeparted
  Answer.order <$> perform (.reassign order truckId tankId)

/-! ### Verification and delivery -/

def resolveOutstandingStage (order : OrderDocument) : Option VerificationStage :=
  match order.status with
  | .assignedToDriver => some .departure
  | .loading =>
      if order.verifications.any fun v => v.stage = .loading && v.matched then none
      else some .loading
  | _ => none

/-- The distance to the assigned warehouse, where the stage is geofenced. -/
def measureAgainstWarehouse (cfg : Settings) (order : OrderDocument) (stage : VerificationStage)
    (reported : Option GeoPoint) : Handler (Option ℕ) :=
  if stage ≠ .loading then pure none else do
    let warehouse ← require .noWarehouseToVerify order.warehouseSummary
    let location ← require .locationRequired reported
    return some (cfg.distanceMeters warehouse.location location + 1 / 2).floor.toNat

def verifyVehicle (cfg : Settings) (user : AuthenticatedUser) (id : Id)
    (presentedTruckId : Option Id) (method : VerificationMethod) (reported : Option GeoPoint) :
    Handler Answer := do
  let order ← findById id
  refuseIf (order.driverId ≠ some user.userId) .orderNotFound
  let stage ← require .noVerificationPending (resolveOutstandingStage order)
  let truckMatched := presentedTruckId.isSome && presentedTruckId = order.truckId
  let driver : Option User ← Prog.find (Key.user user.userId)
  let distanceMeters ← measureAgainstWarehouse cfg order stage reported
  let withinGeofence := distanceMeters.all (· ≤ cfg.warehouseGeofenceRadiusMeters)
  let at_ ← Prog.getTime
  let attempt : VehicleVerification :=
    { stage := stage
      method := method
      matched := truckMatched && withinGeofence
      presentedTruckId := presentedTruckId
      at_ := at_
      driverLocation := reported.or (driver.bind (·.location))
      distanceMeters := distanceMeters
      actorId := user.userId }
  let updated ← perform (.verify order attempt user.actor)
  refuseIf (!truckMatched) .vehicleMismatch
  refuseIf (!withinGeofence)
    (.notAtWarehouse (distanceMeters.getD 0) cfg.warehouseGeofenceRadiusMeters)
  return .verified updated stage distanceMeters

def assertDriverAssigned (user : AuthenticatedUser) (id : Id) (expected : OrderStatus) :
    Handler OrderDocument := do
  let order ← findById id
  refuseIf (order.driverId ≠ some user.userId) .orderNotFound
  refuseIf (order.status ≠ expected) (.wrongStatus expected)
  return order

def confirmLoadingAt (user : AuthenticatedUser) (id : Id) : Handler Answer := do
  let order ← assertDriverAssigned user id .loading
  let loadingVerified := order.verifications.any fun v => v.stage = .loading && v.matched
  refuseIf (!loadingVerified) .vehicleNotVerified
  let at_ ← Prog.getTime
  Answer.order <$> perform (.confirmLoading order user.actor at_)

def overrideVerification (user : AuthenticatedUser) (id : Id) (reason : String) :
    Handler Answer := do
  let order ← findById id
  if order.status = .assignedToDriver then
    Answer.order <$> perform (.overrideDeparture order user.actor reason)
  else if order.status = .loading then
    let at_ ← Prog.getTime
    Answer.order <$> perform (.overrideLoading order user.actor reason at_)
  else Prog.throw .noStageOutstanding

/-- The one-time code is checked outside the database. -/
def verifyOtp : Handler Unit :=
  .outside fun ok => if ok then .pure () else Prog.throw .wrongOtp

def verifyArrivalAt (user : AuthenticatedUser) (id : Id) : Handler Answer := do
  let order ← assertDriverAssigned user id .inTransit
  verifyOtp
  Answer.order <$> perform (.verifyArrival order user.actor)

def verifyDelivery (user : AuthenticatedUser) (id : Id) : Handler Answer := do
  let order ← assertDriverAssigned user id .unloading
  verifyOtp
  let updated ← perform (.complete order user.actor)
  sideEffect
  return .order updated

def forceCompletable : List OrderStatus := [.loading, .inTransit, .unloading]

def forceCompleteOrder (user : AuthenticatedUser) (id : Id) (reason : String) :
    Handler Answer := do
  let order ← findById id
  refuseIf (!forceCompletable.contains order.status) .notForceCompletable
  let updated ← perform (.forceComplete order user.actor reason)
  sideEffect
  return .order updated

/-! ### Supplier invoices and corrections -/

def assertEligible (order : OrderDocument) (dto : SupplierInvoiceInput) : Handler Unit := do
  refuseIf (order.status = .cancelled || order.status = .rejected)
    (.supplierInvoiceOrderNotEligible order.status)
  refuseIf (dto.confirmed.fuelType ≠ order.fuelType)
    (.supplierInvoiceGradeMismatch dto.confirmed.fuelType order.fuelType)

def confirmInvoice (user : AuthenticatedUser) (id : Id) (dto : SupplierInvoiceInput) :
    Handler Answer := do
  let order ← findById id
  assertEligible order dto
  refuseIf (Order.currentEntry order.toOrder).isSome .supplierInvoiceAlreadyRecorded
  let (updated, r) ← perform (.confirmInvoice order dto user.userId)
  return .reconciled updated r.shortfallLitres r.wentNegative

def replaceInvoice (user : AuthenticatedUser) (id : Id) (dto : SupplierInvoiceInput) :
    Handler Answer := do
  let order ← findById id
  assertEligible order dto
  let (updated, r) ← perform (.replaceInvoice order dto user.userId)
  return .reconciled updated r.shortfallLitres r.wentNegative

def correct (user : AuthenticatedUser) (key : BalanceKey) (litres : ℚ) (reason : String) :
    Handler Answer :=
  Answer.balance <$> perform (.correct key litres reason user.userId)

/-! ### The platform account -/

/-- A payment is recorded with a reference or with an uploaded document. -/
def recordPaymentOf (user : AuthenticatedUser) (amount : ℚ) (reference : Option ℕ)
    (documentFileId : Option Id) : Handler Answer := do
  let companyId ← require .notPermitted user.companyId
  refuseIf (reference.isNone && documentFileId.isNone) .paymentEvidenceRequired
  let _ ← perform (.recordPayment companyId amount reference)
  return .done

def confirmPaymentOf (user : AuthenticatedUser) (movementId : Id) : Handler Answer := do
  let _ ← perform (.confirmPayment movementId user.userId)
  return .done

def payOutCashback (user : AuthenticatedUser) (companyId : Id) (amount : ℚ) (reference : ℕ) :
    Handler Answer := do
  match ← attempt (.recordCashbackPayout companyId amount reference user.userId) with
  | .error .duplicateKey => Prog.throw .payoutDuplicateReference
  | .error e => .fail e
  | .ok _ => return .done

/-! ### The machine -/

inductive Request where
  | create (user : AuthenticatedUser) (dto : CreateOrderDto)
  | approve (user : AuthenticatedUser) (id : Id) (finalPrice : Option ℚ) (chosen : Option Id)
  | route (user : AuthenticatedUser) (id : Id) (chosen : Option Id)
  | reject (user : AuthenticatedUser) (id : Id) (reason : String)
  | accept (user : AuthenticatedUser) (id : Id)
  | cancel (user : AuthenticatedUser) (id : Id) (reason : Option String)
  | redispatch (user : AuthenticatedUser) (id : Id)
  | webhook (gateway : PaymentGateway) (dto : PaymentWebhook) (signed : Bool)
  | timeout (job : TimeoutJob)
  | settle (user : AuthenticatedUser) (invoiceId : Id) (paymentReference : Option ℕ)
  | assign (user : AuthenticatedUser) (id driverId truckId tankId : Id) (reason : Option String)
  | reassign (user : AuthenticatedUser) (id truckId tankId : Id)
  | verifyVehicle (user : AuthenticatedUser) (id : Id) (presentedTruckId : Option Id)
      (method : VerificationMethod) (reported : Option GeoPoint)
  | confirmLoading (user : AuthenticatedUser) (id : Id)
  | overrideVerification (user : AuthenticatedUser) (id : Id) (reason : String)
  | verifyArrival (user : AuthenticatedUser) (id : Id)
  | verifyDelivery (user : AuthenticatedUser) (id : Id)
  | forceComplete (user : AuthenticatedUser) (id : Id) (reason : String)
  | confirmInvoice (user : AuthenticatedUser) (id : Id) (dto : SupplierInvoiceInput)
  | replaceInvoice (user : AuthenticatedUser) (id : Id) (dto : SupplierInvoiceInput)
  | correct (user : AuthenticatedUser) (key : BalanceKey) (litres : ℚ) (reason : String)
  | recordPayment (user : AuthenticatedUser) (amount : ℚ) (reference : Option ℕ)
      (documentFileId : Option Id)
  | confirmPayment (user : AuthenticatedUser) (movementId : Id)
  | recordCashbackPayout (user : AuthenticatedUser) (companyId : Id) (amount : ℚ) (reference : ℕ)
  | administer (edit : AdminEdit)

def Request.handler (cfg : Settings) : Request → Handler Answer
  | .create user dto => CiroFuel.create user dto
  | .approve user id finalPrice chosen => approveOrder cfg user id finalPrice chosen
  | .route user id chosen => CiroFuel.route cfg user id chosen
  | .reject user id reason => rejectOrder user id reason
  | .accept user id => acceptFinalPrice user id
  | .cancel user id reason => cancelOrder user id reason
  | .redispatch user id => CiroFuel.redispatch user id
  | .webhook gateway dto signed => handleWebhook gateway dto signed
  | .timeout job => timeOutJob job
  | .settle user invoiceId paymentReference => settleManually user invoiceId paymentReference
  | .assign _ id driverId truckId tankId reason =>
      CiroFuel.assign cfg id driverId truckId tankId reason
  | .reassign _ id truckId tankId => CiroFuel.reassign id truckId tankId
  | .verifyVehicle user id presentedTruckId method reported =>
      CiroFuel.verifyVehicle cfg user id presentedTruckId method reported
  | .confirmLoading user id => confirmLoadingAt user id
  | .overrideVerification user id reason => CiroFuel.overrideVerification user id reason
  | .verifyArrival user id => verifyArrivalAt user id
  | .verifyDelivery user id => CiroFuel.verifyDelivery user id
  | .forceComplete user id reason => forceCompleteOrder user id reason
  | .confirmInvoice user id dto => CiroFuel.confirmInvoice user id dto
  | .replaceInvoice user id dto => CiroFuel.replaceInvoice user id dto
  | .correct user key litres reason => CiroFuel.correct user key litres reason
  | .recordPayment user amount reference documentFileId =>
      recordPaymentOf user amount reference documentFileId
  | .confirmPayment user movementId => confirmPaymentOf user movementId
  | .recordCashbackPayout user companyId amount reference =>
      payOutCashback user companyId amount reference
  | .administer edit => do
      perform (.administer edit)
      return .done

/-- The role guard of each endpoint, and the bounds its amount is validated against. -/
def Request.permitted : Request → Bool
  | .create user _ | .accept user _ => user.role = .client
  | .approve user .. | .route user .. | .reject user .. | .confirmInvoice user ..
  | .replaceInvoice user .. | .correct user .. => user.role = .fuelCompanyAdmin
  | .redispatch user _ => user.role = .fuelCompanyAdmin || user.role = .client
  | .settle user .. => user.role = .transportCompanyAdmin || user.role = .fuelCompanyAdmin
  | .assign user .. | .reassign user .. | .overrideVerification user .. =>
      user.role = .transportCompanyAdmin
  | .verifyVehicle user .. | .confirmLoading user _ | .verifyArrival user _
  | .verifyDelivery user _ => user.role = .driver
  | .forceComplete user .. => user.role = .fuelCompanyAdmin || user.role = .superAdmin
  | .recordPayment user amount .. => user.role = .fuelCompanyAdmin && 1 / 100 ≤ amount
  | .confirmPayment user _ => user.role = .superAdmin
  | .recordCashbackPayout user _ amount _ => user.role = .superAdmin && 1 / 100 ≤ amount
  | .cancel .. | .webhook .. | .timeout _ | .administer _ => true

/-- A job is delivered only while it is stored, any number of times once due. -/
def Request.admitted (q : Request) (d : Docs Doc) (clock : ℕ) : Bool :=
  q.permitted && match q with
    | .timeout job => d.lookup (Key.timeoutJob job.orderId) = some (some job) && job.due ≤ clock
    | _ => true

/-- Every endpoint over one database, in any interleaving. -/
def machine (cfg : Settings) : Machine Doc Call.Reply Refusal Request Answer where
  body := Call.body cfg
  isolated := Call.isolated
  handle := Request.handler cfg
  admits := Request.admitted

end CiroFuel
