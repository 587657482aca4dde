import CiroFuel.Billing

/-!
# The operations on orders

The transaction bodies of ordering, routing, payment, dispatch, verification and
reconciliation, and the single writes made outside a transaction. An operation
receives the order as its handler read it earlier, possibly much earlier; where
it trusts that document instead of the stored one, so does the model.
-/
namespace CiroFuel
open Snapshot

/-! ### Creation and approval -/

/-- The fields an order is created with. -/
structure OrderFields where
  fuelCompanyId : Id
  clientId : Id
  fuelType : FuelType
  quantityLiters : ℚ
  deliveryLocation : GeoPoint
  stationId : Option Id
  priceBreakdown : PriceBreakdown
  paymentMethod : PaymentMethod

def OrderFields.order (f : OrderFields) : Order where
  fuelCompanyId := f.fuelCompanyId
  clientId := f.clientId
  fuelType := f.fuelType
  quantityLiters := f.quantityLiters
  deliveryLocation := f.deliveryLocation
  stationId := f.stationId
  priceBreakdown := some f.priceBreakdown
  status := .pendingApproval
  estimatedPrice := f.priceBreakdown.total
  paymentMethod := f.paymentMethod

/-- The balance an order draws from and is reconciled against. -/
def Order.balanceKey (o : Order) : BalanceKey := ⟨o.fuelCompanyId, o.clientId, o.fuelType⟩

def createWithDrawdown (A : Arithmetic) (fields : OrderFields) (userId : Id) :
    Action (OrderDocument × DrawdownResult) := do
  let id ← Tx.freshId
  let order := fields.order
  Tx.insert (Key.order id) order
  let litreDrawdown ← drawdown A order.balanceKey id fields.quantityLiters userId
  return (order.withId id, litreDrawdown)

def approve (order : OrderDocument) (actor : TransitionActor) (finalPrice : Option ℚ) :
    Action OrderDocument :=
  transition order.id .pendingApproval .approved actor
    { extraSet := [.finalPrice (finalPrice.getD order.estimatedPrice), .approvedBy actor.actorId] }

def reject (orderId : Id) (actor : TransitionActor) (reason : String) : Action OrderDocument :=
  transition orderId .pendingApproval .rejected actor
    { extraSet := [.rejectedBy actor.actorId, .rejectionReason reason] }

/-! ### Routing and the payment window -/

/-- The total once the haul is priced. An order without an itemised breakdown is
charged for the haul on top of its approved price. -/
def settledPrice (order : OrderDocument) (deliveryFee : ℚ) (pricedAt : Instant) :
    Option PriceBreakdown × ℚ :=
  match order.priceBreakdown with
  | some quoted =>
      let priced := derivePriceBreakdown quoted.unitPrice order.quantityLiters (some deliveryFee)
        quoted.serviceFeePercent quoted.taxRatePercent pricedAt
      (some priced, priced.total)
  | none => (none, roundCurrency (order.finalPrice.getD order.estimatedPrice + deliveryFee))

/-- What awaiting settlement sets. Only a direct order gets a deadline. -/
def settlementFields (cfg : Settings) (order : OrderDocument) (deliveryFee : ℚ)
    (pricedAt now : Instant) : List OrderField :=
  let (priced, finalPrice) := settledPrice order deliveryFee pricedAt
  priced.toList.map OrderField.priceBreakdown ++ [.finalPrice finalPrice] ++
    if order.paymentMethod = .direct then [.paymentDeadline (now + cfg.paymentWindow)] else []

def awaitClientSettlement (cfg : Settings) (order : OrderDocument) (deliveryFee : ℚ)
    (actor : TransitionActor) : Action OrderDocument := do
  let pricedAt ← Tx.getTime
  let now ← Tx.getTime
  let awaiting ← transition order.id .routedToTransport .pendingPayment actor
    { extraSet := settlementFields cfg order deliveryFee pricedAt now }
  let _ ← issueInvoice cfg awaiting
  return awaiting

/-- Routing, pricing and invoicing are one unit of work. -/
def routeToTransport (cfg : Settings) (order : OrderDocument) (source : OrderStatus)
    (transportCompanyId : Id) (deliveryFee : ℚ) (actor : TransitionActor) :
    Action OrderDocument := do
  let routed ← transition order.id source .routedToTransport actor
    { extraSet := [.transportCompanyId transportCompanyId] }
  awaitClientSettlement cfg routed deliveryFee actor

def awaitRouting (orderId : Id) (source : OrderStatus) (actor : TransitionActor) :
    Action OrderDocument :=
  transition orderId source .awaitingRouting actor

def enterPendingPayment (cfg : Settings) (order : OrderDocument) (actor : TransitionActor) :
    Action OrderDocument := do
  let now ← Tx.getTime
  transition order.id .approved .pendingPayment actor
    { extraSet := [.paymentDeadline (now + cfg.paymentWindow)] }

def settleAndResume (order : OrderDocument) (actor : TransitionActor) : Action OrderDocument :=
  transition order.id .pendingPayment .routedToTransport actor
    { extraUnset := [.paymentDeadline] }

/-! ### Payment events -/

def createPaymentEvent (event : PaymentEvent) : Action Id := do
  let id ← Tx.freshId
  Tx.insert (Key.paymentEvent id) event
  return id

def markOutcome (eventId : Id) (outcome : PaymentEventOutcome) : Action Bool :=
  Tx.updateOne (Key.paymentEvent eventId) (fun _ => true)
    fun (e : PaymentEvent) => { e with outcome := outcome }

/-- Settling the invoice and moving the order on happen together. -/
def confirmPaid (A : Arithmetic) (order : OrderDocument) (eventId : Id) (transactionId : ℕ) :
    Action OrderDocument := do
  let _ ← settleInvoiceForOrder A order.id (some transactionId)
  transition order.id .pendingPayment .routedToTransport systemActor
    { extraSet := [.paymentConfirmationId eventId], extraUnset := [.paymentDeadline] }

/-! ### Booked resources -/

def updateTruck (id : Id) (filter : Truck → Bool) (update : Truck → Truck) :
    Action (Option Truck) :=
  Tx.findOneAndUpdate (Key.truck id) filter update

def updateTank (id : Id) (filter : Tank → Bool) (update : Tank → Tank) : Action (Option Tank) :=
  Tx.findOneAndUpdate (Key.tank id) filter update

def releaseDriver (driverId : Option Id) (orderId : Id) : Action Unit := do
  match driverId with
  | none => return ()
  | some id =>
      let _ ← updateUser id (fun u => u.activeOrderId = some orderId)
        fun u => { u with isAvailable := true, activeOrderId := none }
      return ()

def releaseTruck (truckId : Option Id) (orderId : Id) : Action Unit := do
  match truckId with
  | none => return ()
  | some id =>
      let _ ← updateTruck id (fun t => t.activeOrderId = some orderId)
        fun t => { t with activeOrderId := none }
      return ()

def releaseTank (tankId : Option Id) (orderId : Id) : Action Unit := do
  match tankId with
  | none => return ()
  | some id =>
      let _ ← updateTank id (fun t => t.activeOrderId = some orderId)
        fun t => { t with activeOrderId := none }
      return ()

/-- Releases what the given document names, where it is still booked for the order. -/
def releaseDriverIfAssigned (order : OrderDocument) : Action Unit := do
  releaseDriver order.driverId order.id
  releaseTruck order.truckId order.id
  releaseTank order.tankId order.id

def bookTruck (truckId orderId : Id) : Action (Option Truck) :=
  updateTruck truckId (fun t => t.isActive && t.activeOrderId.isNone)
    fun t => { t with activeOrderId := some orderId }

def bookTank (tankId orderId : Id) : Action (Option Tank) :=
  updateTank tankId (fun t => t.isActive && t.activeOrderId.isNone)
    fun t => { t with activeOrderId := some orderId }

/-- The tank can carry the order's quantity and its grade. -/
def assertTankFits (tank : Tank) (order : OrderDocument) : Action Unit :=
  if tank.maxCapacityLiters < order.quantityLiters then Tx.throw .tankCapacityExceeded
  else if !tank.fuelTypes.contains order.fuelType then Tx.throw .tankGradeUnsupported
  else return ()

/-- The payment deadline passed: the order falls back to approved. -/
def timeOut (order : OrderDocument) : Action OrderDocument := do
  releaseDriver order.driverId order.id
  transition order.id .pendingPayment .approved systemActor
    { extraSet := [.paymentTimeoutCount (order.paymentTimeoutCount + 1)]
      extraUnset := [.driverId, .paymentDeadline] }

structure Assignment where
  driverId : Id
  truckId : Id
  tankId : Id
  warehouseId : Id
  warehouse : WarehouseSummary
  /-- The reason recorded for a driver who was offline when chosen. -/
  ineligibleReason : Option (Option String)

def assignmentFields (a : Assignment) (driver : User) (truck : Truck) (tank : Tank)
    (client : Option User) : List OrderField :=
  [OrderField.driverId a.driverId, .truckId a.truckId, .tankId a.tankId,
    .driverSummary ⟨driver.fullName, driver.phone, truck.plateNumber⟩,
    .tankSummary ⟨tank.code, tank.material⟩, .warehouseId a.warehouseId,
    .warehouseSummary a.warehouse] ++
  (client.toList.map fun c => OrderField.clientSummary ⟨c.fullName, c.phone⟩) ++
  match a.ineligibleReason with
  | some reason =>
      [OrderField.assignedWhileIneligible true, .assignedWhileIneligibleReason reason]
  | none => []

def assignDriver (order : OrderDocument) (a : Assignment) : Action OrderDocument := do
  match ← updateUser a.driverId
      (fun u => u.role = .driver && u.isActive && u.isAvailable && u.activeOrderId.isNone)
      (fun u => { u with isAvailable := false, activeOrderId := some order.id }) with
  | none => Tx.throw .driverUnavailable
  | some driver =>
    match ← bookTruck a.truckId order.id with
    | none => Tx.throw .truckUnavailable
    | some truck =>
      match ← bookTank a.tankId order.id with
      | none => Tx.throw .tankUnavailable
      | some tank =>
        assertTankFits tank order
        let client ← (Tx.find (Key.user order.clientId) : Action (Option User))
        transition order.id .routedToTransport .assignedToDriver systemActor
          { extraSet := assignmentFields a driver truck tank client }

/-- Swaps the vehicle. The order is written whatever its stored status is. -/
def reassignVehicle (order : OrderDocument) (truckId tankId : Id) : Action OrderDocument := do
  releaseTruck order.truckId order.id
  releaseTank order.tankId order.id
  match ← bookTruck truckId order.id with
  | none => Tx.throw .truckUnavailable
  | some truck =>
    match ← bookTank tankId order.id with
    | none => Tx.throw .tankUnavailable
    | some tank =>
      assertTankFits tank order
      match ← updateOrder order.id (fun _ => true) (fun o =>
          { o with
            truckId := some truckId
            tankId := some tankId
            driverSummary := o.driverSummary.map fun d => { d with plateNumber := truck.plateNumber }
            tankSummary := some ⟨tank.code, tank.material⟩ }) with
      | some updated => return updated.withId order.id
      | none => Tx.throw .orderNotFound

/-! ### The end of an order -/

def cancel (A : Arithmetic) (order : OrderDocument) (source : OrderStatus)
    (actor : TransitionActor) (reason : Option String) : Action OrderDocument := do
  releaseDriverIfAssigned order
  let updated ← transition order.id source .cancelled actor
    { extraSet := [.cancelledBy actor.actorId, .cancellationReason reason] }
  if order.invoiceId.isSome then
    voidInvoice order.id
  returnDrawdown A order.balanceKey order.id actor.actorId
  return updated

def completeDelivery (order : OrderDocument) (actor : TransitionActor) : Action OrderDocument := do
  releaseDriverIfAssigned order
  transition order.id .unloading .delivered actor

def forceComplete (order : OrderDocument) (source : OrderStatus) (actor : TransitionActor)
    (reason : String) : Action OrderDocument := do
  releaseDriverIfAssigned order
  transition order.id source .delivered actor
    { manualOverride := true, overrideReason := some reason }

/-! ### Verification -/

/-- The attempt is recorded first, whether or not it advances the order. -/
def recordVerification (order : OrderDocument) (attempt : VehicleVerification)
    (actor : TransitionActor) : Action OrderDocument := do
  let _ ← updateOrder order.id (fun _ => true) fun o =>
    { o with verifications := o.verifications ++ [attempt] }
  if !attempt.matched then
    return order
  else if attempt.stage = .departure then
    transition order.id .assignedToDriver .loading actor
  else
    match ← findOrder order.id with
    | some o => return o.withId order.id
    | none => Tx.throw .orderNotFound

def confirmLoading (orderId : Id) (actor : TransitionActor) (at_ : Instant) :
    Action OrderDocument :=
  transition orderId .loading .inTransit actor { extraSet := [.loadingConfirmedAt at_] }

def overrideDeparture (orderId : Id) (actor : TransitionActor) (reason : String) :
    Action OrderDocument :=
  transition orderId .assignedToDriver .loading actor
    { manualOverride := true, overrideReason := some reason }

def overrideLoading (orderId : Id) (actor : TransitionActor) (reason : String) (at_ : Instant) :
    Action OrderDocument :=
  transition orderId .loading .inTransit actor
    { manualOverride := true, overrideReason := some reason
      extraSet := [.loadingConfirmedAt at_] }

def verifyArrival (orderId : Id) (actor : TransitionActor) : Action OrderDocument :=
  transition orderId .inTransit .unloading actor

/-! ### Supplier invoices -/

structure SupplierInvoiceInput where
  fileId : Id
  confirmed : ConfirmedSupplierInvoiceData

def Order.currentEntry (o : Order) : Option SupplierInvoice :=
  o.supplierInvoices.find? fun si => si.supersededAt.isNone && si.confirmed.isSome

/-- Appends a confirmed supplier invoice under an id not yet in the list. -/
def Order.pushSupplierInvoice (o : Order) (dto : SupplierInvoiceInput) (actorId : Id)
    (at_ : Instant) : Order :=
  { o with
    supplierInvoices := o.supplierInvoices ++ [{
      id := (o.supplierInvoices.map (·.id)).foldl max 0 + 1
      fileId := dto.fileId
      confirmed := some dto.confirmed
      confirmedBy := some actorId
      confirmedAt := some at_ }] }

def pushConfirmed (order : OrderDocument) (dto : SupplierInvoiceInput) (actorId : Id) :
    Action OrderDocument := do
  let at_ ← Tx.getTime
  match ← updateOrder order.id (fun _ => true) (·.pushSupplierInvoice dto actorId at_) with
  | some updated => return updated.withId order.id
  | none => Tx.throw .orderNotFound

def confirmSupplierInvoice (A : Arithmetic) (order : OrderDocument) (dto : SupplierInvoiceInput)
    (actorId : Id) : Action (OrderDocument × ReconciliationResult) := do
  let reconciliation ← recordReconciliation A
    ⟨order.fuelCompanyId, order.clientId, dto.confirmed.fuelType⟩ order.id order.quantityLiters
    dto.confirmed.quantityLitres actorId
  let updated ← pushConfirmed order dto actorId
  return (updated, reconciliation)

def supersede (order : OrderDocument) (existing : SupplierInvoice) : Action Unit := do
  let at_ ← Tx.getTime
  let _ ← updateOrder order.id (fun o => o.supplierInvoices.any fun si => si.id = existing.id)
    fun o => { o with
      supplierInvoices := o.supplierInvoices.map fun si =>
        if si.id = existing.id then { si with supersededAt := some at_ } else si }
  return ()

def replaceSupplierInvoice (A : Arithmetic) (order : OrderDocument)
    (existing : Option SupplierInvoice) (dto : SupplierInvoiceInput) (actorId : Id) :
    Action (OrderDocument × ReconciliationResult) := do
  match existing with
  | some entry => supersede order entry
  | none => pure ()
  let reconciliation ← restateReconciliation A
    ⟨order.fuelCompanyId, order.clientId, dto.confirmed.fuelType⟩ order.id order.quantityLiters
    dto.confirmed.quantityLitres actorId
  let updated ← pushConfirmed order dto actorId
  return (updated, reconciliation)

/-! ### The timeout queue -/

def findJob (orderId : Id) : Action (Option (Option TimeoutJob)) :=
  Tx.find (Key.timeoutJob orderId)

/-- Adds the order's job; while one is there, adding another does nothing. -/
def scheduleTimeout (cfg : Settings) (orderId : Id) : Action Unit := do
  let timestamp ← Tx.getTime
  Tx.upsert (Key.timeoutJob orderId) (none : Option TimeoutJob) fun slot =>
    slot.or (some ⟨orderId, timestamp, cfg.paymentWindow⟩)

def cancelTimeout (orderId : Id) : Action Unit :=
  Tx.upsert (Key.timeoutJob orderId) (none : Option TimeoutJob) fun _ => none

end CiroFuel
