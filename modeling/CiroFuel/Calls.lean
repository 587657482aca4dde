import CiroFuel.Operations

/-!
# The calls of the platform

Every write the modelled handlers make, as a label with the arguments the
handler passes. The order in a label is the document its handler read, so a
condition on a run can compare it with what is stored when the call commits.
-/
namespace CiroFuel
open Snapshot

/-- Writes of administrators to reference data. None of them touches a booking
except deactivation, which releases the driver's. -/
inductive AdminEdit where
  | putCompany (id : Id) (c : Company)
  | putWarehouse (id : Id) (w : Warehouse)
  | putStation (id : Id) (s : Station)
  | addCommissionTerm (id : Id) (t : CommissionTerm)
  | addCashbackProgramme (id : Id) (p : CashbackProgramme)
  | addUser (id : Id) (role : UserRole) (companyId : Option Id) (fullName phone : String)
      (station : Option StationInfo)
  | setCreditLimit (id : Id) (limit : ℚ)
  | setOnline (id : Id) (online : Bool) (location : Option GeoPoint)
  | deactivateUser (id : Id)
  | activateUser (id : Id)
  | addTruck (id companyId : Id) (plateNumber : String)
  | setTruckActive (id : Id) (active : Bool)
  | addTank (id companyId : Id) (code : String) (material : TankMaterial)
      (maxCapacityLiters : ℚ) (fuelTypes : List FuelType)
  | setTankActive (id : Id) (active : Bool)

def AdminEdit.body : AdminEdit → Action Unit
  | .putCompany id c => Tx.upsert (Key.company id) c fun _ => c
  | .putWarehouse id w => Tx.upsert (Key.warehouse id) w fun _ => w
  | .putStation id s => Tx.upsert (Key.station id) s fun _ => s
  | .addCommissionTerm id t => Tx.insert (Key.commissionTerm id) t
  | .addCashbackProgramme id p => Tx.insert (Key.cashbackProgramme id) p
  | .addUser id role companyId fullName phone station =>
      Tx.insert (Key.user id)
        ({ role := role, companyId := companyId, fullName := fullName, phone := phone,
           station := station } : User)
  | .setCreditLimit id limit => do
      let _ ← updateUser id (fun _ => true) fun u => { u with creditLimit := some limit }
  | .setOnline id online location => do
      let _ ← updateUser id (fun _ => true) fun u =>
        { u with isOnline := online, location := location.or u.location }
  | .deactivateUser id => do
      let _ ← updateUser id (fun _ => true) fun u => { u with isActive := false }
      let _ ← updateUser id (fun u => u.activeOrderId.isSome) fun u =>
        { u with isAvailable := true, activeOrderId := none }
  | .activateUser id => do
      let _ ← updateUser id (fun _ => true) fun u => { u with isActive := true }
  | .addTruck id companyId plateNumber =>
      Tx.insert (Key.truck id) ({ companyId := companyId, plateNumber := plateNumber } : Truck)
  | .setTruckActive id active => do
      let _ ← updateTruck id (fun _ => true) fun t => { t with isActive := active }
  | .addTank id companyId code material maxCapacityLiters fuelTypes =>
      Tx.insert (Key.tank id)
        ({ companyId := companyId, code := code, material := material,
           maxCapacityLiters := maxCapacityLiters, fuelTypes := fuelTypes } : Tank)
  | .setTankActive id active => do
      let _ ← updateTank id (fun _ => true) fun t => { t with isActive := active }

structure PaymentWebhook where
  transactionId : ℕ
  orderId : Id
  amount : ℚ
  currency : Currency
  /-- The gateway's status reads `PAID`. -/
  paid : Bool
deriving DecidableEq

inductive Call where
  | create (fields : OrderFields) (userId : Id)
  | approve (order : OrderDocument) (actor : TransitionActor) (finalPrice : Option ℚ)
  | reject (orderId : Id) (actor : TransitionActor) (reason : String)
  | awaitRouting (order : OrderDocument) (actor : TransitionActor)
  | route (order : OrderDocument) (source : OrderStatus) (transportCompanyId : Id)
      (deliveryFee : ℚ) (actor : TransitionActor)
  | reopen (order : OrderDocument) (actor : TransitionActor)
  | accept (order : OrderDocument) (actor : TransitionActor)
  | recordInvalid (gateway : PaymentGateway) (dto : PaymentWebhook)
  | recordPaid (gateway : PaymentGateway) (dto : PaymentWebhook) (order : OrderDocument)
  | markOutcome (eventId : Id) (outcome : PaymentEventOutcome)
  | settle (order : OrderDocument) (eventId : Id) (transactionId : ℕ)
  | timeOut (job : TimeoutJob) (order : OrderDocument)
  | settleInvoice (invoiceId : Id) (paymentReference : Option ℕ)
  | assign (order : OrderDocument) (a : Assignment)
  | reassign (order : OrderDocument) (truckId tankId : Id)
  | cancel (order : OrderDocument) (actor : TransitionActor) (reason : Option String)
  | complete (order : OrderDocument) (actor : TransitionActor)
  | forceComplete (order : OrderDocument) (actor : TransitionActor) (reason : String)
  | verify (order : OrderDocument) (attempt : VehicleVerification) (actor : TransitionActor)
  | confirmLoading (order : OrderDocument) (actor : TransitionActor) (at_ : Instant)
  | overrideDeparture (order : OrderDocument) (actor : TransitionActor) (reason : String)
  | overrideLoading (order : OrderDocument) (actor : TransitionActor) (reason : String)
      (at_ : Instant)
  | verifyArrival (order : OrderDocument) (actor : TransitionActor)
  | confirmInvoice (order : OrderDocument) (dto : SupplierInvoiceInput) (actorId : Id)
  | replaceInvoice (order : OrderDocument) (dto : SupplierInvoiceInput) (actorId : Id)
  | correct (key : BalanceKey) (litres : ℚ) (reason : String) (actorId : Id)
  | recordPayment (companyId : Id) (amount : ℚ) (reference : Option ℕ)
  | confirmPayment (movementId confirmedBy : Id)
  | recordCashbackPayout (companyId : Id) (amount : ℚ) (reference : ℕ) (confirmedBy : Id)
  | schedule (orderId : Id)
  | unschedule (orderId : Id)
  | finishJob (job : TimeoutJob)
  | administer (edit : AdminEdit)

namespace Call

@[reducible] def Reply : Call → Type
  | .create .. => OrderDocument × DrawdownResult
  | .recordInvalid .. => Id
  | .recordPaid .. => Id
  | .markOutcome .. => Bool
  | .settleInvoice .. => InvoiceDocument
  | .confirmInvoice .. => OrderDocument × ReconciliationResult
  | .replaceInvoice .. => OrderDocument × ReconciliationResult
  | .correct .. => LitreBalance
  | .recordPayment .. => Id
  | .confirmPayment .. => AccountMovement
  | .recordCashbackPayout .. => Id
  | .schedule _ => Unit
  | .unschedule _ => Unit
  | .finishJob _ => Unit
  | .administer _ => Unit
  | _ => OrderDocument

def body (cfg : Settings) : (c : Call) → Action c.Reply
  | .create fields userId => createWithDrawdown cfg.arithmetic fields userId
  | .approve order actor finalPrice => CiroFuel.approve order actor finalPrice
  | .reject orderId actor reason => CiroFuel.reject orderId actor reason
  | .awaitRouting order actor => CiroFuel.awaitRouting order.id .approved actor
  | .route order source transportCompanyId deliveryFee actor =>
      routeToTransport cfg order source transportCompanyId deliveryFee actor
  | .reopen order actor => enterPendingPayment cfg order actor
  | .accept order actor => settleAndResume order actor
  | .recordInvalid gateway dto => do
      -- An unauthenticated call names no company; a generated id fills the field.
      let companyId ← Tx.freshId
      createPaymentEvent
        { gatewayTransactionId := dto.transactionId, gateway := gateway, orderId := dto.orderId
          companyId := companyId, clientId := none, amount := dto.amount
          currency := dto.currency, outcome := .invalidSignature }
  | .recordPaid gateway dto order =>
      createPaymentEvent
        { gatewayTransactionId := dto.transactionId, gateway := gateway, orderId := order.id
          companyId := order.fuelCompanyId, clientId := some order.clientId
          amount := dto.amount, currency := dto.currency, outcome := .confirmed }
  | .markOutcome eventId outcome => CiroFuel.markOutcome eventId outcome
  | .settle order eventId transactionId => confirmPaid cfg.arithmetic order eventId transactionId
  | .timeOut _ order => CiroFuel.timeOut order
  | .settleInvoice invoiceId paymentReference => settleById cfg.arithmetic invoiceId paymentReference
  | .assign order a => assignDriver order a
  | .reassign order truckId tankId => reassignVehicle order truckId tankId
  | .cancel order actor reason => CiroFuel.cancel cfg.arithmetic order order.status actor reason
  | .complete order actor => completeDelivery order actor
  | .forceComplete order actor reason => CiroFuel.forceComplete order order.status actor reason
  | .verify order attempt actor => recordVerification order attempt actor
  | .confirmLoading order actor at_ => CiroFuel.confirmLoading order.id actor at_
  | .overrideDeparture order actor reason => CiroFuel.overrideDeparture order.id actor reason
  | .overrideLoading order actor reason at_ => CiroFuel.overrideLoading order.id actor reason at_
  | .verifyArrival order actor => CiroFuel.verifyArrival order.id actor
  | .confirmInvoice order dto actorId => confirmSupplierInvoice cfg.arithmetic order dto actorId
  | .replaceInvoice order dto actorId =>
      replaceSupplierInvoice cfg.arithmetic order order.currentEntry dto actorId
  | .correct key litres reason actorId => recordCorrection cfg.arithmetic key litres reason actorId
  | .recordPayment companyId amount reference => CiroFuel.recordPayment companyId amount reference
  | .confirmPayment movementId confirmedBy => CiroFuel.confirmPayment movementId confirmedBy
  | .recordCashbackPayout companyId amount reference confirmedBy =>
      CiroFuel.recordCashbackPayout cfg.arithmetic companyId amount reference confirmedBy
  | .schedule orderId => scheduleTimeout cfg orderId
  | .unschedule orderId => cancelTimeout orderId
  | .finishJob job =>
      Tx.upsert (Key.timeoutJob job.orderId) (none : Option TimeoutJob) fun slot =>
        if slot = some job then none else slot
  | .administer edit => edit.body

/-- The calls made inside a transaction; each of the others is one atomic write. -/
def isolated : Call → Bool
  | .create .. | .approve .. | .route .. | .settle .. | .timeOut .. | .settleInvoice ..
  | .assign .. | .reassign .. | .cancel .. | .complete .. | .forceComplete .. | .verify ..
  | .confirmInvoice .. | .replaceInvoice .. | .recordCashbackPayout .. | .administer _ => true
  | _ => false

end Call
end CiroFuel
