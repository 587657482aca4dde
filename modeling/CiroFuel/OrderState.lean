import CiroFuel.Schemas

/-!
# The order state machine

`transition` is the one method through which an order changes status: it checks
the edge, then rewrites the order if its stored status is still the expected
one, appending the audit entry in the same write. Callers may set or unset
further fields in that write; they cannot name the status, the history or the
delivery instant, which the method owns.
-/
namespace CiroFuel
open Snapshot

/-- Refusals of the services, with the data their messages carry. -/
inductive Refusal where
  | invalidTransition (source target : OrderStatus)
  | manualOverrideRequired (source target : OrderStatus)
  | conflictingUpdate
  | orderNotFound
  | unexpectedStatus (existing target expected : OrderStatus)
  | clientWithoutCompany
  | userNotFound
  | clientNotFound
  | stationNotFound
  | stationRequired
  | noDeliveryLocation
  | pricingNotConfigured
  | quoteExpired
  | quoteStale
  | noStationRegion
  | transporterNotServing
  | transportCompanyNotFound
  | transportPriceNotSet
  | noWarehouseForGrade
  | creditLimitExceeded (amount available : ℚ)
  | commissionCeilingExceeded (balance ceiling : ℚ)
  | noInvoiceForOrder (orderId : Id)
  | invoiceNotFound
  | notRoutable
  | orderNotAwaitingConfirmation
  | directIsConfirmedByPaying
  | notPermitted
  | clientMayNotCancel
  | noLongerCancellable
  | notApproved
  | twoPaymentTimeouts
  | alreadyDeparted
  | notEligibleForAssignment (orderId : Id)
  | assignmentReasonRequired
  | driverUnavailable
  | truckUnavailable
  | tankUnavailable
  | tankCapacityExceeded
  | tankGradeUnsupported
  | orderAlreadyAssigned
  | noVerificationPending
  | vehicleMismatch
  | notAtWarehouse (distanceMeters radiusMeters : ℕ)
  | noWarehouseToVerify
  | locationRequired
  | vehicleNotVerified
  | noStageOutstanding
  | wrongStatus (expected : OrderStatus)
  | wrongOtp
  | notForceCompletable
  | invalidSignature
  | unknownOrderId (orderId : Id)
  | supplierInvoiceOrderNotEligible (status : OrderStatus)
  | supplierInvoiceGradeMismatch (confirmed ordered : FuelType)
  | supplierInvoiceAlreadyRecorded
  | drawdownConflict
  | correctionReasonRequired
  | balanceNotFound
  | paymentEvidenceRequired
  | paymentAlreadyConfirmed
  | payoutExceedsBalance (amount owed : ℚ)
  | payoutDuplicateReference
deriving DecidableEq

abbrev Action := Tx Doc Refusal

structure TransitionRule where
  target : OrderStatus
  requiresManualOverride : Bool := false
deriving DecidableEq

def transitions : OrderStatus → List TransitionRule
  | .pendingApproval => [⟨.approved, false⟩, ⟨.rejected, false⟩, ⟨.cancelled, false⟩]
  | .approved =>
      [⟨.pendingPayment, false⟩, ⟨.awaitingRouting, false⟩, ⟨.routedToTransport, false⟩,
        ⟨.cancelled, false⟩]
  | .awaitingRouting => [⟨.routedToTransport, false⟩, ⟨.cancelled, false⟩]
  | .routedToTransport =>
      [⟨.assignedToDriver, false⟩, ⟨.pendingPayment, false⟩, ⟨.cancelled, false⟩]
  | .assignedToDriver => [⟨.loading, false⟩, ⟨.cancelled, false⟩]
  | .pendingPayment => [⟨.routedToTransport, false⟩, ⟨.approved, false⟩, ⟨.cancelled, false⟩]
  | .loading => [⟨.inTransit, false⟩, ⟨.cancelled, false⟩, ⟨.delivered, true⟩]
  | .inTransit => [⟨.unloading, false⟩, ⟨.delivered, true⟩]
  | .unloading => [⟨.delivered, false⟩]
  | .delivered => []
  | .rejected => []
  | .cancelled => []

/-- The edge exists, and the caller overrides it where that is required. -/
def permits (source target : OrderStatus) (manualOverride : Bool) : Bool :=
  match (transitions source).find? fun r => r.target = target with
  | some rule => !rule.requiresManualOverride || manualOverride
  | none => false

structure TransitionActor where
  actorId : Id
  actorRole : UserRole
deriving DecidableEq

/-- The identity of transitions made by the platform itself. -/
def systemActor : TransitionActor := ⟨0, .superAdmin⟩

/-- The order fields a caller of `transition` may name. -/
inductive OrderPath where
  | fuelCompanyId | transportCompanyId | clientId | fuelType | quantityLiters
  | deliveryLocation | stationId | priceBreakdown | estimatedPrice | finalPrice | approvedBy
  | paymentMethod | invoiceId | driverId | driverSummary | clientSummary | paymentDeadline
  | paymentTimeoutCount | paymentConfirmationId | cancelledBy | cancellationReason
  | rejectedBy | rejectionReason | truckId | tankId | tankSummary | warehouseId
  | warehouseSummary | verifications | loadingConfirmedAt | assignedWhileIneligible
  | assignedWhileIneligibleReason | supplierInvoices
deriving DecidableEq

/-- One field of `$set`, with its value. -/
inductive OrderField where
  | fuelCompanyId (v : Id)
  | transportCompanyId (v : Id)
  | clientId (v : Id)
  | fuelType (v : FuelType)
  | quantityLiters (v : ℚ)
  | deliveryLocation (v : GeoPoint)
  | stationId (v : Id)
  | priceBreakdown (v : PriceBreakdown)
  | estimatedPrice (v : ℚ)
  | finalPrice (v : ℚ)
  | approvedBy (v : Id)
  | paymentMethod (v : PaymentMethod)
  | invoiceId (v : Id)
  | driverId (v : Id)
  | driverSummary (v : DriverSummary)
  | clientSummary (v : ClientSummary)
  | paymentDeadline (v : Instant)
  | paymentTimeoutCount (v : ℕ)
  | paymentConfirmationId (v : Id)
  | cancelledBy (v : Id)
  | cancellationReason (v : Option String)
  | rejectedBy (v : Id)
  | rejectionReason (v : String)
  | truckId (v : Id)
  | tankId (v : Id)
  | tankSummary (v : TankSummary)
  | warehouseId (v : Id)
  | warehouseSummary (v : WarehouseSummary)
  | verifications (v : List VehicleVerification)
  | loadingConfirmedAt (v : Instant)
  | assignedWhileIneligible (v : Bool)
  | assignedWhileIneligibleReason (v : Option String)
  | supplierInvoices (v : List SupplierInvoice)
deriving DecidableEq

namespace OrderField

def path : OrderField → OrderPath
  | fuelCompanyId _ => .fuelCompanyId
  | transportCompanyId _ => .transportCompanyId
  | clientId _ => .clientId
  | fuelType _ => .fuelType
  | quantityLiters _ => .quantityLiters
  | deliveryLocation _ => .deliveryLocation
  | stationId _ => .stationId
  | priceBreakdown _ => .priceBreakdown
  | estimatedPrice _ => .estimatedPrice
  | finalPrice _ => .finalPrice
  | approvedBy _ => .approvedBy
  | paymentMethod _ => .paymentMethod
  | invoiceId _ => .invoiceId
  | driverId _ => .driverId
  | driverSummary _ => .driverSummary
  | clientSummary _ => .clientSummary
  | paymentDeadline _ => .paymentDeadline
  | paymentTimeoutCount _ => .paymentTimeoutCount
  | paymentConfirmationId _ => .paymentConfirmationId
  | cancelledBy _ => .cancelledBy
  | cancellationReason _ => .cancellationReason
  | rejectedBy _ => .rejectedBy
  | rejectionReason _ => .rejectionReason
  | truckId _ => .truckId
  | tankId _ => .tankId
  | tankSummary _ => .tankSummary
  | warehouseId _ => .warehouseId
  | warehouseSummary _ => .warehouseSummary
  | verifications _ => .verifications
  | loadingConfirmedAt _ => .loadingConfirmedAt
  | assignedWhileIneligible _ => .assignedWhileIneligible
  | assignedWhileIneligibleReason _ => .assignedWhileIneligibleReason
  | supplierInvoices _ => .supplierInvoices

/-- The effect of the field under `$set`. Immutable paths are stripped from the
update, so setting them does nothing. -/
def set (o : Order) : OrderField → Order
  | fuelCompanyId _ => o
  | clientId _ => o
  | transportCompanyId v => { o with transportCompanyId := some v }
  | fuelType v => { o with fuelType := v }
  | quantityLiters v => { o with quantityLiters := v }
  | deliveryLocation v => { o with deliveryLocation := v }
  | stationId v => { o with stationId := some v }
  | priceBreakdown v => { o with priceBreakdown := some v }
  | estimatedPrice v => { o with estimatedPrice := v }
  | finalPrice v => { o with finalPrice := some v }
  | approvedBy v => { o with approvedBy := some v }
  | paymentMethod v => { o with paymentMethod := v }
  | invoiceId v => { o with invoiceId := some v }
  | driverId v => { o with driverId := some v }
  | driverSummary v => { o with driverSummary := some v }
  | clientSummary v => { o with clientSummary := some v }
  | paymentDeadline v => { o with paymentDeadline := some v }
  | paymentTimeoutCount v => { o with paymentTimeoutCount := v }
  | paymentConfirmationId v => { o with paymentConfirmationId := some v }
  | cancelledBy v => { o with cancelledBy := some v }
  | cancellationReason v => { o with cancellationReason := v }
  | rejectedBy v => { o with rejectedBy := some v }
  | rejectionReason v => { o with rejectionReason := some v }
  | truckId v => { o with truckId := some v }
  | tankId v => { o with tankId := some v }
  | tankSummary v => { o with tankSummary := some v }
  | warehouseId v => { o with warehouseId := some v }
  | warehouseSummary v => { o with warehouseSummary := some v }
  | verifications v => { o with verifications := v }
  | loadingConfirmedAt v => { o with loadingConfirmedAt := some v }
  | assignedWhileIneligible v => { o with assignedWhileIneligible := v }
  | assignedWhileIneligibleReason v => { o with assignedWhileIneligibleReason := v }
  | supplierInvoices v => { o with supplierInvoices := v }

end OrderField

/-- The effect of a path under `$unset`. The paths the schema requires are never
unset and are left alone here. -/
def OrderPath.unset (o : Order) : OrderPath → Order
  | .transportCompanyId => { o with transportCompanyId := none }
  | .stationId => { o with stationId := none }
  | .priceBreakdown => { o with priceBreakdown := none }
  | .finalPrice => { o with finalPrice := none }
  | .approvedBy => { o with approvedBy := none }
  | .invoiceId => { o with invoiceId := none }
  | .driverId => { o with driverId := none }
  | .driverSummary => { o with driverSummary := none }
  | .clientSummary => { o with clientSummary := none }
  | .paymentDeadline => { o with paymentDeadline := none }
  | .paymentTimeoutCount => { o with paymentTimeoutCount := 0 }
  | .paymentConfirmationId => { o with paymentConfirmationId := none }
  | .cancelledBy => { o with cancelledBy := none }
  | .cancellationReason => { o with cancellationReason := none }
  | .rejectedBy => { o with rejectedBy := none }
  | .rejectionReason => { o with rejectionReason := none }
  | .truckId => { o with truckId := none }
  | .tankId => { o with tankId := none }
  | .tankSummary => { o with tankSummary := none }
  | .warehouseId => { o with warehouseId := none }
  | .warehouseSummary => { o with warehouseSummary := none }
  | .verifications => { o with verifications := [] }
  | .loadingConfirmedAt => { o with loadingConfirmedAt := none }
  | .assignedWhileIneligible => { o with assignedWhileIneligible := false }
  | .assignedWhileIneligibleReason => { o with assignedWhileIneligibleReason := none }
  | .supplierInvoices => { o with supplierInvoices := [] }
  | _ => o

structure TransitionOptions where
  manualOverride : Bool := false
  overrideReason : Option String := none
  /-- Additional fields applied atomically with the status change. -/
  extraSet : List OrderField := []
  /-- Fields removed atomically with the status change. -/
  extraUnset : List OrderPath := []
deriving DecidableEq

/-- No path is both set and unset; the database refuses an update that does. -/
def TransitionOptions.coherent (options : TransitionOptions) : Bool :=
  options.extraSet.all fun f => !options.extraUnset.contains f.path

def historyEntry (source target : OrderStatus) (actor : TransitionActor)
    (options : TransitionOptions) (at_ : Instant) : StatusHistoryEntry where
  source := source
  target := target
  actorId := actor.actorId
  actorRole := actor.actorRole
  at_ := at_
  manualOverride := options.manualOverride
  overrideReason := if options.manualOverride then options.overrideReason else none

/-- The update of a transition: status, history and the caller's own fields. -/
def Order.transitioned (o : Order) (entry : StatusHistoryEntry) (options : TransitionOptions) :
    Order :=
  let moved : Order :=
    { o with
      status := entry.target
      deliveredAt := if entry.target = .delivered then some entry.at_ else o.deliveredAt
      statusHistory := o.statusHistory ++ [entry] }
  options.extraUnset.foldl OrderPath.unset (options.extraSet.foldl OrderField.set moved)

def findOrder (id : Id) : Action (Option Order) := Tx.find (Key.order id)

def updateOrder (id : Id) (filter : Order → Bool) (update : Order → Order) :
    Action (Option Order) :=
  Tx.findOneAndUpdate (Key.order id) filter update

def transition (orderId : Id) (source target : OrderStatus) (actor : TransitionActor)
    (options : TransitionOptions := {}) : Action OrderDocument := do
  match (transitions source).find? fun r => r.target = target with
  | none => Tx.throw (.invalidTransition source target)
  | some rule =>
    if rule.requiresManualOverride && !options.manualOverride then
      Tx.throw (.manualOverrideRequired source target)
    else if !options.coherent then
      Tx.throw .conflictingUpdate
    else
      let at_ ← Tx.getTime
      let entry := historyEntry source target actor options at_
      match ← updateOrder orderId (fun o => o.status = source) (·.transitioned entry options) with
      | some updated => pure (updated.withId orderId)
      | none =>
        -- Only the refusal depends on this second read.
        match ← findOrder orderId with
        | none => Tx.throw .orderNotFound
        | some existing => Tx.throw (.unexpectedStatus existing.status target source)

section transitioned
variable (o : Order) (entry : StatusHistoryEntry) (options : TransitionOptions)

@[simp] theorem OrderField.set_owned (f : OrderField) :
    (f.set o).status = o.status ∧ (f.set o).statusHistory = o.statusHistory ∧
      (f.set o).deliveredAt = o.deliveredAt := by
  cases f <;> exact ⟨rfl, rfl, rfl⟩

@[simp] theorem OrderPath.unset_owned (p : OrderPath) :
    (p.unset o).status = o.status ∧ (p.unset o).statusHistory = o.statusHistory ∧
      (p.unset o).deliveredAt = o.deliveredAt := by
  cases p <;> exact ⟨rfl, rfl, rfl⟩

theorem foldl_owned {α β : Type} (proj : Order → β) (step : Order → α → Order)
    (h : ∀ o a, proj (step o a) = proj o) (as : List α) (o : Order) :
    proj (as.foldl step o) = proj o := by
  induction as generalizing o with
  | nil => rfl
  | cons a as ih => rw [List.foldl_cons, ih, h]

@[simp] theorem Order.transitioned_status : (o.transitioned entry options).status = entry.target := by
  unfold Order.transitioned
  rw [foldl_owned Order.status OrderPath.unset fun o p => (p.unset_owned o).1]
  rw [foldl_owned Order.status OrderField.set fun o f => (f.set_owned o).1]

@[simp] theorem Order.transitioned_statusHistory :
    (o.transitioned entry options).statusHistory = o.statusHistory ++ [entry] := by
  unfold Order.transitioned
  rw [foldl_owned Order.statusHistory OrderPath.unset fun o p => (p.unset_owned o).2.1]
  rw [foldl_owned Order.statusHistory OrderField.set fun o f => (f.set_owned o).2.1]

@[simp] theorem Order.transitioned_deliveredAt :
    (o.transitioned entry options).deliveredAt =
      if entry.target = .delivered then some entry.at_ else o.deliveredAt := by
  unfold Order.transitioned
  rw [foldl_owned Order.deliveredAt OrderPath.unset fun o p => (p.unset_owned o).2.2]
  rw [foldl_owned Order.deliveredAt OrderField.set fun o f => (f.set_owned o).2.2]

@[simp] theorem historyEntry_source (source target : OrderStatus) (actor : TransitionActor)
    (at_ : Instant) : (historyEntry source target actor options at_).source = source := rfl

@[simp] theorem historyEntry_target (source target : OrderStatus) (actor : TransitionActor)
    (at_ : Instant) : (historyEntry source target actor options at_).target = target := rfl

@[simp] theorem historyEntry_at (source target : OrderStatus) (actor : TransitionActor)
    (at_ : Instant) : (historyEntry source target actor options at_).at_ = at_ := rfl

@[simp] theorem historyEntry_manualOverride (source target : OrderStatus) (actor : TransitionActor)
    (at_ : Instant) :
    (historyEntry source target actor options at_).manualOverride = options.manualOverride := rfl

end transitioned

/-- Everything a transition that returns has done. -/
theorem transition_ok {env : Env} {v w : View Doc} {id : Id} {source target : OrderStatus}
    {actor : TransitionActor} {options : TransitionOptions} {r : OrderDocument}
    (h : (transition id source target actor options).run env v = .ok (r, w)) :
    ∃ o entry, v.find (.order id) = some o ∧ o.status = source ∧
      permits source target options.manualOverride = true ∧
      entry = historyEntry source target actor options (env.time v.readings) ∧
      r = (o.transitioned entry options).withId id ∧
      w = View.put { v with readings := v.readings + 1 } (.order id)
        (o.transitioned entry options) := by
  unfold transition at h
  split at h
  · exact (Tx.throw_ok h).elim
  · rename_i rule hrule
    split_ifs at h with hoverride hcoherent
    · exact (Tx.throw_ok h).elim
    · exact (Tx.throw_ok h).elim
    · obtain ⟨t, u, ht, h⟩ := Tx.bind_ok h
      obtain ⟨rfl, rfl⟩ := Tx.getTime_ok ht
      obtain ⟨updated, u, hu, h⟩ := Tx.bind_ok h
      rcases Tx.findOneAndUpdate_ok hu with ⟨o, ho, hstatus, -, rfl, rfl⟩ | ⟨rfl, rfl, -⟩
      · obtain ⟨rfl, rfl⟩ := Tx.pure_ok h
        refine ⟨o, _, ho, of_decide_eq_true hstatus, ?_, rfl, rfl, rfl⟩
        simp only [permits, hrule]
        cases hr : rule.requiresManualOverride <;> simp_all
      · obtain ⟨existing, u, -, h⟩ := Tx.bind_ok h
        cases existing <;> exact (Tx.throw_ok h).elim

end CiroFuel
