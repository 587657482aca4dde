import CiroFuel.Snapshot.Execution
import Mathlib.Algebra.Order.Ring.Rat

/-!
# The collections of the delivery platform

The documents that ordering, routing, dispatch, billing and reconciliation read
and write, with the unique indexes declared on them. Identifiers, gateway
transaction ids and payment references are opaque; instants are milliseconds;
money and litres are exact rationals, rounded where the services round them.

A stored document does not carry its own `_id`. The document types that the
services pass around pair the two, as the drivers of the database do.
-/
namespace CiroFuel

abbrev Id := ℕ
abbrev Instant := ℕ

inductive OrderStatus where
  | pendingApproval | approved | awaitingRouting | routedToTransport | assignedToDriver
  | pendingPayment | loading | inTransit | unloading | delivered | rejected | cancelled
deriving DecidableEq, Repr

inductive PaymentMethod where
  | direct | deferred | credit
deriving DecidableEq, Repr

inductive InvoiceState where
  | issued | settled | void
deriving DecidableEq, Repr

inductive UserRole where
  | superAdmin | fuelCompanyAdmin | transportCompanyAdmin | client | driver
deriving DecidableEq, Repr

inductive FuelType where
  | diesel | petrol91 | petrol95 | kerosene
deriving DecidableEq, Repr

inductive Currency where
  | sar | other (code : ℕ)
deriving DecidableEq, Repr

inductive TankMaterial where
  | iron | aluminium
deriving DecidableEq, Repr

inductive VerificationStage where
  | departure | loading
deriving DecidableEq, Repr

inductive VerificationMethod where
  | nfcCard | qrCode
deriving DecidableEq, Repr

inductive PaymentGateway where
  | sadad | mada
deriving DecidableEq, Repr

inductive PaymentEventOutcome where
  | confirmed | duplicate | outOfSequence | amountMismatch | invalidSignature
deriving DecidableEq, Repr

inductive LitreMovementKind where
  | shortfallCredit | excessDebit | orderDrawdown | drawdownReturned | correction
deriving DecidableEq, Repr

inductive AccountMovementKind where
  | commissionCharged | cashbackCredited | paymentRecorded | cashbackPaidOut
deriving DecidableEq, Repr

inductive AccountMovementState where
  | recorded | confirmed
deriving DecidableEq, Repr

inductive CommissionBasis where
  | percentage | perUnit
deriving DecidableEq, Repr

inductive CompanyType where
  | fuel | transport
deriving DecidableEq, Repr

inductive CompanyStatus where
  | active | suspended
deriving DecidableEq, Repr

/-- A position; coordinates are stored longitude first. -/
structure GeoPoint where
  longitude : ℚ
  latitude : ℚ
deriving DecidableEq

/-! ### Orders -/

/-- The itemised price. `deliveryFee` is absent until a transporter is chosen. -/
structure PriceBreakdown where
  fuelLineTotal : ℚ
  deliveryFee : Option ℚ
  serviceFee : ℚ
  tax : ℚ
  total : ℚ
  unitPrice : ℚ
  serviceFeePercent : ℚ
  taxRatePercent : ℚ
  pricedAt : Instant
deriving DecidableEq

structure StatusHistoryEntry where
  source : OrderStatus
  target : OrderStatus
  actorId : Id
  actorRole : UserRole
  at_ : Instant
  manualOverride : Bool := false
  overrideReason : Option String := none
deriving DecidableEq

structure DriverSummary where
  fullName : String
  phone : String
  plateNumber : String
deriving DecidableEq

structure ClientSummary where
  fullName : String
  phone : String
deriving DecidableEq

structure TankSummary where
  code : String
  material : TankMaterial
deriving DecidableEq

structure WarehouseSummary where
  name : String
  addressText : String
  location : GeoPoint
deriving DecidableEq

/-- One verification attempt, successful or not. -/
structure VehicleVerification where
  stage : VerificationStage
  method : VerificationMethod
  matched : Bool
  presentedTruckId : Option Id
  at_ : Instant
  driverLocation : Option GeoPoint
  distanceMeters : Option ℕ
  actorId : Id
deriving DecidableEq

structure ConfirmedSupplierInvoiceData where
  quantityLitres : ℚ
  fuelType : FuelType
  reference : String
  issueDate : Instant
deriving DecidableEq

structure SupplierInvoice where
  id : Id
  fileId : Id
  confirmed : Option ConfirmedSupplierInvoiceData
  confirmedBy : Option Id
  confirmedAt : Option Instant
  supersededAt : Option Instant := none
deriving DecidableEq

structure Order where
  fuelCompanyId : Id
  transportCompanyId : Option Id := none
  clientId : Id
  fuelType : FuelType
  quantityLiters : ℚ
  deliveryLocation : GeoPoint
  stationId : Option Id := none
  priceBreakdown : Option PriceBreakdown := none
  status : OrderStatus := .pendingApproval
  estimatedPrice : ℚ
  finalPrice : Option ℚ := none
  approvedBy : Option Id := none
  paymentMethod : PaymentMethod := .direct
  invoiceId : Option Id := none
  driverId : Option Id := none
  driverSummary : Option DriverSummary := none
  clientSummary : Option ClientSummary := none
  paymentDeadline : Option Instant := none
  paymentTimeoutCount : ℕ := 0
  paymentConfirmationId : Option Id := none
  statusHistory : List StatusHistoryEntry := []
  cancelledBy : Option Id := none
  cancellationReason : Option String := none
  rejectedBy : Option Id := none
  rejectionReason : Option String := none
  deliveredAt : Option Instant := none
  truckId : Option Id := none
  tankId : Option Id := none
  tankSummary : Option TankSummary := none
  warehouseId : Option Id := none
  warehouseSummary : Option WarehouseSummary := none
  verifications : List VehicleVerification := []
  loadingConfirmedAt : Option Instant := none
  assignedWhileIneligible : Bool := false
  assignedWhileIneligibleReason : Option String := none
  supplierInvoices : List SupplierInvoice := []
deriving DecidableEq

structure OrderDocument extends Order where
  id : Id
deriving DecidableEq

def Order.withId (o : Order) (id : Id) : OrderDocument := { o with id := id }

@[simp] theorem Order.withId_toOrder (o : Order) (id : Id) : (o.withId id).toOrder = o := rfl

@[simp] theorem Order.withId_id (o : Order) (id : Id) : (o.withId id).id = id := rfl

/-! ### People and vehicles -/

/-- Where a client takes deliveries. -/
structure StationInfo where
  regionCode : Option ℕ
  governorateCode : Option ℕ
  location : Option GeoPoint
deriving DecidableEq

structure User where
  role : UserRole
  companyId : Option Id := none
  fullName : String := ""
  phone : String := ""
  isActive : Bool := true
  isOnline : Bool := false
  isAvailable : Bool := true
  activeOrderId : Option Id := none
  location : Option GeoPoint := none
  station : Option StationInfo := none
  creditLimit : Option ℚ := none
deriving DecidableEq

structure Truck where
  companyId : Id
  plateNumber : String
  isActive : Bool := true
  activeOrderId : Option Id := none
deriving DecidableEq

structure Tank where
  companyId : Id
  code : String
  material : TankMaterial
  maxCapacityLiters : ℚ
  fuelTypes : List FuelType
  isActive : Bool := true
  activeOrderId : Option Id := none
deriving DecidableEq

/-! ### Money -/

structure Invoice where
  orderId : Id
  fuelCompanyId : Id
  clientId : Id
  transportCompanyId : Option Id
  amount : ℚ
  priceBreakdown : Option PriceBreakdown
  method : PaymentMethod
  state : InvoiceState
  payerRole : UserRole
  settledAt : Option Instant := none
  paymentReference : Option ℕ := none
deriving DecidableEq

structure InvoiceDocument extends Invoice where
  id : Id
deriving DecidableEq

def Invoice.withId (x : Invoice) (id : Id) : InvoiceDocument := { x with id := id }

structure PaymentEvent where
  gatewayTransactionId : ℕ
  gateway : PaymentGateway
  orderId : Id
  companyId : Id
  clientId : Option Id
  amount : ℚ
  currency : Currency
  outcome : PaymentEventOutcome
deriving DecidableEq

structure AccountMovement where
  companyId : Id
  kind : AccountMovementKind
  amount : ℚ
  state : AccountMovementState
  sourceInvoiceId : Option Id := none
  appliedRate : Option ℚ := none
  appliedBasis : Option CommissionBasis := none
  reference : Option ℕ := none
  confirmedBy : Option Id := none
  confirmedAt : Option Instant := none
  reversalOfId : Option Id := none
deriving DecidableEq

structure CommissionTerm where
  basis : CommissionBasis
  rate : ℚ
  effectiveFrom : Instant
deriving DecidableEq

structure CashbackProgramme where
  basis : CommissionBasis
  rate : ℚ
  isActive : Bool
  targetsAllCompanies : Bool
  targetCompanyIds : List Id
  effectiveFrom : Instant
deriving DecidableEq

/-! ### Litres -/

structure LitreMovement where
  id : Id
  kind : LitreMovementKind
  litres : ℚ
  orderId : Option Id
  reason : Option String := none
  actorId : Id
  at_ : Instant
deriving DecidableEq

/-- The balance of one owner for one grade; these three name it. -/
structure BalanceKey where
  companyId : Id
  clientId : Id
  fuelType : FuelType
deriving DecidableEq

structure LitreBalance where
  balanceLitres : ℚ := 0
  movements : List LitreMovement := []
  reconciledOrderIds : List Id := []
deriving DecidableEq

/-! ### Configuration kept in the database -/

structure DeliveryRate where
  regionCode : ℕ
  governorateCode : Option ℕ
  pricePerKm : ℚ
  minPrice : ℚ
deriving DecidableEq

structure PricingConfig where
  serviceFeePercent : ℚ
  taxRatePercent : ℚ
deriving DecidableEq

structure Company where
  type : CompanyType
  parentFuelCompanyId : Option Id := none
  status : CompanyStatus := .active
  servedRegions : List ℕ := []
  deliveryRates : List DeliveryRate := []
  fuelPrices : List (FuelType × ℚ) := []
  pricingConfig : Option PricingConfig := none
  commissionCeiling : Option ℚ := none
deriving DecidableEq

structure Warehouse where
  name : String
  addressText : String
  location : GeoPoint
  fuelTypes : List FuelType
  isActive : Bool := true
deriving DecidableEq

structure Station where
  clientId : Id
  regionCode : Option ℕ
  governorateCode : Option ℕ
  location : GeoPoint
  isActive : Bool := true
deriving DecidableEq

/-- A delayed job of the payment-timeout queue; its id is the order's. -/
structure TimeoutJob where
  orderId : Id
  timestamp : Instant
  delay : ℕ
deriving DecidableEq

/-- The instant from which a delayed job may be delivered. -/
def TimeoutJob.due (job : TimeoutJob) : Instant := job.timestamp + job.delay

/-! ### Keys, documents and unique indexes -/

inductive Key where
  | order (id : Id)
  | user (id : Id)
  | truck (id : Id)
  | tank (id : Id)
  | invoice (id : Id)
  | paymentEvent (id : Id)
  | accountMovement (id : Id)
  | litreBalance (key : BalanceKey)
  | commissionTerm (id : Id)
  | cashbackProgramme (id : Id)
  | company (id : Id)
  | warehouse (id : Id)
  | station (id : Id)
  | timeoutJob (orderId : Id)
deriving DecidableEq

/-- The documents under each kind of key. A finished or removed job leaves an
empty slot, so that no key ever loses its document. -/
@[reducible] def Doc : Key → Type
  | .order _ => Order
  | .user _ => User
  | .truck _ => Truck
  | .tank _ => Tank
  | .invoice _ => Invoice
  | .paymentEvent _ => PaymentEvent
  | .accountMovement _ => AccountMovement
  | .litreBalance _ => LitreBalance
  | .commissionTerm _ => CommissionTerm
  | .cashbackProgramme _ => CashbackProgramme
  | .company _ => Company
  | .warehouse _ => Warehouse
  | .station _ => Station
  | .timeoutJob _ => Option TimeoutJob

/-- Entries of the unique indexes other than `_id`. -/
inductive IndexEntry where
  | invoiceOrderId (orderId : Id)
  | gatewayTransactionId (transactionId : ℕ)
  | userActiveOrderId (orderId : Id)
  | truckActiveOrderId (orderId : Id)
  | tankActiveOrderId (orderId : Id)
  | payoutReference (companyId : Id) (reference : ℕ)
  | reconciledOrderId (orderId : Id)
deriving DecidableEq

/-- The index is partial: it holds cashback payouts that name a reference. -/
def AccountMovement.payoutEntries (m : AccountMovement) : List IndexEntry :=
  match m.kind, m.reference with
  | .cashbackPaidOut, some r => [.payoutReference m.companyId r]
  | _, _ => []

instance : Snapshot.Indexed Doc IndexEntry where
  entries
    | .user _, (u : User) => (u.activeOrderId.map IndexEntry.userActiveOrderId).toList
    | .truck _, (t : Truck) => (t.activeOrderId.map IndexEntry.truckActiveOrderId).toList
    | .tank _, (t : Tank) => (t.activeOrderId.map IndexEntry.tankActiveOrderId).toList
    | .invoice _, (x : Invoice) => [.invoiceOrderId x.orderId]
    | .paymentEvent _, (e : PaymentEvent) => [.gatewayTransactionId e.gatewayTransactionId]
    | .accountMovement _, (m : AccountMovement) => m.payoutEntries
    | .litreBalance _, (b : LitreBalance) => b.reconciledOrderIds.map IndexEntry.reconciledOrderId
    | _, _ => []

abbrev Db := Snapshot.Store Doc

/-! The committed documents, by collection. -/
namespace Snapshot.Store

def order (s : Store Doc) (id : Id) : Option Order := s.find (Key.order id)
def user (s : Store Doc) (id : Id) : Option User := s.find (Key.user id)
def truck (s : Store Doc) (id : Id) : Option Truck := s.find (Key.truck id)
def tank (s : Store Doc) (id : Id) : Option Tank := s.find (Key.tank id)
def invoice (s : Store Doc) (id : Id) : Option Invoice := s.find (Key.invoice id)
def paymentEvent (s : Store Doc) (id : Id) : Option PaymentEvent := s.find (Key.paymentEvent id)
def litreBalance (s : Store Doc) (key : BalanceKey) : Option LitreBalance :=
  s.find (Key.litreBalance key)

end Snapshot.Store
end CiroFuel
