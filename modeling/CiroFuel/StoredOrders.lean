import CiroFuel.Schemas

/-!
# Stored orders

An order as the collection holds it: the fields the lifecycle works on and those
that only other features write or that the driver's side reports.
-/
namespace CiroFuel

inductive OtpPurpose where
  | arrival | delivery
deriving DecidableEq, Repr

structure OtpRecord where
  purpose : OtpPurpose
  hash : String
  salt : String
  expiresAt : Instant
  usedAt : Option Instant := none
  attempts : ℕ := 0
  createdAt : Instant
deriving DecidableEq

inductive EscalationSkipReason where
  | noPhone | sendFailed
deriving DecidableEq, Repr

inductive StopOrigin where
  | detected | declared | blocked
deriving DecidableEq, Repr

inductive StopReason where
  | traffic | vehicleProblem | restOrPrayer | refuelling | roadClosure | accident | other
deriving DecidableEq, Repr

structure StopEvent where
  id : Id
  origin : StopOrigin
  detectedAt : Instant
  location : Option GeoPoint := none
  reason : Option StopReason := none
  reasonText : Option String := none
  reasonGivenAt : Option Instant := none
  expectedDurationMinutes : Option ℚ := none
  suppressedUntil : Option Instant := none
  escalatedAt : Option Instant := none
  resolvedAt : Option Instant := none
  resolvedBy : Option Id := none
deriving DecidableEq

structure ExtractedSupplierInvoiceData where
  quantityLitres : Option ℚ := none
  fuelType : Option FuelType := none
  reference : Option String := none
  issueDate : Option Instant := none
deriving DecidableEq

structure StoredOrder extends OrderDocument where
  deliveryAddressText : String := ""
  otps : List OtpRecord := []
  assignmentAcknowledgedAt : Option Instant := none
  assignmentEscalationSmsAt : Option Instant := none
  assignmentEscalationSkippedReason : Option EscalationSkipReason := none
  stopEvents : List StopEvent := []
  /-- What was read from the documents of the supplier invoices. -/
  extracted : List (Id × ExtractedSupplierInvoiceData) := []
  createdAt : Instant
  updatedAt : Instant
deriving DecidableEq

end CiroFuel
