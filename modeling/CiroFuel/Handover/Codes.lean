import CiroFuel.Otp.Primitives
import CiroFuel.StoredOrders
import CiroFuel.Snapshot.Execution

/-!
# One-time codes of an order

The arrival and the delivery of an order are confirmed by codes, which the order
holds in an array. A code has no identity of its own there: the service addresses
it by the place where it found it, in an operation that comes later.
-/
namespace CiroFuel.Handover
open Snapshot

/-- An element of the array. Setting a field past the end of it leaves `null`s, and one element
that has this field only. -/
inductive Slot where
  | null
  | marked
  | code (r : OtpRecord)
deriving DecidableEq

namespace Slot

def record : Slot → Option OtpRecord
  | .code r => some r
  | _ => none

def any (p : OtpRecord → Bool) : Slot → Bool
  | .code r => p r
  | _ => false

def map (f : OtpRecord → OtpRecord) : Slot → Slot
  | .code r => .code (f r)
  | x => x

end Slot

structure OrderCodes where
  otps : List Slot := []
deriving DecidableEq

@[reducible] def Doc : Id → Type := fun _ => OrderCodes

instance : Indexed Doc Empty where
  entries _ _ := []

structure HttpError where
  status : ℕ
  message : String
deriving DecidableEq, Repr

def orderNotFound : HttpError := ⟨409, "Order not found"⟩

def unauthorized (message : String) : HttpError := ⟨401, message⟩

/-- What an error becomes that nothing catches. -/
def internal : HttpError := ⟨500, "Internal server error"⟩

def MAX_ATTEMPTS : ℕ := 5

def toOtp (r : OtpRecord) : Otp.OtpRecordLike where
  hash := r.hash
  salt := r.salt
  expiresAt := r.expiresAt
  attempts := r.attempts
  usedAt := r.usedAt

/-- A code for the step that has not been used. -/
def unused (purpose : OtpPurpose) : Slot → Bool :=
  Slot.any fun r => r.purpose = purpose && r.usedAt.isNone

/-- An unused code that is still valid. -/
def active (purpose : OtpPurpose) (now : Instant) (x : Slot) : Bool :=
  unused purpose x && x.any fun r => now < r.expiresAt

/-- The search for an element reads a field of each until one passes, and throws at a `null`. -/
def meetsNull (p : Slot → Bool) (otps : List Slot) : Bool :=
  (otps.takeWhile fun x => !p x).contains .null

namespace OrderCodes

def pullUnused (o : OrderCodes) (purpose : OtpPurpose) : OrderCodes :=
  { otps := o.otps.filter fun x => !unused purpose x }

def push (o : OrderCodes) (record : OtpRecord) : OrderCodes :=
  { otps := o.otps ++ [.code record] }

/-- `$inc: { otps.i.attempts: 1 }` -/
def addAttempt (o : OrderCodes) (index : ℕ) : OrderCodes :=
  { otps := o.otps.modify index (Slot.map fun r => { r with attempts := r.attempts + 1 }) }

/-- `$set: { otps.i.usedAt }`, which extends the array if it has to. -/
def setUsed (o : OrderCodes) (index : ℕ) (usedAt : Instant) : OrderCodes :=
  if index < o.otps.length then
    { otps := o.otps.modify index (Slot.map fun r => { r with usedAt := some usedAt }) }
  else { otps := o.otps ++ (List.replicate (index - o.otps.length) .null ++ [.marked]) }

/-- Within the array one element is changed, and beyond it none that holds a code. -/
theorem setUsed_filter (o : OrderCodes) (index : ℕ) (usedAt : Instant) (p : OtpRecord → Bool) :
    (o.setUsed index usedAt).otps.filter (Slot.any p) =
      (o.otps.modify index (Slot.map fun r => { r with usedAt := some usedAt })).filter
        (Slot.any p) := by
  unfold setUsed
  split_ifs with hi
  · rfl
  · have hnone : (List.replicate (index - o.otps.length) Slot.null ++ [Slot.marked]).filter
        (Slot.any p) = [] := by
      rw [List.filter_eq_nil_iff]
      intro x hx
      rcases List.mem_append.mp hx with hnull | hmarked
      · rw [List.eq_of_mem_replicate hnull]
        exact Bool.false_ne_true
      · rw [List.mem_singleton.mp hmarked]
        exact Bool.false_ne_true
    rw [List.filter_append, hnone, List.append_nil, List.modify_eq_self (Nat.le_of_not_lt hi)]

def invalidate (o : OrderCodes) (usedAt : Instant) : OrderCodes :=
  { otps := o.otps.map (Slot.map fun r =>
      if r.usedAt.isNone then { r with usedAt := some usedAt } else r) }

/-- A field cannot be set in a `null`. -/
def nullAt (o : OrderCodes) (index : ℕ) : Bool := o.otps[index]? = some .null

def hasNull (o : OrderCodes) : Bool := o.otps.contains .null

end OrderCodes

abbrev Action := Tx Doc HttpError

inductive Call where
  | createOrder (id : Id)
  | dropStale (orderId : Id) (purpose : OtpPurpose)
  | push (orderId : Id) (record : OtpRecord)
  | verifyOtp (orderId : Id) (record : Option OtpRecord) (submittedOtp : String)
  | addAttempt (orderId : Id) (index : ℕ)
  | setUsed (orderId : Id) (index : ℕ)
  | invalidateActive (orderId : Id) (usedAt : Instant)

/-- The server refuses an update that sets a field in a `null`. -/
def updateUnless (blocked : OrderCodes → Bool) (orderId : Id) (p : OrderCodes → Bool)
    (f : OrderCodes → OrderCodes) : Action Bool := do
  let found : Option OrderCodes ← Tx.find orderId
  if found.any blocked then Tx.throw internal else Tx.updateOne orderId p f

namespace Call

@[reducible] def Reply : Call → Type
  | .createOrder _ => Unit
  | .verifyOtp .. => Otp.OtpVerifyResult
  | _ => Bool

def body (C : Crypto) : (c : Call) → Action c.Reply
  | .createOrder id => Tx.insert id {}
  | .dropStale orderId purpose =>
      Tx.updateOne orderId (fun _ => true) fun o : OrderCodes => o.pullUnused purpose
  | .push orderId record =>
      Tx.updateOne orderId (fun _ => true) fun o : OrderCodes => o.push record
  | .verifyOtp _ record submittedOtp => do
      let now ← Tx.getTime
      return Otp.verify C (record.map toOtp) submittedOtp MAX_ATTEMPTS now
  | .addAttempt orderId index =>
      updateUnless (fun o => o.nullAt index) orderId (fun o => index < o.otps.length)
        fun o => o.addAttempt index
  | .setUsed orderId index => do
      let usedAt ← Tx.getTime
      updateUnless (fun o => o.nullAt index) orderId (fun _ => true) fun o => o.setUsed index usedAt
  | .invalidateActive orderId usedAt =>
      updateUnless OrderCodes.hasNull orderId (fun _ => true) fun o => o.invalidate usedAt

/-- Only the forced completion runs in a session. -/
def isolated : Call → Bool
  | .invalidateActive .. => true
  | _ => false

end Call

abbrev Handler := Prog Doc Call.Reply HttpError

abbrev perform (l : Call) : Handler l.Reply := Prog.perform l

/-- An effect outside the database; its failure is the handler's. -/
def sideEffect : Handler Unit := .outside fun ok => if ok then .pure () else .fail .unavailable

def findOrder (orderId : Id) : Handler OrderCodes := do
  let found : Option OrderCodes ← Prog.find orderId
  match found with
  | none => Prog.throw orderNotFound
  | some order => return order

/-- `OtpService.issue`; the code and its salt are drawn by the caller. -/
def issue (C : Crypto) (expiryMinutes : ℕ) (orderId : Id) (purpose : OtpPurpose)
    (code salt : String) : Handler Unit := do
  let order ← findOrder orderId
  let now ← Prog.getTime
  if meetsNull (active purpose now) order.otps then Prog.throw internal
  else if order.otps.any (active purpose now) then return ()
  else do
    let issuedAt ← Prog.getTime
    let record := Otp.issue C code salt expiryMinutes issuedAt
    sideEffect
    let createdAt ← Prog.getTime
    let _ ← perform (.dropStale orderId purpose)
    let _ ← perform (.push orderId
      { purpose := purpose
        hash := record.hash
        salt := record.salt
        expiresAt := record.expiresAt
        attempts := 0
        createdAt := createdAt })
    sideEffect

/-- What `OtpService.verify` does with the verdict on the code. -/
def settle (orderId : Id) (index : Option ℕ) (result : Otp.OtpVerifyResult) : Handler Unit := do
  match result, index with
  | .notFound, _ => Prog.throw (unauthorized "No active OTP for this step")
  | .expired, _ => Prog.throw (unauthorized "OTP has expired")
  | .lockedOut, _ =>
      Prog.throw (unauthorized "Too many incorrect attempts — request a new code")
  | .mismatch, some index => do
      let _ ← perform (.addAttempt orderId index)
      Prog.throw (unauthorized "Incorrect OTP")
  | .match_, some index => do
      let _ ← perform (.setUsed orderId index)
      sideEffect
  | _, none => Prog.throw (unauthorized "No active OTP for this step")

/-- `OtpService.verify` -/
def verify (orderId : Id) (purpose : OtpPurpose) (submittedOtp : String) : Handler Unit := do
  let order ← findOrder orderId
  if meetsNull (unused purpose) order.otps then Prog.throw internal
  else do
    let index := order.otps.findIdx? (unused purpose)
    let record := index.bind fun i => order.otps[i]?.bind Slot.record
    let result ← perform (.verifyOtp orderId record submittedOtp)
    settle orderId index result

/-- `OtpService.invalidateActive` in the transaction of a forced completion. What it writes counts
from the commit, and by then the cached codes are gone. -/
def invalidateActive (orderId : Id) : Handler Unit := do
  let usedAt ← Prog.getTime
  sideEffect
  let _ ← perform (.invalidateActive orderId usedAt)
  return ()

inductive Request where
  | createOrder (id : Id)
  | issue (orderId : Id) (purpose : OtpPurpose) (code salt : String)
  | verify (orderId : Id) (purpose : OtpPurpose) (submittedOtp : String)
  | invalidateActive (orderId : Id)

def handle (C : Crypto) (expiryMinutes : ℕ) : Request → Handler Unit
  | .createOrder id => perform (.createOrder id)
  | .issue orderId purpose code salt => issue C expiryMinutes orderId purpose code salt
  | .verify orderId purpose submittedOtp => verify orderId purpose submittedOtp
  | .invalidateActive orderId => invalidateActive orderId

def machine (C : Crypto) (expiryMinutes : ℕ) : Machine Doc Call.Reply HttpError Request Unit where
  body := Call.body C
  isolated := Call.isolated
  handle := handle C expiryMinutes
  admits _ _ _ := true

end CiroFuel.Handover
