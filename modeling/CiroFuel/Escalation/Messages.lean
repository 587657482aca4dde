import CiroFuel.Handlers

/-!
# The message to a driver who does not answer

An assignment that its driver does not acknowledge in time is escalated: a job of
the queue sends the driver a text message. The job reads the order, sends, and only
then records that it has sent.

What the queue holds is not modelled: the job may be delivered at any time and any
number of times. What the provider has taken for an order is its outbox. A message
may be taken although the job is told that it was not. The timers of an order's stops
are left out.
-/
namespace CiroFuel.Escalation
open Snapshot

inductive EscalationSkipReason where
  | noPhone | sendFailed
deriving DecidableEq, Repr

structure Order where
  status : OrderStatus := .pendingApproval
  driverId : Option Id := none
  assignmentAcknowledgedAt : Option Instant := none
  assignmentEscalationSmsAt : Option Instant := none
  assignmentEscalationSkippedReason : Option EscalationSkipReason := none
deriving DecidableEq

structure OrderDocument extends Order where
  id : Id
deriving DecidableEq

def Order.withId (o : Order) (id : Id) : OrderDocument := { o with id := id }

structure User where
  phone : Option String := none
  isAvailable : Bool := true
  activeOrderId : Option Id := none
deriving DecidableEq

structure Sms where
  phone : String
  text : String
deriving DecidableEq

inductive Key where
  | order (id : Id)
  | user (id : Id)
  | outbox (orderId : Id)
deriving DecidableEq

@[reducible] def Doc : Key → Type
  | .order _ => Order
  | .user _ => User
  | .outbox _ => List Sms

/-- No two drivers are on the same delivery. -/
instance : Indexed Doc Id where
  entries
    | .user _, u => u.activeOrderId.toList
    | _, _ => []

abbrev Action := Tx Doc Refusal

/-- `E164_PATTERN` -/
def isE164 (phone : String) : Bool :=
  match phone.toList with
  | '+' :: d :: ds =>
      '1' ≤ d && d ≤ '9' && 7 ≤ ds.length && ds.length ≤ 14 && ds.all Char.isDigit
  | _ => false

/-- The last six digits of the identifier. -/
def reference (orderId : Id) : String :=
  (String.ofList ((Nat.toDigits 16 (orderId % 16 ^ 6)).leftpad 6 '0')).toUpper

def smsText (orderId : Id) : String :=
  "Ciro: You have a new delivery assignment (ref " ++ reference orderId ++
    "). Open the app to view it."

/-- The test that the job makes on the order it has read. -/
def Order.applicable (o : Order) : Bool :=
  o.assignmentAcknowledgedAt.isNone && o.driverId.isSome && o.status ≠ .cancelled

/-! ### Calls -/

inductive Call where
  | createOrder (id : Id)
  | putUser (id : Id) (user : User)
  | assign (orderId driverId : Id)
  | transition (orderId : Id) (source target : OrderStatus) (manualOverride : Bool)
  | acknowledge (order : OrderDocument) (acknowledgedAt : Instant)
  | cancel (order : OrderDocument) (source : OrderStatus)
  | completeDelivery (order : OrderDocument)
  | forceComplete (order : OrderDocument) (source : OrderStatus)
  | send (order : OrderDocument) (sms : Sms)
  | recordSent (orderId : Id) (sentAt : Instant)
  | recordSkipped (orderId : Id) (reason : EscalationSkipReason)

namespace Call

@[reducible] def Reply : Call → Type
  | .createOrder _ => Unit
  | .putUser .. => Unit
  | .assign .. => OrderDocument
  | .transition .. => OrderDocument
  | .acknowledge .. => Bool
  | .cancel .. => OrderDocument
  | .completeDelivery _ => OrderDocument
  | .forceComplete .. => OrderDocument
  | .send .. => Unit
  | .recordSent .. => Bool
  | .recordSkipped .. => Bool

/-- What runs in a session. -/
def isolated : Call → Bool
  | .assign .. => true
  | .cancel .. => true
  | .completeDelivery _ => true
  | .forceComplete .. => true
  | _ => false

end Call

/-- `OrderStateService.transition` -/
def transition (orderId : Id) (source target : OrderStatus) (manualOverride : Bool)
    (extraSet : Order → Order) : Action OrderDocument := do
  match (transitions source).find? fun r => r.target = target with
  | none => Tx.throw (.invalidTransition source target)
  | some rule =>
      if rule.requiresManualOverride && !manualOverride then
        Tx.throw (.manualOverrideRequired source target)
      else do
        let updated : Option Order ← Tx.findOneAndUpdate (Key.order orderId)
          (fun o : Order => o.status = source) fun o : Order => { extraSet o with status := target }
        match updated with
        | some order => return order.withId orderId
        | none => do
            let existing : Option Order ← Tx.find (Key.order orderId)
            match existing with
            | none => Tx.throw .orderNotFound
            | some o => Tx.throw (.unexpectedStatus o.status target source)

/-- The order keeps its driver; the driver is free again. -/
def releaseDriverIfAssigned (order : OrderDocument) : Action Unit :=
  match order.driverId with
  | none => return ()
  | some driverId => do
      let _ ← Tx.updateOne (Key.user driverId) (fun u : User => u.activeOrderId = some order.id)
        fun u : User => { u with isAvailable := true, activeOrderId := none }
      return ()

/-- The part of the assignment that concerns the driver. -/
def assignDriver (orderId driverId : Id) : Action OrderDocument := do
  let booked ← Tx.updateOne (Key.user driverId)
    (fun u : User => u.isAvailable && u.activeOrderId.isNone)
    fun u : User => { u with isAvailable := false, activeOrderId := some orderId }
  if booked then
    transition orderId .routedToTransport .assignedToDriver false fun o =>
      { o with driverId := some driverId }
  else Tx.throw .driverUnavailable

def Call.body : (c : Call) → Action c.Reply
  | .createOrder id => Tx.insert (Key.order id) ({} : Order)
  | .putUser id user => Tx.upsert (Key.user id) user fun _ => user
  | .assign orderId driverId => assignDriver orderId driverId
  | .transition orderId source target manualOverride =>
      Escalation.transition orderId source target manualOverride id
  | .acknowledge order acknowledgedAt =>
      Tx.updateOne (Key.order order.id) (fun _ => true) fun o : Order =>
        { o with assignmentAcknowledgedAt := some acknowledgedAt }
  | .cancel order source => do
      releaseDriverIfAssigned order
      Escalation.transition order.id source .cancelled false id
  | .completeDelivery order => do
      releaseDriverIfAssigned order
      Escalation.transition order.id .unloading .delivered false id
  | .forceComplete order source => do
      releaseDriverIfAssigned order
      Escalation.transition order.id source .delivered true id
  | .send order sms =>
      Tx.upsert (Key.outbox order.id) [] fun taken : List Sms => taken ++ [sms]
  | .recordSent orderId sentAt =>
      Tx.updateOne (Key.order orderId) (fun _ => true) fun o : Order =>
        { o with assignmentEscalationSmsAt := some sentAt }
  | .recordSkipped orderId reason =>
      Tx.updateOne (Key.order orderId) (fun _ => true) fun o : Order =>
        { o with assignmentEscalationSkippedReason := some reason }

/-! ### Handlers -/

abbrev Handler := Prog Doc Call.Reply Refusal

abbrev perform (l : Call) : Handler l.Reply := Prog.perform l

/-- An operation of the queue; its failure is the handler's. -/
def sideEffect : Handler Unit := .outside fun ok => if ok then .pure () else .fail .unavailable

def findById (orderId : Id) : Handler OrderDocument := do
  let found : Option Order ← Prog.find (Key.order orderId)
  match found with
  | none => Prog.throw .orderNotFound
  | some order => return order.withId orderId

/-- A message that was taken may still be reported as failed. -/
def sendSms (order : OrderDocument) (sms : Sms) : Handler Bool := do
  let sent ← Prog.attempt (.send order sms)
  match sent with
  | .error _ => return false
  | .ok _ => Prog.effect

/-- `AssignmentEscalationProcessor.escalate` -/
def escalate (orderId : Id) : Handler Unit := do
  let found : Option Order ← Prog.find (Key.order orderId)
  match found with
  | none => return ()
  | some order =>
      if !order.applicable then return ()
      else do
        let driver : Option User ← Prog.find (Key.user (order.driverId.getD 0))
        match (driver.bind User.phone).filter isE164 with
        | none => do
            let _ ← perform (.recordSkipped orderId .noPhone)
            return ()
        | some phone => do
            let sent ← sendSms (order.withId orderId) ⟨phone, smsText orderId⟩
            if sent then do
              let sentAt ← Prog.getTime
              let _ ← perform (.recordSent orderId sentAt)
              return ()
            else do
              let _ ← perform (.recordSkipped orderId .sendFailed)
              return ()

/-- The endpoint around `OrdersService.acknowledgeAssignment`. -/
def acknowledgeAssignment (orderId driverId : Id) : Handler OrderDocument := do
  let order ← findById orderId
  if order.driverId ≠ some driverId then Prog.throw .orderNotFound
  else if order.assignmentAcknowledgedAt.isSome then return order
  else do
    let acknowledgedAt ← Prog.getTime
    let _ ← perform (.acknowledge order acknowledgedAt)
    sideEffect
    return { order with assignmentAcknowledgedAt := some acknowledgedAt }

def cancelOrder (orderId : Id) (isClient : Bool) : Handler OrderDocument := do
  let order ← findById orderId
  if isClient && !clientCancellable.contains order.status then
    Prog.throw .clientMayNotCancel
  else if !isClient && !adminCancellable.contains order.status then
    Prog.throw .noLongerCancellable
  else do
    let updated ← perform (.cancel order order.status)
    if order.status = .assignedToDriver || order.status = .pendingPayment then
      sideEffect
    if order.status = .assignedToDriver || order.status = .loading then
      sideEffect
    return updated

/-- The one-time code is checked elsewhere. -/
def verifyDelivery (orderId driverId : Id) : Handler OrderDocument := do
  let order ← findById orderId
  if order.driverId ≠ some driverId then Prog.throw .orderNotFound
  else if order.status ≠ .unloading then Prog.throw (.wrongStatus .unloading)
  else perform (.completeDelivery order)

/-- The job of the escalation stays in the queue. -/
def forceComplete (orderId : Id) : Handler OrderDocument := do
  let order ← findById orderId
  if !forceCompletable.contains order.status then Prog.throw .notForceCompletable
  else do
    let updated ← perform (.forceComplete order order.status)
    if order.status = .assignedToDriver || order.status = .pendingPayment then
      sideEffect
    return updated

inductive Answer where
  | done
  | order (order : OrderDocument)

/-- Orders move as the rest of the platform likes. -/
inductive Request where
  | createOrder (id : Id)
  | putUser (id : Id) (user : User)
  | transition (orderId : Id) (source target : OrderStatus) (manualOverride : Bool)
  | assignDriver (orderId driverId : Id)
  | acknowledgeAssignment (orderId driverId : Id)
  | cancelOrder (orderId : Id) (isClient : Bool)
  | verifyDelivery (orderId driverId : Id)
  | forceComplete (orderId : Id)
  | escalate (orderId : Id)

def answering (handler : Handler OrderDocument) : Handler Answer := do
  let order ← handler
  return .order order

def handle : Request → Handler Answer
  | .createOrder id => do
      perform (.createOrder id)
      return .done
  | .putUser id user => do
      perform (.putUser id user)
      return .done
  | .transition orderId source target manualOverride =>
      answering (perform (.transition orderId source target manualOverride))
  | .assignDriver orderId driverId => answering do
      let order ← perform (.assign orderId driverId)
      sideEffect
      return order
  | .acknowledgeAssignment orderId driverId => answering (acknowledgeAssignment orderId driverId)
  | .cancelOrder orderId isClient => answering (cancelOrder orderId isClient)
  | .verifyDelivery orderId driverId => answering (verifyDelivery orderId driverId)
  | .forceComplete orderId => answering (forceComplete orderId)
  | .escalate orderId => do
      escalate orderId
      return .done

def machine : Machine Doc Call.Reply Refusal Request Answer where
  body := Call.body
  isolated := Call.isolated
  handle := handle
  admits _ _ _ := true

end CiroFuel.Escalation
