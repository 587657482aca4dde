import CiroFuel.Handlers
import CiroFuel.StoredOrders
import CiroFuel.Query.Elements

/-!
# Stops and their escalation

A delivery in transit may stand still. The sweep notices it, the driver declares
it or reports that the road is blocked; the driver answers for it, or an
administrator of the transporter resolves it. If neither does, a job of the queue
claims the stop and tells the transporter.

Each of these writes the array of stops in one conditional update. What the queue
holds is not modelled: a job may be delivered at any time and any number of
times. Identifiers are generated by the driver of the database; one that is
already in use does not occur there, and the model takes it for an outage.
-/
namespace CiroFuel.Stops
open Snapshot

structure Order where
  status : OrderStatus
  fuelCompanyId : Id
  transportCompanyId : Option Id
  driverId : Option Id
  stopEvents : List StopEvent
deriving DecidableEq

structure OrderDocument extends Order where
  id : Id
deriving DecidableEq

def Order.withId (o : Order) (id : Id) : OrderDocument := { o with id := id }

structure User where
  companyId : Option Id
  role : UserRole
  isActive : Bool
  activeOrderId : Option Id := none
  lastMovedAt : Option Instant := none
  location : Option GeoPoint := none
deriving DecidableEq

inductive NotificationType where
  | driverStopDetected | orderDriverBlocked | orderStopUnresolved
deriving DecidableEq, Repr

structure Notification where
  companyId : Id
  recipientUserId : Id
  type : NotificationType
  orderId : Id
  stopId : Id
  reason : Option StopReason := none
deriving DecidableEq

inductive Key where
  | order (id : Id)
  | user (id : Id)
  | notification (id : Id)
deriving DecidableEq

@[reducible] def Doc : Key → Type
  | .order _ => Order
  | .user _ => User
  | .notification _ => Notification

/-- No two drivers are on the same delivery. -/
instance : Indexed Doc Id where
  entries
    | .user _, u => u.activeOrderId.toList
    | _, _ => []

inductive HttpError where
  | refused (r : Refusal)
  | stopNotFound
  | stopNotInTransit
  | stopAlreadyOpen
  | stopAlreadyAnswered
  | stopAlreadyResolved
deriving DecidableEq

abbrev Action := Tx Doc HttpError

/-- The reason for a stop, and a text that is empty or absent alike. -/
structure SubmitStopReasonDto where
  reason : StopReason
  reasonText : Option String := none
deriving DecidableEq

def SubmitStopReasonDto.text (input : SubmitStopReasonDto) : Option String :=
  input.reasonText.filter fun t => t ≠ ""

structure DeclareStopDto extends SubmitStopReasonDto where
  expectedDurationMinutes : ℕ
deriving DecidableEq

/-! ### Conditions and updates -/

/-- What blocks another stop: one without a resolution, or a declaration in effect. -/
def unblockedStopFilter (now : Instant) (stop : StopEvent) : Bool :=
  stop.resolvedAt.isNone || stop.suppressedUntil.any fun u => now < u

/-- The condition that the three ways of raising a stop share. -/
def Order.clear (o : Order) (now : Instant) : Bool :=
  o.status = .inTransit && !o.stopEvents.any (unblockedStopFilter now)

def detectedStop (stopId : Id) (detectedAt : Instant) (location : Option GeoPoint) :
    StopEvent where
  id := stopId
  origin := .detected
  detectedAt := detectedAt
  location := location

/-- A declared stop arrives answered and resolved. -/
def declaredStop (stopId : Id) (now : Instant) (input : DeclareStopDto) : StopEvent where
  id := stopId
  origin := .declared
  detectedAt := now
  reason := some input.reason
  reasonText := input.text
  reasonGivenAt := some now
  expectedDurationMinutes := some input.expectedDurationMinutes
  suppressedUntil := some (now + input.expectedDurationMinutes * 60000)
  resolvedAt := some now

/-- A report arrives answered and escalated. -/
def blockedStop (stopId : Id) (now : Instant) (location : Option GeoPoint)
    (input : SubmitStopReasonDto) : StopEvent where
  id := stopId
  origin := .blocked
  detectedAt := now
  location := location
  reason := some input.reason
  reasonText := input.text
  reasonGivenAt := some now
  escalatedAt := some now

def Order.push (o : Order) (stop : StopEvent) : Order :=
  { o with stopEvents := o.stopEvents ++ [stop] }

/-- An update of the first stop that matches. -/
def Order.setStop (o : Order) (elemMatch : StopEvent → Bool) (set : StopEvent → StopEvent) :
    Order :=
  { o with stopEvents := Query.setFirst elemMatch set o.stopEvents }

def unanswered (stopId : Id) (stop : StopEvent) : Bool :=
  stop.id = stopId && stop.reasonGivenAt.isNone

def unresolved (stopId : Id) (stop : StopEvent) : Bool :=
  stop.id = stopId && stop.resolvedAt.isNone

/-- The condition under which a delivery of the job may tell anybody. -/
def unclaimed (stopId : Id) (stop : StopEvent) : Bool :=
  stop.id = stopId && stop.escalatedAt.isNone && stop.reasonGivenAt.isNone &&
    stop.resolvedAt.isNone

/-- Whatever became of the escalation stays on record. -/
def answer (now : Instant) (input : SubmitStopReasonDto) (stop : StopEvent) : StopEvent :=
  { stop with
    reason := some input.reason
    reasonText := input.text.or stop.reasonText
    reasonGivenAt := some now
    resolvedAt := some now }

def resolve (resolvedAt : Instant) (adminUserId : Id) (stop : StopEvent) : StopEvent :=
  { stop with
    resolvedAt := some resolvedAt
    resolvedBy := some adminUserId }

def escalated (escalatedAt : Instant) (stop : StopEvent) : StopEvent :=
  { stop with escalatedAt := some escalatedAt }

/-! ### Calls -/

inductive Call where
  | createOrder (id fuelCompanyId : Id)
  | setParties (orderId : Id) (transportCompanyId driverId : Option Id)
  | putUser (id : Id) (user : User)
  | raiseStop (orderId : Id) (now detectedAt : Instant) (location : Option GeoPoint)
  | declareStop (orderId driverId : Id) (now : Instant) (input : DeclareStopDto)
  | reportBlocked (orderId driverId : Id) (now : Instant) (location : Option GeoPoint)
      (input : SubmitStopReasonDto)
  | submitReason (orderId driverId stopId : Id) (now : Instant) (input : SubmitStopReasonDto)
  | resolveByAdmin (orderId stopId : Id) (resolvedAt : Instant) (adminUserId : Id)
  | claim (order : OrderDocument) (stopId : Id) (escalatedAt : Instant)
  | transition (orderId : Id) (source target : OrderStatus) (manualOverride : Bool)
  | cancel (order : OrderDocument) (source : OrderStatus)
  | completeDelivery (order : OrderDocument)
  | forceComplete (order : OrderDocument) (source : OrderStatus)
  | notify (notification : Notification)

namespace Call

@[reducible] def Reply : Call → Type
  | .createOrder .. => Unit
  | .setParties .. => Bool
  | .putUser .. => Unit
  | .raiseStop .. => Option Id
  | .declareStop .. => Option Id
  | .reportBlocked .. => Option Id
  | .submitReason .. => Bool
  | .resolveByAdmin .. => Bool
  | .claim .. => Bool
  | .transition .. => OrderDocument
  | .cancel .. => OrderDocument
  | .completeDelivery _ => OrderDocument
  | .forceComplete .. => OrderDocument
  | .notify _ => Unit

/-- What runs in a session. -/
def isolated : Call → Bool
  | .cancel .. => true
  | .completeDelivery _ => true
  | .forceComplete .. => true
  | _ => false

end Call

/-- `$push` under a condition; the identifier of the stop, if it was pushed. -/
def pushStop (orderId : Id) (filter : Order → Bool) (stop : Id → StopEvent) :
    Action (Option Id) := do
  let stopId ← Tx.freshId
  let order : Option Order ← Tx.find (Key.order orderId)
  if order.any fun o => o.stopEvents.any fun e => e.id = stopId then Tx.fail .unavailable
  else do
    let pushed ← Tx.updateOne (Key.order orderId) filter fun o : Order => o.push (stop stopId)
    return if pushed then some stopId else none

/-- `$elemMatch` with the positional operator. -/
def updateStop (orderId : Id) (filter : Order → Bool) (elemMatch : StopEvent → Bool)
    (set : StopEvent → StopEvent) : Action Bool :=
  Tx.updateOne (Key.order orderId) (fun o : Order => filter o && o.stopEvents.any elemMatch)
    fun o : Order => o.setStop elemMatch set

/-- `OrderStateService.transition`, of which the stops see the status. -/
def transition (orderId : Id) (source target : OrderStatus) (manualOverride : Bool := false) :
    Action OrderDocument := do
  match (transitions source).find? fun r => r.target = target with
  | none => Tx.throw (.refused (.invalidTransition source target))
  | some rule =>
      if rule.requiresManualOverride && !manualOverride then
        Tx.throw (.refused (.manualOverrideRequired source target))
      else do
        let updated : Option Order ← Tx.findOneAndUpdate (Key.order orderId)
          (fun o : Order => o.status = source) fun o : Order => { o with status := target }
        match updated with
        | some order => return order.withId orderId
        | none => do
            let existing : Option Order ← Tx.find (Key.order orderId)
            match existing with
            | none => Tx.throw (.refused .orderNotFound)
            | some o => Tx.throw (.refused (.unexpectedStatus o.status target source))

/-- The driver of the order as it was read is no longer on it. -/
def releaseDriverIfAssigned (order : OrderDocument) : Action Unit :=
  match order.driverId with
  | none => return ()
  | some driverId => do
      let _ ← Tx.updateOne (Key.user driverId) (fun u : User => u.activeOrderId = some order.id)
        fun u : User => { u with activeOrderId := none }
      return ()

def Call.body : (c : Call) → Action c.Reply
  | .createOrder id fuelCompanyId =>
      Tx.insert (Key.order id) (⟨.pendingApproval, fuelCompanyId, none, none, []⟩ : Order)
  | .setParties orderId transportCompanyId driverId =>
      Tx.updateOne (Key.order orderId) (fun _ => true) fun o : Order =>
        { o with
          transportCompanyId := transportCompanyId
          driverId := driverId }
  | .putUser id user => Tx.upsert (Key.user id) user fun _ => user
  | .raiseStop orderId now detectedAt location =>
      pushStop orderId (fun o => o.clear now) fun id => detectedStop id detectedAt location
  | .declareStop orderId driverId now input =>
      pushStop orderId (fun o => o.driverId = some driverId && o.clear now) fun id =>
        declaredStop id now input
  | .reportBlocked orderId driverId now location input =>
      pushStop orderId (fun o => o.driverId = some driverId && o.clear now) fun id =>
        blockedStop id now location input
  | .submitReason orderId driverId stopId now input =>
      updateStop orderId (fun o => o.driverId = some driverId) (unanswered stopId)
        (answer now input)
  | .resolveByAdmin orderId stopId resolvedAt adminUserId =>
      updateStop orderId (fun _ => true) (unresolved stopId) (resolve resolvedAt adminUserId)
  | .claim order stopId escalatedAt =>
      updateStop order.id (fun _ => true) (unclaimed stopId) (escalated escalatedAt)
  | .transition orderId source target manualOverride =>
      Stops.transition orderId source target manualOverride
  | .cancel order source => do
      releaseDriverIfAssigned order
      Stops.transition order.id source .cancelled
  | .completeDelivery order => do
      releaseDriverIfAssigned order
      Stops.transition order.id .unloading .delivered
  | .forceComplete order source => do
      releaseDriverIfAssigned order
      Stops.transition order.id source .delivered true
  | .notify notification => do
      let id ← Tx.freshId
      let taken : Option Notification ← Tx.find (Key.notification id)
      if taken.isSome then Tx.fail .unavailable
      else Tx.insert (Key.notification id) notification

/-! ### Handlers -/

abbrev Handler := Prog Doc Call.Reply HttpError

abbrev perform (l : Call) : Handler l.Reply := Prog.perform l

/-- An operation of the queue; its failure is the handler's. -/
def sideEffect : Handler Unit := .outside fun ok => if ok then .pure () else .fail .unavailable

def requireOrder (orderId : Id) : Handler OrderDocument := do
  let found : Option Order ← Prog.find (Key.order orderId)
  match found with
  | none => Prog.throw (.refused .orderNotFound)
  | some order => return order.withId orderId

/-- All are sent, and then the first failure is the handler's. -/
def notifyAll : List Notification → Handler Unit
  | [] => return ()
  | n :: ns => do
      let sent ← Prog.attempt (.notify n)
      notifyAll ns
      match sent with
      | .error e => .fail e
      | .ok _ => return ()

/-- The administrators of the transporter that owns the delivery. -/
def transportAdmins (docs : Docs Doc) (transportCompanyId : Option Id) : List Id :=
  docs.entries.filterMap fun e =>
    match e with
    | ⟨.user id, u⟩ =>
        if u.companyId = transportCompanyId && u.role = .transportCompanyAdmin && u.isActive then
          some id
        else none
    | _ => none

def notifyTransporter (order : OrderDocument) (type : NotificationType) (stopId : Id)
    (reason : Option StopReason) : Handler Unit := do
  let docs ← Prog.scan
  notifyAll ((transportAdmins docs order.transportCompanyId).map fun admin =>
    { companyId := order.fuelCompanyId
      recipientUserId := admin
      type := type
      orderId := order.id
      stopId := stopId
      reason := reason })

structure StalledDriver where
  id : Id
  activeOrderId : Id
  location : Option GeoPoint

/-- A driver who has never sent a position has not stopped. -/
def stalledDrivers (docs : Docs Doc) (windowMinutes : ℕ) (now : Instant) : List StalledDriver :=
  docs.entries.filterMap fun e =>
    match e with
    | ⟨.user id, u⟩ =>
        u.activeOrderId.bind fun orderId =>
          if u.role = .driver && u.lastMovedAt.any fun t => t + windowMinutes * 60000 < now then
            some ⟨id, orderId, u.location⟩
          else none
    | _ => none

def raiseStopFor (driver : StalledDriver) : Handler Unit := do
  let now ← Prog.getTime
  let detectedAt ← Prog.getTime
  let raised ← perform (.raiseStop driver.activeOrderId now detectedAt driver.location)
  match raised with
  | none => return ()
  | some stopId => do
      let found : Option Order ← Prog.find (Key.order driver.activeOrderId)
      match found with
      | none => return ()
      | some order => do
          perform (.notify
            { companyId := order.fuelCompanyId
              recipientUserId := driver.id
              type := .driverStopDetected
              orderId := driver.activeOrderId
              stopId := stopId })
          sideEffect

def raiseStops : List StalledDriver → Handler Unit
  | [] => return ()
  | driver :: drivers => do
      raiseStopFor driver
      raiseStops drivers

/-- The sweep; the lease that keeps instances apart is taken to be absent. -/
def detectStalledDeliveries (windowMinutes : ℕ) : Handler Unit := do
  let now ← Prog.getTime
  let docs ← Prog.scan
  raiseStops (stalledDrivers docs windowMinutes now)

def explainDeclineRefusal (orderId driverId : Id) : Handler Unit := do
  let found : Option Order ← Prog.find (Key.order orderId)
  match found with
  | none => Prog.throw (.refused .orderNotFound)
  | some order =>
      if order.driverId ≠ some driverId then Prog.throw (.refused .orderNotFound)
      else if order.status ≠ .inTransit then Prog.throw .stopNotInTransit
      else Prog.throw .stopAlreadyOpen

def explainReasonRefusal (orderId driverId stopId : Id) : Handler Unit := do
  let found : Option Order ← Prog.find (Key.order orderId)
  match found with
  | none => Prog.throw (.refused .orderNotFound)
  | some order =>
      if order.driverId ≠ some driverId then Prog.throw (.refused .orderNotFound)
      else if !order.stopEvents.any fun e => e.id = stopId then Prog.throw .stopNotFound
      else Prog.throw .stopAlreadyAnswered

def declareStop (orderId driverId : Id) (input : DeclareStopDto) : Handler OrderDocument := do
  let now ← Prog.getTime
  let declared ← perform (.declareStop orderId driverId now input)
  if declared.isNone then
    explainDeclineRefusal orderId driverId
  requireOrder orderId

def reportBlocked (orderId driverId : Id) (input : SubmitStopReasonDto) :
    Handler OrderDocument := do
  let now ← Prog.getTime
  let driver : Option User ← Prog.find (Key.user driverId)
  let reported ← perform (.reportBlocked orderId driverId now (driver.bind User.location) input)
  match reported with
  | none => do
      explainDeclineRefusal orderId driverId
      requireOrder orderId
  | some stopId => do
      let order ← requireOrder orderId
      notifyTransporter order .orderDriverBlocked stopId (some input.reason)
      return order

def submitReason (orderId driverId stopId : Id) (input : SubmitStopReasonDto) :
    Handler OrderDocument := do
  let now ← Prog.getTime
  let answered ← perform (.submitReason orderId driverId stopId now input)
  if !answered then
    explainReasonRefusal orderId driverId stopId
  sideEffect
  requireOrder orderId

def resolveByAdmin (orderId stopId adminUserId : Id) : Handler OrderDocument := do
  let resolvedAt ← Prog.getTime
  let resolved ← perform (.resolveByAdmin orderId stopId resolvedAt adminUserId)
  if !resolved then do
    let found : Option Order ← Prog.find (Key.order orderId)
    if !found.any fun o => o.stopEvents.any fun e => e.id = stopId then
      Prog.throw .stopNotFound
    else Prog.throw .stopAlreadyResolved
  sideEffect
  requireOrder orderId

/-- The endpoint around it, for an administrator of the given company. -/
def resolveStop (orderId stopId adminUserId : Id) (companyId : Option Id) :
    Handler OrderDocument := do
  let order ← requireOrder orderId
  if order.transportCompanyId ≠ companyId then Prog.throw (.refused .orderNotFound)
  else resolveByAdmin orderId stopId adminUserId

def FINAL_STATUSES : List OrderStatus := [.delivered, .cancelled, .rejected]

/-- `StopEscalationProcessor.escalate` -/
def escalate (stopId orderId : Id) : Handler Unit := do
  let found : Option Order ← Prog.find (Key.order orderId)
  match found with
  | none => return ()
  | some order =>
      if FINAL_STATUSES.contains order.status then return ()
      else if !order.stopEvents.any fun e => e.id = stopId then return ()
      else do
        let escalatedAt ← Prog.getTime
        let claimed ← perform (.claim (order.withId orderId) stopId escalatedAt)
        if claimed then
          notifyTransporter (order.withId orderId) .orderStopUnresolved stopId none
        else return ()

/-! ### The end of a delivery -/

/-- One timer for each stop that was open when the order was read. -/
def cancelTimers : List StopEvent → Handler Unit
  | [] => return ()
  | stop :: stops => do
      if stop.resolvedAt.isNone then
        sideEffect
      cancelTimers stops

def cancelPendingStopEscalations (order : OrderDocument) : Handler Unit :=
  cancelTimers order.stopEvents

/-- The one-time code is checked elsewhere. -/
def verifyDelivery (orderId driverId : Id) : Handler OrderDocument := do
  let order ← requireOrder orderId
  if order.driverId ≠ some driverId then Prog.throw (.refused .orderNotFound)
  else if order.status ≠ .unloading then Prog.throw (.refused (.wrongStatus .unloading))
  else do
    sideEffect
    let updated ← perform (.completeDelivery order)
    cancelPendingStopEscalations order
    return updated

def forceComplete (orderId : Id) : Handler OrderDocument := do
  let order ← requireOrder orderId
  if !forceCompletable.contains order.status then Prog.throw (.refused .notForceCompletable)
  else do
    let updated ← perform (.forceComplete order order.status)
    cancelPendingStopEscalations order
    return updated

def cancelOrder (orderId : Id) (isClient : Bool) : Handler OrderDocument := do
  let order ← requireOrder orderId
  if isClient && !clientCancellable.contains order.status then
    Prog.throw (.refused .clientMayNotCancel)
  else if !isClient && !adminCancellable.contains order.status then
    Prog.throw (.refused .noLongerCancellable)
  else do
    let updated ← perform (.cancel order order.status)
    cancelPendingStopEscalations order
    return updated

inductive Answer where
  | done
  | order (order : OrderDocument)

/-- Orders move, and are handed to transporters and drivers, as the rest of the platform
likes; so do users. -/
inductive Request where
  | createOrder (id fuelCompanyId : Id)
  | setParties (orderId : Id) (transportCompanyId driverId : Option Id)
  | putUser (id : Id) (user : User)
  | transition (orderId : Id) (source target : OrderStatus) (manualOverride : Bool)
  | sweep (windowMinutes : ℕ)
  | declareStop (orderId driverId : Id) (input : DeclareStopDto)
  | reportBlocked (orderId driverId : Id) (input : SubmitStopReasonDto)
  | submitReason (orderId driverId stopId : Id) (input : SubmitStopReasonDto)
  | resolveStop (orderId stopId adminUserId : Id) (companyId : Option Id)
  | escalate (stopId orderId : Id)
  | verifyDelivery (orderId driverId : Id)
  | forceComplete (orderId : Id)
  | cancelOrder (orderId : Id) (isClient : Bool)

def answering (handler : Handler OrderDocument) : Handler Answer := do
  let order ← handler
  return .order order

def handle : Request → Handler Answer
  | .createOrder id fuelCompanyId => do
      perform (.createOrder id fuelCompanyId)
      return .done
  | .setParties orderId transportCompanyId driverId => do
      let _ ← perform (.setParties orderId transportCompanyId driverId)
      return .done
  | .putUser id user => do
      perform (.putUser id user)
      return .done
  | .transition orderId source target manualOverride =>
      answering (perform (.transition orderId source target manualOverride))
  | .sweep windowMinutes => do
      detectStalledDeliveries windowMinutes
      return .done
  | .declareStop orderId driverId input => answering (declareStop orderId driverId input)
  | .reportBlocked orderId driverId input => answering (reportBlocked orderId driverId input)
  | .submitReason orderId driverId stopId input =>
      answering (submitReason orderId driverId stopId input)
  | .resolveStop orderId stopId adminUserId companyId =>
      answering (resolveStop orderId stopId adminUserId companyId)
  | .escalate stopId orderId => do
      escalate stopId orderId
      return .done
  | .verifyDelivery orderId driverId => answering (verifyDelivery orderId driverId)
  | .forceComplete orderId => answering (forceComplete orderId)
  | .cancelOrder orderId isClient => answering (cancelOrder orderId isClient)

def machine : Machine Doc Call.Reply HttpError Request Answer where
  body := Call.body
  isolated := Call.isolated
  handle := handle
  admits _ _ _ := true

end CiroFuel.Stops
