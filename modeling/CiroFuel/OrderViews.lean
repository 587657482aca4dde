import CiroFuel.ClientLists

/-!
# What a client sees of an order

Each route that returns an order to a client builds its answer by itself. Most
pass the order through `toRoleScopedShape`, which deletes what only the
transporter's side may see; a creation returns an order that has none of it yet;
cancelling and redispatching return the stored document.
-/
namespace CiroFuel
open Query

/-! ### Order objects -/

/-- The keys that are deleted for some reader; `historyActors` stands for `actorId`,
`actorRole` and `overrideReason` in every entry of `statusHistory`. -/
inductive OrderKey where
  | verifications | tankSummary
  | assignmentAcknowledgedAt | assignmentEscalationSmsAt | assignmentEscalationSkippedReason
  | assignedWhileIneligible | assignedWhileIneligibleReason
  | stopEvents | historyActors | supplierInvoices
deriving DecidableEq, Repr

def StatusHistoryEntry.anonymous (e : StatusHistoryEntry) : StatusHistoryEntry :=
  { e with
    actorId := 0
    actorRole := .superAdmin
    overrideReason := none }

/-- The order without the values of the keys. -/
def StoredOrder.without (keys : List OrderKey) (o : StoredOrder) : StoredOrder :=
  { o with
    verifications := if keys.contains .verifications then [] else o.verifications
    tankSummary := if keys.contains .tankSummary then none else o.tankSummary
    assignmentAcknowledgedAt :=
      if keys.contains .assignmentAcknowledgedAt then none else o.assignmentAcknowledgedAt
    assignmentEscalationSmsAt :=
      if keys.contains .assignmentEscalationSmsAt then none else o.assignmentEscalationSmsAt
    assignmentEscalationSkippedReason :=
      if keys.contains .assignmentEscalationSkippedReason then none
      else o.assignmentEscalationSkippedReason
    assignedWhileIneligible :=
      if keys.contains .assignedWhileIneligible then false else o.assignedWhileIneligible
    assignedWhileIneligibleReason :=
      if keys.contains .assignedWhileIneligibleReason then none
      else o.assignedWhileIneligibleReason
    stopEvents := if keys.contains .stopEvents then [] else o.stopEvents
    statusHistory :=
      if keys.contains .historyActors then o.statusHistory.map StatusHistoryEntry.anonymous
      else o.statusHistory
    supplierInvoices := if keys.contains .supplierInvoices then [] else o.supplierInvoices
    extracted := if keys.contains .supplierInvoices then [] else o.extracted }

structure SupplierInvoiceView where
  fileId : Id
  extracted : Option ExtractedSupplierInvoiceData
  confirmed : ConfirmedSupplierInvoiceData
  confirmedBy : Option Id
  confirmedAt : Option Instant
  orderedQuantityLitres : ℚ
  suppliedQuantityLitres : ℚ
  proportionFulfilled : ℚ
  shortfallLitres : ℚ
deriving DecidableEq

/-- An object some of whose keys have been deleted, so that they hold no value. -/
structure OrderObject where
  order : StoredOrder
  deleted : List OrderKey := []
  supplierInvoice : Option SupplierInvoiceView := none
deriving DecidableEq

def StoredOrder.toObject (o : StoredOrder) : OrderObject where
  order := o

def buildSupplierInvoiceView (o : StoredOrder) (user : AuthenticatedUser) :
    Option SupplierInvoiceView :=
  if user.role ≠ .fuelCompanyAdmin ∧ user.role ≠ .superAdmin then none
  else do
    let current ← o.supplierInvoices.find? fun si => si.supersededAt.isNone && si.confirmed.isSome
    let confirmed ← current.confirmed
    return {
      fileId := current.fileId
      extracted := o.extracted.lookup current.id
      confirmed := confirmed
      confirmedBy := current.confirmedBy
      confirmedAt := current.confirmedAt
      orderedQuantityLitres := o.quantityLiters
      suppliedQuantityLitres := confirmed.quantityLitres
      proportionFulfilled :=
        if 0 < o.quantityLiters then confirmed.quantityLitres / o.quantityLiters else 0
      shortfallLitres := o.quantityLiters - confirmed.quantityLitres }

/-- What is deleted for anyone but operators and drivers. -/
def internalKeys : List OrderKey :=
  [.verifications, .tankSummary, .assignmentAcknowledgedAt, .assignmentEscalationSmsAt,
    .assignmentEscalationSkippedReason, .assignedWhileIneligible, .assignedWhileIneligibleReason,
    .stopEvents, .historyActors]

def toRoleScopedShape (o : StoredOrder) (user : AuthenticatedUser) : OrderObject :=
  let isOperatorOrDriver := [UserRole.driver, .fuelCompanyAdmin, .transportCompanyAdmin,
    .superAdmin].contains user.role
  let deleted := (if isOperatorOrDriver then [] else internalKeys) ++ [OrderKey.supplierInvoices]
  { order := o.without deleted
    deleted := deleted
    supplierInvoice := buildSupplierInvoiceView o user }

/-! ### The routes -/

structure Rating where
  score : ℕ
  review : Option String
deriving DecidableEq

structure DriverPosition where
  location : Option GeoPoint
  locationUpdatedAt : Option Instant
deriving DecidableEq

/-- What an answer is made of besides the orders. -/
structure ReadContext where
  now : Instant
  cfg : Settings
  averageSpeedKmh : ℚ := 60
  drivers : Id → Option DriverPosition
  stations : Id → Option Station
  ratings : Id → Option Rating
  freshId : Id
  drawdown : OrderFields → DrawdownResult

structure Telemetry where
  etaMinutes : Option ℤ := none
  driverLocation : Option GeoPoint := none
  driverLocationAt : Option Instant := none
deriving DecidableEq

def driverTelemetry (ctx : ReadContext) (o : Order) : Telemetry :=
  match o.driverId.bind ctx.drivers with
  | none => {}
  | some driver =>
      match driver.location with
      | none => {}
      | some location =>
          let minutes := ctx.cfg.distanceMeters location o.deliveryLocation / 1000 /
            ctx.averageSpeedKmh * 60
          { etaMinutes := some (minutes + 1 / 2).floor
            driverLocation := some location
            driverLocationAt := driver.locationUpdatedAt }

structure OrderListItem where
  shape : OrderObject
  etaMinutes : Option ℤ
  station : Option Station
deriving DecidableEq

structure OrderDetail where
  shape : OrderObject
  telemetry : Telemetry
  station : Option Station
  vehicleVerified : Bool
  rating : Option Rating
deriving DecidableEq

inductive ClientResponse where
  | created (order : OrderObject) (litreDrawdown : DrawdownResult)
  | page (items : List OrderListItem) (nextCursor : Option (Position Numbers))
  | detail (detail : OrderDetail)
  | order (order : OrderObject)

/-- The order-returning routes that admit a client. -/
inductive ClientRoute where
  | create (fields : OrderFields) (deliveryAddressText : String)
  | list (filter : OrderListFilter) (cursor : Option (Position Numbers))
  | detail (id : Id)
  | accept (id : Id)
  | cancel (id : Id) (reason : Option String)
  | redispatch (id : Id)

/-- A new order, with the defaults of the schema. -/
def freshOrder (ctx : ReadContext) (fields : OrderFields) (deliveryAddressText : String) :
    StoredOrder where
  toOrder := fields.order
  id := ctx.freshId
  deliveryAddressText := deliveryAddressText
  createdAt := ctx.now
  updatedAt := ctx.now

def storedOrder (orders : List StoredOrder) (id : Id) : Option StoredOrder :=
  orders.find? fun o => o.id = id

/-- `findOneForUser` -/
def findStored (user : SessionUser) (orders : List StoredOrder) (id : Id) :
    Except String StoredOrder := do
  let _ ← readOrder user (fun i => (storedOrder orders i).map (·.toOrder)) id
  match storedOrder orders id with
  | some o => return o
  | none => throw "Order not found"

/-- The document after a transition. -/
def moved (ctx : ReadContext) (user : SessionUser) (o : StoredOrder) (target : OrderStatus)
    (options : TransitionOptions) : StoredOrder :=
  { o with
    toOrder := o.toOrder.transitioned
      (historyEntry o.status target user.toAuthenticatedUser.actor options ctx.now) options
    updatedAt := ctx.now }

def acceptRoute (ctx : ReadContext) (user : SessionUser) (o : StoredOrder) :
    Except String OrderObject :=
  if o.clientId ≠ user.userId then .error "Order not found"
  else if o.status ≠ .pendingPayment then .error "This order is not awaiting your confirmation"
  else if o.paymentMethod = .direct then
    .error "A DIRECT order is confirmed by paying it, not by accepting it"
  else
    let accepted := moved ctx user o .routedToTransport { extraUnset := [.paymentDeadline] }
    .ok (toRoleScopedShape accepted user.toAuthenticatedUser)

def cancelRoute (ctx : ReadContext) (user : SessionUser) (reason : Option String)
    (o : StoredOrder) : Except String OrderObject :=
  let isClient := decide (user.role = .client ∧ o.clientId = user.userId)
  if !isClient && user.role ≠ .fuelCompanyAdmin then .error "Not permitted to cancel this order"
  else if isClient && !clientCancellable.contains o.status then
    .error "Clients may not cancel an order at this stage"
  else if !isClient && !adminCancellable.contains o.status then
    .error "This order can no longer be cancelled"
  else
    let updated := moved ctx user o .cancelled
      { extraSet := [.cancelledBy user.userId, .cancellationReason reason] }
    .ok updated.toObject

def redispatchRoute (ctx : ReadContext) (user : SessionUser) (o : StoredOrder) :
    Except String OrderObject :=
  if o.status ≠ .approved then
    .error "Order must be APPROVED (post payment-timeout) to redispatch"
  else if user.role = .client ∧ 2 ≤ o.paymentTimeoutCount then
    .error "Two consecutive payment timeouts occurred — only the Company Admin may redispatch now"
  else
    let updated := moved ctx user o .pendingPayment
      { extraSet := [.paymentDeadline (ctx.now + ctx.cfg.paymentWindow)] }
    .ok updated.toObject

def listItem (ctx : ReadContext) (user : SessionUser) (o : StoredOrder) : OrderListItem where
  shape := toRoleScopedShape o user.toAuthenticatedUser
  etaMinutes := (driverTelemetry ctx o.toOrder).etaMinutes
  station := o.stationId.bind ctx.stations

def orderDetail (ctx : ReadContext) (user : SessionUser) (o : StoredOrder) : OrderDetail where
  shape := toRoleScopedShape o user.toAuthenticatedUser
  telemetry := driverTelemetry ctx o.toOrder
  station := o.stationId.bind ctx.stations
  vehicleVerified := o.verifications.any fun v => decide (v.stage = .departure) && v.matched
  rating := ctx.ratings o.id

/-- The answer to a route, over the stored orders. -/
def respond (ctx : ReadContext) (user : SessionUser) (orders : List StoredOrder) :
    ClientRoute → Except String ClientResponse
  | .create fields deliveryAddressText =>
      .ok (.created (freshOrder ctx fields deliveryAddressText).toObject (ctx.drawdown fields))
  | .list filter cursor => do
      let page ← findMine user filter cursor orders
      return .page (page.items.map (listItem ctx user)) page.nextCursor
  | .detail id => do
      let o ← findStored user orders id
      return .detail (orderDetail ctx user o)
  | .accept id => do
      let o ← findStored user orders id
      let accepted ← acceptRoute ctx user o
      return .order accepted
  | .cancel id reason => do
      let o ← findStored user orders id
      let cancelled ← cancelRoute ctx user reason o
      return .order cancelled
  | .redispatch id => do
      let o ← findStored user orders id
      let updated ← redispatchRoute ctx user o
      return .order updated

/-! ### Orders that differ in hidden fields only -/

def StoredOrder.unhidden (o : StoredOrder) : StoredOrder :=
  { o with
    verifications := []
    tankSummary := none
    assignmentAcknowledgedAt := none
    assignmentEscalationSmsAt := none
    assignmentEscalationSkippedReason := none
    assignedWhileIneligible := false
    assignedWhileIneligibleReason := none
    stopEvents := []
    statusHistory := o.statusHistory.map StatusHistoryEntry.anonymous
    supplierInvoices := []
    extracted := [] }

/-- The two collections are equal except in the hidden fields of their orders. -/
def SameButHidden (orders orders' : List StoredOrder) : Prop :=
  orders'.map StoredOrder.unhidden = orders.map StoredOrder.unhidden

/-- The answer apart from the derived flag. -/
def withoutVehicleVerified : Except String ClientResponse → Except String ClientResponse
  | .ok (.detail d) => .ok (.detail { d with vehicleVerified := false })
  | r => r

/-- A client's view has nothing in it but what is not hidden. -/
theorem toRoleScopedShape_client (o : StoredOrder) {user : AuthenticatedUser}
    (h : user.role = .client) :
    toRoleScopedShape o user =
      { order := o.unhidden, deleted := internalKeys ++ [.supplierInvoices] } := by
  simp only [toRoleScopedShape, buildSupplierInvoiceView, h]
  rfl

section unhidden
variable {o o' : StoredOrder}

/-- The visible fields that routes decide on. -/
structure SameVisible (o o' : StoredOrder) : Prop where
  id : o'.id = o.id
  fuelCompanyId : o'.fuelCompanyId = o.fuelCompanyId
  transportCompanyId : o'.transportCompanyId = o.transportCompanyId
  clientId : o'.clientId = o.clientId
  driverId : o'.driverId = o.driverId
  stationId : o'.stationId = o.stationId
  deliveryLocation : o'.deliveryLocation = o.deliveryLocation
  status : o'.status = o.status
  paymentMethod : o'.paymentMethod = o.paymentMethod
  paymentTimeoutCount : o'.paymentTimeoutCount = o.paymentTimeoutCount
  updatedAt : o'.updatedAt = o.updatedAt

theorem sameVisible (h : o'.unhidden = o.unhidden) : SameVisible o o' := by
  have hfield : ∀ {α : Type} (f : StoredOrder → α), f o'.unhidden = f o.unhidden :=
    fun f => congrArg f h
  exact {
    id := hfield fun x => x.id
    fuelCompanyId := hfield fun x => x.fuelCompanyId
    transportCompanyId := hfield fun x => x.transportCompanyId
    clientId := hfield fun x => x.clientId
    driverId := hfield fun x => x.driverId
    stationId := hfield fun x => x.stationId
    deliveryLocation := hfield fun x => x.deliveryLocation
    status := hfield fun x => x.status
    paymentMethod := hfield fun x => x.paymentMethod
    paymentTimeoutCount := hfield fun x => x.paymentTimeoutCount
    updatedAt := hfield fun x => x.updatedAt }

theorem driverTelemetry_unhidden (ctx : ReadContext) (h : o'.unhidden = o.unhidden) :
    driverTelemetry ctx o'.toOrder = driverTelemetry ctx o.toOrder := by
  have hsame := sameVisible h
  simp only [driverTelemetry, hsame.driverId, hsame.deliveryLocation]

theorem listItem_unhidden (ctx : ReadContext) {user : SessionUser} (hclient : user.role = .client)
    (h : o'.unhidden = o.unhidden) : listItem ctx user o' = listItem ctx user o := by
  simp only [listItem, toRoleScopedShape_client _ hclient, h, driverTelemetry_unhidden ctx h,
    (sameVisible h).stationId]

theorem orderDetail_unhidden (ctx : ReadContext) {user : SessionUser}
    (hclient : user.role = .client) (h : o'.unhidden = o.unhidden) :
    { orderDetail ctx user o' with vehicleVerified := false } =
      { orderDetail ctx user o with vehicleVerified := false } := by
  simp only [orderDetail, toRoleScopedShape_client _ hclient, h, driverTelemetry_unhidden ctx h,
    (sameVisible h).stationId, (sameVisible h).id]

theorem unhidden_unhidden (o : StoredOrder) : o.unhidden.unhidden = o.unhidden := by
  simp only [StoredOrder.unhidden, List.map_map]
  rfl

theorem accepted_eq (ctx : ReadContext) (user : SessionUser) (o : StoredOrder) :
    moved ctx user o .routedToTransport { extraUnset := [.paymentDeadline] } =
      { o with
        status := .routedToTransport
        statusHistory := o.statusHistory ++
          [historyEntry o.status .routedToTransport user.toAuthenticatedUser.actor
            { extraUnset := [.paymentDeadline] } ctx.now]
        paymentDeadline := none
        updatedAt := ctx.now } := rfl

/-- Accepting does to the visible part what it does to the order. -/
theorem accepted_unhidden (ctx : ReadContext) (user : SessionUser) (h : o'.unhidden = o.unhidden) :
    (moved ctx user o' .routedToTransport { extraUnset := [.paymentDeadline] }).unhidden =
      (moved ctx user o .routedToTransport { extraUnset := [.paymentDeadline] }).unhidden := by
  have hmoved : ∀ x : StoredOrder,
      (moved ctx user x .routedToTransport { extraUnset := [.paymentDeadline] }).unhidden =
        (moved ctx user x.unhidden .routedToTransport
          { extraUnset := [.paymentDeadline] }).unhidden := by
    intro x
    rw [accepted_eq, accepted_eq]
    simp only [StoredOrder.unhidden, List.map_append, List.map_map]
    rfl
  rw [hmoved o', h, ← hmoved]

theorem acceptRoute_unhidden (ctx : ReadContext) {user : SessionUser}
    (hclient : user.role = .client) (h : o'.unhidden = o.unhidden) :
    acceptRoute ctx user o' = acceptRoute ctx user o := by
  have hsame := sameVisible h
  simp only [acceptRoute, toRoleScopedShape_client _ hclient, accepted_unhidden ctx user h,
    hsame.clientId, hsame.status, hsame.paymentMethod]

end unhidden

/-! ### Finding an order -/

theorem storedOrder_map (orders : List StoredOrder) (id : Id) :
    storedOrder (orders.map StoredOrder.unhidden) id =
      (storedOrder orders id).map StoredOrder.unhidden := List.find?_map ..

/-- What is found is the same but for what is hidden. -/
theorem storedOrder_same {orders orders' : List StoredOrder} (h : SameButHidden orders orders')
    (id : Id) :
    (storedOrder orders' id).map StoredOrder.unhidden =
      (storedOrder orders id).map StoredOrder.unhidden := by
  rw [← storedOrder_map, ← storedOrder_map, h]

/-- The parties an order names. -/
def Order.parties (o : Order) : Id × Id × Option Id × Option Id :=
  (o.fuelCompanyId, o.clientId, o.transportCompanyId, o.driverId)

theorem document_congr {x y : Order} (h : x.parties = y.parties) (id : Id) :
    (x.withId id).document = (y.withId id).document := by
  simp only [Order.parties, Prod.mk.injEq] at h
  obtain ⟨hfuel, hclient, htransport, hdriver⟩ := h
  simp only [OrderDocument.document, Order.withId, hfuel, hclient, htransport, hdriver]

/-- Whether an order may be read depends on the parties it names. -/
theorem readOrder_congr (user : SessionUser) {orders orders' : Id → Option Order} {id : Id}
    (h : (orders' id).map Order.parties = (orders id).map Order.parties) :
    (readOrder user orders' id).map (fun _ => ()) = (readOrder user orders id).map fun _ => () := by
  unfold readOrder findVisible
  cases pluginScope user.requestScope .multiParty with
  | error e => rfl
  | ok scope =>
      cases hx : orders id with
      | none =>
          have hy : orders' id = none := by simpa [hx] using h
          rw [hy]
      | some x =>
          obtain ⟨y, hy, hxy⟩ : ∃ y, orders' id = some y ∧ y.parties = x.parties := by
            simpa [hx] using h
          have hclient : (y.withId id).clientId = (x.withId id).clientId :=
            congrArg (fun p => p.2.1) hxy
          have hdriver : (y.withId id).driverId = (x.withId id).driverId :=
            congrArg (fun p => p.2.2.2) hxy
          simp only [hy, bind, Except.bind, pure, Except.pure, Option.map_some, Option.filter_some,
            document_congr hxy]
          split_ifs
          · simp only [hclient, hdriver]
            cases user.role <;> simp only [] <;> split_ifs <;> rfl
          · rfl

theorem findStored_same (user : SessionUser) {orders orders' : List StoredOrder}
    (h : SameButHidden orders orders') (id : Id) :
    (findStored user orders' id).map StoredOrder.unhidden =
      (findStored user orders id).map StoredOrder.unhidden := by
  have hstored := storedOrder_same h id
  have hparties : ((storedOrder orders' id).map (·.toOrder)).map Order.parties =
      ((storedOrder orders id).map (·.toOrder)).map Order.parties := by
    have hunhidden := congrArg (Option.map fun o : StoredOrder => o.toOrder.parties) hstored
    rw [Option.map_map, Option.map_map] at hunhidden
    rw [Option.map_map, Option.map_map]
    exact hunhidden
  let reading (l : List StoredOrder) := readOrder user (fun i => (storedOrder l i).map (·.toOrder)) id
  have hread : (reading orders').map (fun _ => ()) = (reading orders).map fun _ => () :=
    readOrder_congr user hparties
  have hfind : ∀ l, findStored user l id = (reading l).bind fun _ =>
      match storedOrder l id with
      | some o => .ok o
      | none => .error "Order not found" := fun l => rfl
  rw [hfind, hfind]
  cases hr : reading orders with
  | error e =>
      rw [hr] at hread
      cases hr' : reading orders' with
      | error e' =>
          rw [hr'] at hread
          cases hread
          rfl
      | ok o' =>
          rw [hr'] at hread
          cases hread
  | ok o =>
      rw [hr] at hread
      cases hr' : reading orders' with
      | error e' =>
          rw [hr'] at hread
          cases hread
      | ok o' =>
          cases hx : storedOrder orders id with
          | none =>
              rw [hx] at hstored
              rw [Option.map_eq_none_iff.mp hstored]
              rfl
          | some x =>
              rw [hx] at hstored
              obtain ⟨y, hy, hxy⟩ := Option.map_eq_some_iff.mp hstored
              rw [hy]
              exact congrArg Except.ok hxy

/-! ### The list -/

theorem orderQuery_ignores (user : SessionUser) (filter : OrderListFilter) :
    (orderQuery user filter).Ignores StoredOrder.unhidden := by
  refine Conditions.ignores_object fun e he d => ?_
  rcases List.mem_append.mp he with he | he
  · unfold stateQuery at he
    split at he
    · obtain rfl := List.mem_singleton.mp he
      rfl
    · split at he
      · obtain rfl := List.mem_singleton.mp he
        rfl
      · obtain rfl := List.mem_singleton.mp he
        rfl
      · cases he
  · rcases partyQuery_mem he with ⟨-, rfl⟩ | ⟨-, rfl⟩ <;> rfl

theorem listScope_ignores {user : SessionUser} {scope : Conditions String StoredOrder}
    (h : listScope StoredOrder.document user = .ok scope) :
    scope.Ignores StoredOrder.unhidden := by
  unfold listScope at h
  obtain ⟨s, -, h⟩ := except_bind_ok h
  cases s with
  | none =>
      cases h
      exact Conditions.ignores_empty
  | some s =>
      cases h
      exact Conditions.ignores_comap fun d => rfl

/-- The page of the visible parts is the visible part of the page. -/
theorem findMine_unhidden (user : SessionUser) (filter : OrderListFilter)
    (cursor : Option (Position Numbers)) (orders : List StoredOrder) :
    findMine user filter cursor (orders.map StoredOrder.unhidden) =
      (findMine user filter cursor orders).map fun page =>
        { items := page.items.map StoredOrder.unhidden
          nextCursor := page.nextCursor } := by
  have hfind : findOrdersForUser user filter cursor (orders.map StoredOrder.unhidden) =
      (findOrdersForUser user filter cursor orders).map fun page =>
        { items := page.items.map StoredOrder.unhidden
          nextCursor := page.nextCursor } := by
    unfold findOrdersForUser
    split
    · rfl
    · cases hscope : listScope StoredOrder.document user with
      | error e => rfl
      | ok scope =>
          exact congrArg Except.ok (paginate_map (fun d => rfl) (orderQuery_ignores user filter)
            (listScope_ignores hscope) (by decide))
  unfold findMine
  split
  · split_ifs
    · exact hfind
    · rfl
  · exact hfind

theorem listRoute_same (ctx : ReadContext) {user : SessionUser} (hclient : user.role = .client)
    {orders orders' : List StoredOrder} (h : SameButHidden orders orders')
    (filter : OrderListFilter) (cursor : Option (Position Numbers)) :
    respond ctx user orders' (.list filter cursor) =
      respond ctx user orders (.list filter cursor) := by
  have hitem : ∀ o : StoredOrder, listItem ctx user o.unhidden = listItem ctx user o :=
    fun o => listItem_unhidden ctx hclient (unhidden_unhidden o)
  have hlist : ∀ l, respond ctx user (l.map StoredOrder.unhidden) (.list filter cursor) =
      respond ctx user l (.list filter cursor) := by
    intro l
    simp only [respond, findMine_unhidden]
    cases findMine user filter cursor l with
    | error e => rfl
    | ok page =>
        simp only [Except.map, bind, Except.bind, List.map_map, pure, Except.pure]
        congr 2
        exact List.map_congr_left fun o _ => hitem o
  rw [← hlist orders', h, hlist]

/-! ### What no route shows -/

/-- The routes that return the stored document, for an order on which they act. -/
def ReturnsStored (user : SessionUser) (orders : List StoredOrder) : ClientRoute → Prop
  | .cancel id _ => ∃ o, findStored user orders id = .ok o ∧ o.clientId = user.userId ∧
      clientCancellable.contains o.status = true
  | .redispatch id => ∃ o, findStored user orders id = .ok o ∧ o.status = .approved ∧
      o.paymentTimeoutCount < 2
  | _ => False

theorem findStored_mono {user : SessionUser} {orders orders' : List StoredOrder}
    (h : SameButHidden orders orders') {id : Id} {o : StoredOrder}
    (hfind : findStored user orders id = .ok o) :
    ∃ o', findStored user orders' id = .ok o' ∧ o'.unhidden = o.unhidden := by
  have hsame := findStored_same user h id
  rw [hfind] at hsame
  cases hfind' : findStored user orders' id with
  | error e =>
      rw [hfind'] at hsame
      cases hsame
  | ok o' =>
      rw [hfind'] at hsame
      exact ⟨o', rfl, Except.ok.inj hsame⟩

theorem findStored_error {user : SessionUser} {orders orders' : List StoredOrder}
    (h : SameButHidden orders orders') {id : Id} {e : String}
    (hfind : findStored user orders id = .error e) : findStored user orders' id = .error e := by
  have hsame := findStored_same user h id
  rw [hfind] at hsame
  cases hfind' : findStored user orders' id with
  | error e' =>
      rw [hfind'] at hsame
      cases hsame
      rfl
  | ok o' =>
      rw [hfind'] at hsame
      cases hsame

/-- A cancellation that is not admitted is refused alike for orders that differ in
hidden fields. -/
theorem cancelRoute_refused (ctx : ReadContext) {user : SessionUser} (hclient : user.role = .client)
    (reason : Option String) {o o' : StoredOrder} (h : o'.unhidden = o.unhidden)
    (hrefused : ¬ (o.clientId = user.userId ∧ clientCancellable.contains o.status = true)) :
    ∃ e, cancelRoute ctx user reason o = .error e ∧ cancelRoute ctx user reason o' = .error e := by
  have hsame := sameVisible h
  by_cases howner : o.clientId = user.userId
  · have hstatus : clientCancellable.contains o.status = false := by
      simpa [howner] using hrefused
    refine ⟨"Clients may not cancel an order at this stage", ?_, ?_⟩
    · simp only [cancelRoute, hclient, howner, hstatus]
      rfl
    · simp only [cancelRoute, hclient, hsame.clientId, hsame.status, howner, hstatus]
      rfl
  · refine ⟨"Not permitted to cancel this order", ?_, ?_⟩
    · simp only [cancelRoute, hclient, howner]
      rfl
    · simp only [cancelRoute, hclient, hsame.clientId, howner]
      rfl

theorem redispatchRoute_refused (ctx : ReadContext) {user : SessionUser}
    (hclient : user.role = .client) {o o' : StoredOrder} (h : o'.unhidden = o.unhidden)
    (hrefused : ¬ (o.status = .approved ∧ o.paymentTimeoutCount < 2)) :
    ∃ e, redispatchRoute ctx user o = .error e ∧ redispatchRoute ctx user o' = .error e := by
  have hsame := sameVisible h
  by_cases hstatus : o.status = .approved
  · have hcount : 2 ≤ o.paymentTimeoutCount := by
      by_contra hlt
      exact hrefused ⟨hstatus, not_le.mp hlt⟩
    simp only [redispatchRoute, hsame.status, hsame.paymentTimeoutCount,
      if_neg (not_not.mpr hstatus), if_pos (And.intro hclient hcount)]
    exact ⟨_, rfl, rfl⟩
  · simp only [redispatchRoute, hsame.status, if_pos hstatus]
    exact ⟨_, rfl, rfl⟩

theorem respond_same (ctx : ReadContext) {user : SessionUser} (hclient : user.role = .client)
    {orders orders' : List StoredOrder} (h : SameButHidden orders orders') {route : ClientRoute}
    (hroute : ¬ ReturnsStored user orders route) :
    withoutVehicleVerified (respond ctx user orders' route) =
      withoutVehicleVerified (respond ctx user orders route) := by
  cases route with
  | create fields address => rfl
  | list filter cursor => rw [listRoute_same ctx hclient h]
  | detail id =>
      cases hfind : findStored user orders id with
      | error e => simp only [respond, hfind, findStored_error h hfind]
      | ok o =>
          obtain ⟨o', hfind', ho⟩ := findStored_mono h hfind
          simp only [respond, hfind, hfind']
          exact congrArg (fun d => Except.ok (ClientResponse.detail d))
            (orderDetail_unhidden ctx hclient ho)
  | accept id =>
      cases hfind : findStored user orders id with
      | error e => simp only [respond, hfind, findStored_error h hfind]
      | ok o =>
          obtain ⟨o', hfind', ho⟩ := findStored_mono h hfind
          simp only [respond, hfind, hfind']
          simp only [bind, Except.bind, acceptRoute_unhidden ctx hclient ho]
  | cancel id reason =>
      cases hfind : findStored user orders id with
      | error e => simp only [respond, hfind, findStored_error h hfind]
      | ok o =>
          obtain ⟨o', hfind', ho⟩ := findStored_mono h hfind
          obtain ⟨e, he, he'⟩ := cancelRoute_refused ctx hclient reason ho
            fun hadmitted => hroute ⟨o, hfind, hadmitted⟩
          simp only [respond, hfind, hfind']
          simp only [bind, Except.bind, he, he']
  | redispatch id =>
      cases hfind : findStored user orders id with
      | error e => simp only [respond, hfind, findStored_error h hfind]
      | ok o =>
          obtain ⟨o', hfind', ho⟩ := findStored_mono h hfind
          obtain ⟨e, he, he'⟩ := redispatchRoute_refused ctx hclient ho
            fun hadmitted => hroute ⟨o, hfind, hadmitted⟩
          simp only [respond, hfind, hfind']
          simp only [bind, Except.bind, he, he']

/-! ### What the stored document shows -/

def StoredOrder.flip (id : Id) (o : StoredOrder) : StoredOrder :=
  if o.id = id then { o with assignedWhileIneligible := !o.assignedWhileIneligible } else o

theorem flip_unhidden (id : Id) (o : StoredOrder) : (o.flip id).unhidden = o.unhidden := by
  unfold StoredOrder.flip
  split_ifs <;> rfl

theorem sameButHidden_flip (orders : List StoredOrder) (id : Id) :
    SameButHidden orders (orders.map (StoredOrder.flip id)) := by
  rw [SameButHidden, List.map_map]
  exact List.map_congr_left fun o _ => flip_unhidden id o

theorem storedOrder_id {orders : List StoredOrder} {id : Id} {o : StoredOrder}
    (h : storedOrder orders id = some o) : o.id = id := by
  simpa using List.find?_some h

theorem storedOrder_flip {orders : List StoredOrder} {id : Id} {o : StoredOrder}
    (h : storedOrder orders id = some o) :
    storedOrder (orders.map (StoredOrder.flip id)) id =
      some { o with assignedWhileIneligible := !o.assignedWhileIneligible } := by
  have hid : ∀ x : StoredOrder, (x.flip id).id = x.id := by
    intro x
    unfold StoredOrder.flip
    split_ifs <;> rfl
  have hsame : (fun x : StoredOrder => decide (x.id = id)) ∘ StoredOrder.flip id =
      fun x : StoredOrder => decide (x.id = id) := by
    funext x
    simp only [Function.comp, hid]
  rw [storedOrder, List.find?_map, hsame]
  rw [storedOrder] at h
  rw [h, Option.map_some, StoredOrder.flip, if_pos (storedOrder_id h)]

theorem findStored_ok {user : SessionUser} {orders : List StoredOrder} {id : Id} {o : StoredOrder}
    (h : findStored user orders id = .ok o) : storedOrder orders id = some o := by
  unfold findStored at h
  obtain ⟨x, -, h⟩ := except_bind_ok h
  cases hstored : storedOrder orders id with
  | none =>
      rw [hstored] at h
      cases h
  | some y =>
      rw [hstored] at h
      cases h
      rfl

/-- The flipped order is found in place of the order. -/
theorem findStored_flip {user : SessionUser} {orders : List StoredOrder} {id : Id}
    {o : StoredOrder} (h : findStored user orders id = .ok o) :
    findStored user (orders.map (StoredOrder.flip id)) id =
      .ok { o with assignedWhileIneligible := !o.assignedWhileIneligible } := by
  obtain ⟨o', hfind, -⟩ := findStored_mono (sameButHidden_flip orders id) h
  have hstored := findStored_ok hfind
  rw [storedOrder_flip (findStored_ok h)] at hstored
  cases hstored
  exact hfind

/-- Whether a stored order that was returned had been assigned while ineligible. -/
def shownIneligible : Except String ClientResponse → Option Bool
  | .ok (.order x) => some x.order.assignedWhileIneligible
  | _ => none

theorem returnsStored_shows (ctx : ReadContext) {user : SessionUser} (hclient : user.role = .client)
    {orders : List StoredOrder} {route : ClientRoute} (h : ReturnsStored user orders route) :
    ∃ id b, shownIneligible (respond ctx user orders route) = some b ∧
      shownIneligible (respond ctx user (orders.map (StoredOrder.flip id)) route) = some !b := by
  cases route with
  | create fields address => exact absurd h id
  | list filter cursor => exact absurd h id
  | detail orderId => exact absurd h id
  | accept orderId => exact absurd h id
  | cancel id reason =>
      obtain ⟨o, hfind, howner, hstatus⟩ := h
      have hcancel : ∀ x : StoredOrder, x.clientId = user.userId →
          clientCancellable.contains x.status = true →
          cancelRoute ctx user reason x = .ok (moved ctx user x .cancelled
            { extraSet := [.cancelledBy user.userId, .cancellationReason reason] }).toObject := by
        intro x howner hstatus
        simp only [cancelRoute, hclient, howner, hstatus]
        rfl
      refine ⟨id, o.assignedWhileIneligible, ?_, ?_⟩
      · simp only [respond, hfind, bind, Except.bind, hcancel o howner hstatus]
        rfl
      · simp only [respond, findStored_flip hfind, bind, Except.bind]
        rw [hcancel { o with assignedWhileIneligible := !o.assignedWhileIneligible } howner hstatus]
        rfl
  | redispatch id =>
      obtain ⟨o, hfind, hstatus, hcount⟩ := h
      have hredispatch : ∀ x : StoredOrder, x.status = .approved → x.paymentTimeoutCount < 2 →
          redispatchRoute ctx user x = .ok (moved ctx user x .pendingPayment
            { extraSet := [.paymentDeadline (ctx.now + ctx.cfg.paymentWindow)] }).toObject := by
        intro x hstatus hcount
        rw [redispatchRoute, if_neg (not_not.mpr hstatus), if_neg fun h => not_le.mpr hcount h.2]
      refine ⟨id, o.assignedWhileIneligible, ?_, ?_⟩
      · simp only [respond, hfind, bind, Except.bind, hredispatch o hstatus hcount]
        rfl
      · simp only [respond, findStored_flip hfind, bind, Except.bind]
        rw [hredispatch { o with assignedWhileIneligible := !o.assignedWhileIneligible }
          hstatus hcount]
        rfl

/-- A client's answer, apart from the derived flag, is independent of the hidden fields
exactly if it is not that of a cancellation or a redispatch that succeeds. -/
theorem client_routes_hide_iff (ctx : ReadContext) (user : SessionUser)
    (hclient : user.role = .client) (orders : List StoredOrder) (route : ClientRoute) :
    (∀ orders', SameButHidden orders orders' →
      withoutVehicleVerified (respond ctx user orders' route) =
        withoutVehicleVerified (respond ctx user orders route)) ↔
      ¬ ReturnsStored user orders route := by
  constructor
  · intro hsame hreturns
    obtain ⟨id, b, hb, hflip⟩ := returnsStored_shows ctx hclient hreturns
    have heq := hsame _ (sameButHidden_flip orders id)
    have hshown : ∀ r, shownIneligible (withoutVehicleVerified r) = shownIneligible r := by
      intro r
      unfold withoutVehicleVerified
      split <;> rfl
    have hcontra := congrArg shownIneligible heq
    rw [hshown, hshown, hb, hflip] at hcontra
    cases b <;> cases hcontra
  · exact fun hroute orders' h => respond_same ctx hclient h hroute

/-! ### A cancelled order -/

def readContext : ReadContext where
  now := 100
  cfg := { defaultCommissionCeiling := 0, distanceMeters := fun _ _ => 0 }
  drivers _ := none
  stations _ := none
  ratings _ := none
  freshId := 7
  drawdown _ := ⟨0, 0⟩

theorem client_routes_hide_iff_detail :
    (∀ orders', SameButHidden [listedOrder 1] orders' →
      withoutVehicleVerified (respond readContext pagingClient orders' (.detail 1)) =
        withoutVehicleVerified (respond readContext pagingClient [listedOrder 1] (.detail 1))) ↔
      ¬ ReturnsStored pagingClient [listedOrder 1] (.detail 1) :=
  client_routes_hide_iff readContext pagingClient rfl [listedOrder 1] (.detail 1)

/-- An order that the user of the given id has approved. -/
def approvedBy (actorId : Id) : StoredOrder :=
  { listedOrder 1 with
    status := .approved
    statusHistory := [{
      source := .pendingApproval
      target := .approved
      actorId := actorId
      actorRole := .fuelCompanyAdmin
      at_ := 50 }] }

/-- The client who cancels an approved order is told who approved it. -/
theorem cancel_shows_history :
    SameButHidden [approvedBy 21] [approvedBy 24] ∧
      withoutVehicleVerified (respond readContext pagingClient [approvedBy 24] (.cancel 1 none)) ≠
        withoutVehicleVerified (respond readContext pagingClient [approvedBy 21]
          (.cancel 1 none)) := by
  refine ⟨rfl, fun h => ?_⟩
  let actors : Except String ClientResponse → List Id := fun
    | .ok (.order x) => x.order.statusHistory.map fun e => e.actorId
    | _ => []
  have hactors := congrArg actors h
  exact absurd hactors (by decide +kernel)

end CiroFuel
