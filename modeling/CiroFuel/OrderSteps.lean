import CiroFuel.InvoiceSteps

/-!
# What a call can make of an order

One constructor for each call that acts on an order, with the guard it passed
and the order it left behind. A transition reads the clock as it writes its
entry; the two that compute a deadline read it before. Every invariant of orders
is proved by cases on this relation, and no proof unfolds a transaction again.
-/
namespace CiroFuel
open Snapshot Tx

/-- The order after a transition at the instant `at_`. -/
def Order.moved (o : Order) (source target : OrderStatus) (actor : TransitionActor)
    (options : TransitionOptions) (at_ : Instant) : Order :=
  o.transitioned (historyEntry source target actor options at_) options

section moved
variable (o : Order) (source target : OrderStatus) (actor : TransitionActor)
  (options : TransitionOptions) (at_ : Instant)

@[simp] theorem Order.moved_status : (o.moved source target actor options at_).status = target := by
  simp [moved]

@[simp] theorem Order.moved_statusHistory :
    (o.moved source target actor options at_).statusHistory =
      o.statusHistory ++ [historyEntry source target actor options at_] := by
  simp [moved]

end moved

/-- What routing makes of an order, its invoice included: it is routed, priced
and left awaiting settlement. -/
def Order.awaiting (cfg : Settings) (o : Order) (id : Id) (source : OrderStatus)
    (transportCompanyId : Id) (deliveryFee : ℚ) (actor : TransitionActor) (invoiceId : Id)
    (routedAt pricedAt now at_ : Instant) : Order :=
  let routed := o.moved source .routedToTransport actor
    { extraSet := [.transportCompanyId transportCompanyId] } routedAt
  let awaiting := routed.moved .routedToTransport .pendingPayment actor
    { extraSet := settlementFields cfg (routed.withId id) deliveryFee pricedAt now } at_
  { awaiting with invoiceId := some invoiceId }

theorem settlementFields_set (cfg : Settings) (order : OrderDocument) (deliveryFee : ℚ)
    (pricedAt now : Instant) (o : Order) :
    ∃ priceBreakdown,
      (settlementFields cfg order deliveryFee pricedAt now).foldl OrderField.set o =
        { o with
          priceBreakdown := priceBreakdown
          finalPrice := some (settledPrice order deliveryFee pricedAt).2
          paymentDeadline :=
            if order.paymentMethod = .direct then some (now + cfg.paymentWindow)
            else o.paymentDeadline } := by
  unfold settlementFields
  rcases settledPrice order deliveryFee pricedAt with ⟨priced, finalPrice⟩
  refine ⟨priced.or o.priceBreakdown, ?_⟩
  by_cases hm : order.paymentMethod = .direct <;> cases priced <;> simp [hm, OrderField.set]

/-- Awaiting settlement, field by field. -/
theorem Order.settling_eq (cfg : Settings) (o : Order) (order : OrderDocument) (deliveryFee : ℚ)
    (actor : TransitionActor) (pricedAt now at_ : Instant) :
    ∃ priceBreakdown, o.moved .routedToTransport .pendingPayment actor
        { extraSet := settlementFields cfg order deliveryFee pricedAt now } at_ =
      { o with
        status := .pendingPayment
        statusHistory := o.statusHistory ++
          [historyEntry .routedToTransport .pendingPayment actor {} at_]
        priceBreakdown := priceBreakdown
        finalPrice := some (settledPrice order deliveryFee pricedAt).2
        paymentDeadline :=
          if order.paymentMethod = .direct then some (now + cfg.paymentWindow)
          else o.paymentDeadline } :=
  settlementFields_set cfg order deliveryFee pricedAt now
    { o with
      status := .pendingPayment
      statusHistory := o.statusHistory ++
        [historyEntry .routedToTransport .pendingPayment actor {} at_] }

/-- Routing, field by field. -/
theorem Order.awaiting_eq (cfg : Settings) (o : Order) (id : Id) (source : OrderStatus)
    (transportCompanyId : Id) (deliveryFee : ℚ) (actor : TransitionActor) (invoiceId : Id)
    (routedAt pricedAt now at_ : Instant) :
    ∃ priceBreakdown finalPrice, Order.awaiting cfg o id source transportCompanyId deliveryFee actor
        invoiceId routedAt pricedAt now at_ =
      { o with
        status := .pendingPayment
        statusHistory := o.statusHistory ++
          [historyEntry source .routedToTransport actor {} routedAt] ++
          [historyEntry .routedToTransport .pendingPayment actor {} at_]
        transportCompanyId := some transportCompanyId
        priceBreakdown := priceBreakdown
        finalPrice := some finalPrice
        paymentDeadline :=
          if o.paymentMethod = .direct then some (now + cfg.paymentWindow) else o.paymentDeadline
        invoiceId := some invoiceId } := by
  let routed := o.moved source .routedToTransport actor
    { extraSet := [.transportCompanyId transportCompanyId] } routedAt
  obtain ⟨priceBreakdown, hset⟩ := Order.settling_eq cfg routed (routed.withId id) deliveryFee actor
    pricedAt now at_
  refine ⟨priceBreakdown, (settledPrice (routed.withId id) deliveryFee pricedAt).2, ?_⟩
  exact congrArg (fun o' : Order => { o' with invoiceId := some invoiceId }) hset

theorem Order.awaiting_priced (cfg : Settings) (o : Order) (id : Id) (source : OrderStatus)
    (transportCompanyId : Id) (deliveryFee : ℚ) (actor : TransitionActor) (invoiceId : Id)
    (routedAt pricedAt now at_ : Instant) :
    (Order.awaiting cfg o id source transportCompanyId deliveryFee actor invoiceId routedAt
        pricedAt now at_).finalPrice = some (settledPrice (o.withId id) deliveryFee pricedAt).2 := by
  let routed := o.moved source .routedToTransport actor
    { extraSet := [.transportCompanyId transportCompanyId] } routedAt
  have hsame : settledPrice (routed.withId id) deliveryFee pricedAt =
      settledPrice (o.withId id) deliveryFee pricedAt := rfl
  obtain ⟨priceBreakdown, hset⟩ := Order.settling_eq cfg routed (routed.withId id) deliveryFee actor
    pricedAt now at_
  rw [← hsame]
  exact congrArg Order.finalPrice hset

/-- What an order costs once its haul does. -/
def settlementPrice (order : OrderDocument) (deliveryFee : ℚ) : ℚ :=
  (settledPrice order deliveryFee 0).2

theorem settledPrice_snd (order : OrderDocument) (deliveryFee : ℚ) (t : Instant) :
    (settledPrice order deliveryFee t).2 = settlementPrice order deliveryFee := by
  unfold settlementPrice settledPrice
  cases order.priceBreakdown <;> rfl

theorem assignmentFields_set (a : Assignment) (driver : User) (truck : Truck) (tank : Tank)
    (client : Option User) (o : Order) :
    ∃ clientSummary ineligible reason,
      (assignmentFields a driver truck tank client).foldl OrderField.set o =
        { o with
          driverId := some a.driverId
          truckId := some a.truckId
          tankId := some a.tankId
          driverSummary := some ⟨driver.fullName, driver.phone, truck.plateNumber⟩
          tankSummary := some ⟨tank.code, tank.material⟩
          warehouseId := some a.warehouseId
          warehouseSummary := some a.warehouse
          clientSummary := clientSummary
          assignedWhileIneligible := ineligible
          assignedWhileIneligibleReason := reason } := by
  unfold assignmentFields
  refine ⟨(client.map fun c => ⟨c.fullName, c.phone⟩).or o.clientSummary,
    a.ineligibleReason.isSome || o.assignedWhileIneligible,
    a.ineligibleReason.getD o.assignedWhileIneligibleReason, ?_⟩
  cases client <;> cases a.ineligibleReason <;> simp [OrderField.set]

/-- Assignment, field by field. -/
theorem Order.assigned_eq (o : Order) (a : Assignment) (driver : User) (truck : Truck)
    (tank : Tank) (client : Option User) (at_ : Instant) :
    ∃ clientSummary ineligible reason,
      o.moved .routedToTransport .assignedToDriver systemActor
        { extraSet := assignmentFields a driver truck tank client } at_ =
      { o with
        status := .assignedToDriver
        statusHistory := o.statusHistory ++
          [historyEntry .routedToTransport .assignedToDriver systemActor {} at_]
        driverId := some a.driverId
        truckId := some a.truckId
        tankId := some a.tankId
        driverSummary := some ⟨driver.fullName, driver.phone, truck.plateNumber⟩
        tankSummary := some ⟨tank.code, tank.material⟩
        warehouseId := some a.warehouseId
        warehouseSummary := some a.warehouse
        clientSummary := clientSummary
        assignedWhileIneligible := ineligible
        assignedWhileIneligibleReason := reason } := by
  let entry := historyEntry .routedToTransport .assignedToDriver systemActor {} at_
  obtain ⟨clientSummary, ineligible, reason, hset⟩ := assignmentFields_set a driver truck tank client
    { o with status := .assignedToDriver, statusHistory := o.statusHistory ++ [entry] }
  exact ⟨clientSummary, ineligible, reason, hset⟩

/-- What a call can have made of the order it acts on. -/
inductive OrderStep (cfg : Settings) (time : ℕ → Instant) : Call → Order → Order → Prop where
  | approve {order actor finalPrice o n} (hstatus : o.status = .pendingApproval) :
      OrderStep cfg time (.approve order actor finalPrice) o
        (o.moved .pendingApproval .approved actor
          { extraSet := [.finalPrice (finalPrice.getD order.estimatedPrice),
              .approvedBy actor.actorId] } (time n))
  | reject {id actor reason o n} (hstatus : o.status = .pendingApproval) :
      OrderStep cfg time (.reject id actor reason) o
        (o.moved .pendingApproval .rejected actor
          { extraSet := [.rejectedBy actor.actorId, .rejectionReason reason] } (time n))
  | awaitRouting {order actor o n} (hstatus : o.status = .approved) :
      OrderStep cfg time (.awaitRouting order actor) o
        (o.moved .approved .awaitingRouting actor {} (time n))
  | route {order source transportCompanyId deliveryFee actor o invoiceId n}
      (hstatus : o.status = source) (hedge : permits source .routedToTransport false = true) :
      OrderStep cfg time (.route order source transportCompanyId deliveryFee actor) o
        (Order.awaiting cfg o order.id source transportCompanyId deliveryFee actor invoiceId
          (time n) (time (n + 1)) (time (n + 2)) (time (n + 3)))
  | reopen {order actor o n} (hstatus : o.status = .approved) :
      OrderStep cfg time (.reopen order actor) o
        (o.moved .approved .pendingPayment actor
          { extraSet := [.paymentDeadline (time n + cfg.paymentWindow)] } (time (n + 1)))
  | accept {order actor o n} (hstatus : o.status = .pendingPayment) :
      OrderStep cfg time (.accept order actor) o
        (o.moved .pendingPayment .routedToTransport actor
          { extraUnset := [.paymentDeadline] } (time n))
  | settle {order eventId transactionId o n} (hstatus : o.status = .pendingPayment) :
      OrderStep cfg time (.settle order eventId transactionId) o
        (o.moved .pendingPayment .routedToTransport systemActor
          { extraSet := [.paymentConfirmationId eventId]
            extraUnset := [.paymentDeadline] } (time n))
  | timeOut {job order o n} (hstatus : o.status = .pendingPayment) :
      OrderStep cfg time (.timeOut job order) o
        (o.moved .pendingPayment .approved systemActor
          { extraSet := [.paymentTimeoutCount (order.paymentTimeoutCount + 1)]
            extraUnset := [.driverId, .paymentDeadline] } (time n))
  | assign {order a o driver truck tank client n} (hstatus : o.status = .routedToTransport) :
      OrderStep cfg time (.assign order a) o
        (o.moved .routedToTransport .assignedToDriver systemActor
          { extraSet := assignmentFields a driver truck tank client } (time n))
  | reassign {order truckId tankId o driverSummary tankSummary} :
      OrderStep cfg time (.reassign order truckId tankId) o
        { o with
          truckId := some truckId
          tankId := some tankId
          driverSummary := driverSummary
          tankSummary := tankSummary }
  | cancel {order actor reason o n} (hstatus : o.status = order.status)
      (hedge : permits order.status .cancelled false = true) :
      OrderStep cfg time (.cancel order actor reason) o
        (o.moved order.status .cancelled actor
          { extraSet := [.cancelledBy actor.actorId, .cancellationReason reason] } (time n))
  | complete {order actor o n} (hstatus : o.status = .unloading) :
      OrderStep cfg time (.complete order actor) o
        (o.moved .unloading .delivered actor {} (time n))
  | forceComplete {order actor reason o n} (hstatus : o.status = order.status)
      (hedge : permits order.status .delivered true = true) :
      OrderStep cfg time (.forceComplete order actor reason) o
        (o.moved order.status .delivered actor
          { manualOverride := true, overrideReason := some reason } (time n))
  | depart {order attempt actor o n} (hmatched : attempt.matched = true)
      (hstage : attempt.stage = .departure) (hstatus : o.status = .assignedToDriver) :
      OrderStep cfg time (.verify order attempt actor) o
        (Order.moved { o with verifications := o.verifications ++ [attempt] } .assignedToDriver
          .loading actor {} (time n))
  | attempt {order attempt actor o}
      (hstays : attempt.matched = true → attempt.stage = .loading) :
      OrderStep cfg time (.verify order attempt actor) o
        { o with verifications := o.verifications ++ [attempt] }
  | confirmLoading {order actor at_ o n} (hstatus : o.status = .loading) :
      OrderStep cfg time (.confirmLoading order actor at_) o
        (o.moved .loading .inTransit actor { extraSet := [.loadingConfirmedAt at_] } (time n))
  | overrideDeparture {order actor reason o n} (hstatus : o.status = .assignedToDriver) :
      OrderStep cfg time (.overrideDeparture order actor reason) o
        (o.moved .assignedToDriver .loading actor
          { manualOverride := true, overrideReason := some reason } (time n))
  | overrideLoading {order actor reason at_ o n} (hstatus : o.status = .loading) :
      OrderStep cfg time (.overrideLoading order actor reason at_) o
        (o.moved .loading .inTransit actor
          { manualOverride := true, overrideReason := some reason
            extraSet := [.loadingConfirmedAt at_] } (time n))
  | verifyArrival {order actor o n} (hstatus : o.status = .inTransit) :
      OrderStep cfg time (.verifyArrival order actor) o
        (o.moved .inTransit .unloading actor {} (time n))
  | confirmInvoice {order dto actorId o supplierInvoices} :
      OrderStep cfg time (.confirmInvoice order dto actorId) o
        { o with supplierInvoices := supplierInvoices }
  | replaceInvoice {order dto actorId o supplierInvoices} :
      OrderStep cfg time (.replaceInvoice order dto actorId) o
        { o with supplierInvoices := supplierInvoices }

/-! ### The calls that are one transition -/

variable {cfg : Settings} {env : Env} {v w : View Doc}

theorem transition_moved {id : Id} {source target : OrderStatus} {actor : TransitionActor}
    {options : TransitionOptions} {r : OrderDocument}
    (h : (transition id source target actor options).run env v = .ok (r, w)) :
    ∃ o, v.find (Key.order id) = some o ∧ o.status = source ∧
      permits source target options.manualOverride = true ∧
      w.find (Key.order id) =
        some (o.moved source target actor options (env.time v.readings)) := by
  obtain ⟨o, entry, ho, hstatus, hedge, rfl, -, rfl⟩ := transition_ok h
  exact ⟨o, ho, hstatus, hedge, View.find_put_self _ _ _⟩

theorem transition_writes {id : Id} {source target : OrderStatus} {actor : TransitionActor}
    {options : TransitionOptions} :
    Writes (Key.order id) (transition id source target actor options) := by
  intro env v r w h
  obtain ⟨o, entry, -, -, -, -, -, rfl⟩ := transition_ok h
  exact View.mem_put_self _ _ _

/-- The transition made last by a body whose earlier steps left the order alone. -/
theorem transition_moved_after {id : Id} {source target : OrderStatus} {actor : TransitionActor}
    {options : TransitionOptions} {r : OrderDocument} {u : View Doc} {o : Order}
    (hu : u.find (Key.order id) = v.find (Key.order id))
    (h : (transition id source target actor options).run env u = .ok (r, w))
    (ho : v.find (Key.order id) = some o) :
    o.status = source ∧ permits source target options.manualOverride = true ∧ ∃ n,
      w.find (Key.order id) = some (o.moved source target actor options (env.time n)) := by
  obtain ⟨o', ho', hstatus, hedge, hw⟩ := transition_moved h
  cases ho'.symm.trans (hu.trans ho)
  exact ⟨hstatus, hedge, _, hw⟩

theorem updateOrder_ok {id : Id} {filter : Order → Bool} {update : Order → Order}
    {r : Option Order} {o : Order}
    (h : (updateOrder id filter update).run env v = .ok (r, w))
    (ho : v.find (Key.order id) = some o) :
    (filter o = true ∧ r = some (update o) ∧ w.find (Key.order id) = some (update o)) ∨
      (filter o = false ∧ r = none ∧ w = v) := by
  rcases findOneAndUpdate_ok h with ⟨o', ho', hfilter, -, rfl, rfl⟩ | ⟨rfl, rfl, hnone⟩
  · cases ho'.symm.trans ho
    exact Or.inl ⟨hfilter, rfl, View.find_put_self _ _ _⟩
  · exact Or.inr ⟨hnone o ho, rfl, rfl⟩

theorem pushConfirmed_ok {order r : OrderDocument} {dto : SupplierInvoiceInput} {actorId : Id}
    {o : Order} (h : (pushConfirmed order dto actorId).run env v = .ok (r, w))
    (ho : v.find (Key.order order.id) = some o) :
    ∃ t, w.find (Key.order order.id) = some (o.pushSupplierInvoice dto actorId t) := by
  obtain ⟨t, u, ht, h⟩ := bind_ok h
  obtain ⟨-, rfl⟩ := getTime_ok ht
  obtain ⟨updated, u, hupdate, h⟩ := bind_ok h
  rcases updateOrder_ok hupdate ho with ⟨-, rfl, hw⟩ | ⟨hfalse, -⟩
  · obtain ⟨-, rfl⟩ := pure_ok h
    exact ⟨t, hw⟩
  · cases hfalse

theorem pushConfirmed_writes {order : OrderDocument} {dto : SupplierInvoiceInput} {actorId : Id} :
    Writes (Key.order order.id) (pushConfirmed order dto actorId) :=
  Writes.rest fun _ => Writes.findOneAndUpdate (Writes.throw _)

theorem supersede_ok {order : OrderDocument} {existing : SupplierInvoice} {r : Unit}
    {o : Order} (h : (supersede order existing).run env v = .ok (r, w))
    (ho : v.find (Key.order order.id) = some o) :
    ∃ l, w.find (Key.order order.id) = some { o with supplierInvoices := l } := by
  obtain ⟨t, u, ht, h⟩ := bind_ok h
  obtain ⟨-, rfl⟩ := getTime_ok ht
  obtain ⟨updated, u, hupdate, h⟩ := bind_ok h
  obtain ⟨-, rfl⟩ := pure_ok h
  rcases updateOrder_ok hupdate ho with ⟨-, -, hw⟩ | ⟨-, -, rfl⟩
  · exact ⟨_, hw⟩
  · exact ⟨o.supplierInvoices, ho⟩

/-- Routing and pricing write the order alone; the rest is the issue of the invoice. -/
theorem routeToTransport_issues {order r : OrderDocument} {source : OrderStatus}
    {transportCompanyId : Id} {deliveryFee : ℚ} {actor : TransitionActor}
    (h : (routeToTransport cfg order source transportCompanyId deliveryFee actor).run env v =
      .ok (r, w)) :
    ∃ o n awaiting invoice u, v.find (Key.order order.id) = some o ∧ o.status = source ∧
      permits source .routedToTransport false = true ∧ awaiting.id = order.id ∧
      u.find (Key.order order.id) = some awaiting.toOrder ∧
      (∀ i, { awaiting.toOrder with invoiceId := some i } = Order.awaiting cfg o order.id source
        transportCompanyId deliveryFee actor i (env.time n) (env.time (n + 1))
        (env.time (n + 2)) (env.time (n + 3))) ∧
      SameOff (fun k => k = Key.order order.id) v.docs u.docs ∧
      (issueInvoice cfg awaiting).run env u = .ok (invoice, w) := by
  obtain ⟨routed, u, hrouted, h⟩ := bind_ok h
  have hframe : SameOff (fun k => k = Key.order order.id) v.docs u.docs :=
    transition_confined (S := fun k => k = Key.order order.id) rfl _ _ _ _ env _ _ _ hrouted
  obtain ⟨o, entry, ho, hstatus, hedge, rfl, rfl, rfl⟩ := transition_ok hrouted
  obtain ⟨pricedAt, u₁, htime₁, h⟩ := bind_ok h
  obtain ⟨rfl, rfl⟩ := getTime_ok htime₁
  obtain ⟨now, u₂, htime₂, h⟩ := bind_ok h
  obtain ⟨rfl, rfl⟩ := getTime_ok htime₂
  obtain ⟨awaiting, u₃, hawaiting, h⟩ := bind_ok h
  have hlater := transition_confined (S := fun k => k = Key.order order.id) rfl _ _ _ _ env _ _ _
    hawaiting
  have hframe₃ : SameOff (fun k => k = Key.order order.id) v.docs u₃.docs :=
    IsTrans.trans _ _ _ hframe hlater
  obtain ⟨o₁, entry₁, ho₁, -, -, rfl, rfl, rfl⟩ := transition_ok hawaiting
  cases (View.find_put_self _ _ _).symm.trans ho₁
  obtain ⟨invoice, u₄, hissue, h⟩ := bind_ok h
  obtain ⟨-, rfl⟩ := pure_ok h
  refine ⟨o, v.readings, _, invoice, _, ho, hstatus, hedge, ?_, ?_, ?_, hframe₃, hissue⟩
  · rfl
  · exact View.find_put_self _ _ _
  · exact fun i => rfl

/-- Routing, pricing and invoicing in one body. -/
theorem routeToTransport_ok {order r : OrderDocument} {source : OrderStatus}
    {transportCompanyId : Id} {deliveryFee : ℚ} {actor : TransitionActor}
    (h : (routeToTransport cfg order source transportCompanyId deliveryFee actor).run env v =
      .ok (r, w)) :
    ∃ o i n, v.find (Key.order order.id) = some o ∧ o.status = source ∧
      permits source .routedToTransport false = true ∧
      w.find (Key.order order.id) = some (Order.awaiting cfg o order.id source
        transportCompanyId deliveryFee actor i (env.time n) (env.time (n + 1))
        (env.time (n + 2)) (env.time (n + 3))) ∧
      v.find (Key.invoice i) = none ∧
      (∀ j x, v.find (Key.invoice j) = some x → x.orderId ≠ order.id) ∧
      w.find (Key.invoice i) = some (Order.invoiceFor ((Order.awaiting cfg o order.id source
        transportCompanyId deliveryFee actor i (env.time n) (env.time (n + 1))
        (env.time (n + 2)) (env.time (n + 3))).withId order.id)) ∧
      ∀ j, j ≠ i → w.find (Key.invoice j) = v.find (Key.invoice j) := by
  obtain ⟨o, n, awaiting, invoice, u, ho, hstatus, hedge, hid, hu, heq, hframe, hissue⟩ :=
    routeToTransport_issues h
  obtain ⟨i, hnone, hothers, hinvoice, hkept, horder⟩ := issueInvoice_ok hissue
  have hinvoices : ∀ j, u.find (Key.invoice j) = v.find (Key.invoice j) := fun j =>
    hframe.lookup_eq (by simp)
  rw [hid] at hothers horder
  refine ⟨o, i, n, ho, hstatus, hedge, ?_, (hinvoices i).symm.trans hnone,
    fun j x hx => hothers j x ((hinvoices j).trans hx), ?_,
    fun j hj => (hkept j hj).trans (hinvoices j)⟩
  · rw [horder, hu, ← heq i]
    rfl
  · rw [hinvoice, ← heq i, ← hid]
    rfl

namespace Call
variable {c : Call} {r : c.Reply}

/-- What a call that ran has made of the order it acts on. -/
theorem body_order (h : (c.body cfg).run env v = .ok (r, w)) {id : Id} (hid : c.subject = some id)
    {o : Order} (ho : v.find (Key.order id) = some o) :
    ∃ o', w.find (Key.order id) = some o' ∧ OrderStep cfg env.time c o o' := by
  cases c with
  | approve order actor finalPrice =>
      cases hid
      simp only [body, CiroFuel.approve] at h
      obtain ⟨hstatus, -, n, hw⟩ := transition_moved_after rfl h ho
      exact ⟨_, hw, .approve hstatus⟩
  | reject orderId actor reason =>
      cases hid
      simp only [body, CiroFuel.reject] at h
      obtain ⟨hstatus, -, n, hw⟩ := transition_moved_after rfl h ho
      exact ⟨_, hw, .reject hstatus⟩
  | awaitRouting order actor =>
      cases hid
      simp only [body, CiroFuel.awaitRouting] at h
      obtain ⟨hstatus, -, n, hw⟩ := transition_moved_after rfl h ho
      exact ⟨_, hw, .awaitRouting hstatus⟩
  | route order source transportCompanyId deliveryFee actor =>
      cases hid
      obtain ⟨o', i, n, ho', hstatus, hedge, hw, -⟩ := routeToTransport_ok h
      cases ho'.symm.trans ho
      exact ⟨_, hw, .route hstatus hedge⟩
  | reopen order actor =>
      cases hid
      obtain ⟨now, u, hnow, h⟩ := bind_ok h
      obtain ⟨rfl, rfl⟩ := getTime_ok hnow
      obtain ⟨o', ho', hstatus, -, hw⟩ := transition_moved h
      cases ho'.symm.trans ho
      exact ⟨_, hw, .reopen hstatus⟩
  | accept order actor =>
      cases hid
      simp only [body, settleAndResume] at h
      obtain ⟨hstatus, -, n, hw⟩ := transition_moved_after rfl h ho
      exact ⟨_, hw, .accept hstatus⟩
  | settle order eventId transactionId =>
      cases hid
      obtain ⟨_, u, hsettle, h⟩ := bind_ok h
      have hu := (settleInvoiceForOrder_confined (S := fun k => k ≠ Key.order order.id)
        (by simp) (by simp) _ _).find_eq hsettle (k := Key.order order.id) (by simp)
      obtain ⟨hstatus, -, n, hw⟩ := transition_moved_after hu h ho
      exact ⟨_, hw, .settle hstatus⟩
  | timeOut job order =>
      cases hid
      obtain ⟨_, u, hrelease, h⟩ := bind_ok h
      have hu := (releaseDriver_confined (S := fun k => k ≠ Key.order order.id)
        (by simp) _).find_eq hrelease (k := Key.order order.id) (by simp)
      obtain ⟨hstatus, -, n, hw⟩ := transition_moved_after hu h ho
      exact ⟨_, hw, .timeOut hstatus⟩
  | assign order a =>
      cases hid
      obtain ⟨driver, u₁, hdriver, h⟩ := bind_ok h
      have hu₁ := (Confined.findOneAndUpdate (S := fun k => k ≠ Key.order order.id)
        (by simp)).find_eq hdriver (k := Key.order order.id) (by simp)
      cases driver with
      | none => exact (throw_ok h).elim
      | some driver =>
          obtain ⟨truck, u₂, htruck, h⟩ := bind_ok h
          have hu₂ := (Confined.findOneAndUpdate (S := fun k => k ≠ Key.order order.id)
            (by simp)).find_eq htruck (k := Key.order order.id) (by simp)
          cases truck with
          | none => exact (throw_ok h).elim
          | some truck =>
              obtain ⟨tank, u₃, htank, h⟩ := bind_ok h
              have hu₃ := (Confined.findOneAndUpdate (S := fun k => k ≠ Key.order order.id)
                (by simp)).find_eq htank (k := Key.order order.id) (by simp)
              cases tank with
              | none => exact (throw_ok h).elim
              | some tank =>
                  obtain ⟨_, u₄, hfits, h⟩ := bind_ok h
                  have hu₄ := (assertTankFits_confined (S := fun _ => False) _ _).find_eq hfits
                    (k := Key.order order.id) id
                  obtain ⟨client, u₅, hclient, hmove⟩ := bind_ok h
                  obtain ⟨-, rfl⟩ := find_ok hclient
                  have hu := hu₄.trans (hu₃.trans (hu₂.trans hu₁))
                  obtain ⟨hstatus, -, n, hw⟩ := transition_moved_after hu hmove ho
                  exact ⟨_, hw, .assign hstatus⟩
  | reassign order truckId tankId =>
      cases hid
      obtain ⟨_, u₁, hrelease₁, h⟩ := bind_ok h
      have hu₁ := (releaseTruck_confined (S := fun k => k ≠ Key.order order.id)
        (by simp) _).find_eq hrelease₁ (k := Key.order order.id) (by simp)
      obtain ⟨_, u₂, hrelease₂, h⟩ := bind_ok h
      have hu₂ := (releaseTank_confined (S := fun k => k ≠ Key.order order.id)
        (by simp) _).find_eq hrelease₂ (k := Key.order order.id) (by simp)
      obtain ⟨truck, u₃, htruck, h⟩ := bind_ok h
      have hu₃ := (Confined.findOneAndUpdate (S := fun k => k ≠ Key.order order.id)
        (by simp)).find_eq htruck (k := Key.order order.id) (by simp)
      cases truck with
      | none => exact (throw_ok h).elim
      | some truck =>
          obtain ⟨tank, u₄, htank, h⟩ := bind_ok h
          have hu₄ := (Confined.findOneAndUpdate (S := fun k => k ≠ Key.order order.id)
            (by simp)).find_eq htank (k := Key.order order.id) (by simp)
          cases tank with
          | none => exact (throw_ok h).elim
          | some tank =>
              obtain ⟨_, u₅, hfits, h⟩ := bind_ok h
              have hu₅ := (assertTankFits_confined (S := fun _ => False) _ _).find_eq hfits
                (k := Key.order order.id) id
              have hu := hu₅.trans (hu₄.trans (hu₃.trans (hu₂.trans hu₁)))
              obtain ⟨updated, u₆, hupdate, h⟩ := bind_ok h
              rcases updateOrder_ok hupdate (hu.trans ho) with ⟨-, rfl, hw⟩ | ⟨hfalse, -⟩
              · obtain ⟨-, rfl⟩ := pure_ok h
                exact ⟨_, hw, .reassign⟩
              · cases hfalse
  | cancel order actor reason =>
      cases hid
      obtain ⟨u, u₁, u₂, updated, hrelease, htransition, hvoid, hreturn⟩ := cancel_ok h
      have hu := (releaseDriverIfAssigned_confined (S := fun k => k ≠ Key.order order.id)
        (by simp) (by simp) (by simp)).find_eq hrelease (k := Key.order order.id) (by simp)
      obtain ⟨hstatus, hedge, n, hu₁⟩ := transition_moved_after hu htransition ho
      have hu₂ : u₂.find (Key.order order.id) = u₁.find (Key.order order.id) := by
        rcases hvoid with ⟨-, hvoid⟩ | ⟨-, rfl⟩
        · exact (voidInvoice_confined (S := fun k => k ≠ Key.order order.id) (by simp) (by simp)
            _).find_eq hvoid (by simp)
        · rfl
      have hw := (returnDrawdown_confined (S := fun k => k ≠ Key.order order.id) (by simp)
        _ _).find_eq hreturn (k := Key.order order.id) (by simp)
      exact ⟨_, hw.trans (hu₂.trans hu₁), .cancel hstatus hedge⟩
  | complete order actor =>
      cases hid
      obtain ⟨_, u, hrelease, h⟩ := bind_ok h
      have hu := (releaseDriverIfAssigned_confined (S := fun k => k ≠ Key.order order.id)
        (by simp) (by simp) (by simp)).find_eq hrelease (k := Key.order order.id) (by simp)
      obtain ⟨hstatus, -, n, hw⟩ := transition_moved_after hu h ho
      exact ⟨_, hw, .complete hstatus⟩
  | forceComplete order actor reason =>
      cases hid
      obtain ⟨_, u, hrelease, h⟩ := bind_ok h
      have hu := (releaseDriverIfAssigned_confined (S := fun k => k ≠ Key.order order.id)
        (by simp) (by simp) (by simp)).find_eq hrelease (k := Key.order order.id) (by simp)
      obtain ⟨hstatus, hedge, n, hw⟩ := transition_moved_after hu h ho
      exact ⟨_, hw, .forceComplete hstatus hedge⟩
  | verify order attempt actor =>
      cases hid
      obtain ⟨updated, u, hupdate, h⟩ := bind_ok h
      have hu : u.find (Key.order order.id) =
          some { o with verifications := o.verifications ++ [attempt] } := by
        rcases updateOrder_ok hupdate ho with ⟨-, -, hu⟩ | ⟨hfalse, -⟩
        · exact hu
        · cases hfalse
      split_ifs at h with hmatched hstage
      · obtain ⟨-, rfl⟩ := pure_ok h
        exact ⟨_, hu, .attempt fun hm => by simp [hm] at hmatched⟩
      · obtain ⟨hstatus, -, n, hw⟩ := transition_moved_after rfl h hu
        exact ⟨_, hw, .depart (by simpa using hmatched) hstage hstatus⟩
      · obtain ⟨found, u', hfound, hreturn⟩ := bind_ok h
        obtain ⟨-, rfl⟩ := find_ok hfound
        have hstays : attempt.stage = .loading := by
          cases hs : attempt.stage with
          | departure => exact absurd hs hstage
          | loading => rfl
        cases found with
        | none => exact (throw_ok hreturn).elim
        | some _ =>
            obtain ⟨-, rfl⟩ := pure_ok hreturn
            exact ⟨_, hu, .attempt fun _ => hstays⟩
  | confirmLoading order actor at_ =>
      cases hid
      simp only [body, CiroFuel.confirmLoading] at h
      obtain ⟨hstatus, -, n, hw⟩ := transition_moved_after rfl h ho
      exact ⟨_, hw, .confirmLoading hstatus⟩
  | overrideDeparture order actor reason =>
      cases hid
      simp only [body, CiroFuel.overrideDeparture] at h
      obtain ⟨hstatus, -, n, hw⟩ := transition_moved_after rfl h ho
      exact ⟨_, hw, .overrideDeparture hstatus⟩
  | overrideLoading order actor reason at_ =>
      cases hid
      simp only [body, CiroFuel.overrideLoading] at h
      obtain ⟨hstatus, -, n, hw⟩ := transition_moved_after rfl h ho
      exact ⟨_, hw, .overrideLoading hstatus⟩
  | verifyArrival order actor =>
      cases hid
      simp only [body, CiroFuel.verifyArrival] at h
      obtain ⟨hstatus, -, n, hw⟩ := transition_moved_after rfl h ho
      exact ⟨_, hw, .verifyArrival hstatus⟩
  | confirmInvoice order dto actorId =>
      cases hid
      obtain ⟨_, u, hrecord, h⟩ := bind_ok h
      have hu := (recordReconciliation_confined (S := fun k => k ≠ Key.order order.id)
        (by simp) _ _ _ _).find_eq hrecord (k := Key.order order.id) (by simp)
      obtain ⟨updated, u', hpush, h⟩ := bind_ok h
      obtain ⟨-, rfl⟩ := pure_ok h
      obtain ⟨t, hw⟩ := pushConfirmed_ok hpush (hu.trans ho)
      exact ⟨_, hw, .confirmInvoice⟩
  | replaceInvoice order dto actorId =>
      cases hid
      have rest : ∀ (u : View Doc) (l : List SupplierInvoice),
          u.find (Key.order order.id) = some { o with supplierInvoices := l } →
          Tx.run env (do
            let reconciliation ← restateReconciliation cfg.arithmetic
              ⟨order.fuelCompanyId, order.clientId, dto.confirmed.fuelType⟩ order.id
              order.quantityLiters dto.confirmed.quantityLitres actorId
            let updated ← pushConfirmed order dto actorId
            return (updated, reconciliation) : Action (OrderDocument × ReconciliationResult)) u =
            .ok (r, w) →
          ∃ o', w.find (Key.order order.id) = some o' ∧
            OrderStep cfg env.time (.replaceInvoice order dto actorId) o o' := by
        intro u l hu hrun
        obtain ⟨_, u', hrecord, hrun⟩ := bind_ok hrun
        have hu' := (restateReconciliation_confined (S := fun k => k ≠ Key.order order.id)
          (by simp) _ _ _ _).find_eq hrecord (k := Key.order order.id) (by simp)
        obtain ⟨updated, u'', hpush, hrun⟩ := bind_ok hrun
        obtain ⟨-, rfl⟩ := pure_ok hrun
        obtain ⟨t, hw⟩ := pushConfirmed_ok hpush (hu'.trans hu)
        exact ⟨_, hw, .replaceInvoice⟩
      change Tx.run env (replaceSupplierInvoice cfg.arithmetic order order.currentEntry dto actorId)
        v = _ at h
      unfold replaceSupplierInvoice at h
      split at h
      · obtain ⟨_, u, hsupersede, h⟩ := bind_ok h
        obtain ⟨l, hu⟩ := supersede_ok hsupersede ho
        exact rest u l hu h
      · exact rest v o.supplierInvoices ho h
  | _ => cases hid

theorem create_ok {fields : OrderFields} {userId : Id} {r : OrderDocument × DrawdownResult}
    (h : ((create fields userId).body cfg).run env v = .ok (r, w)) :
    ∃ id, r.1 = fields.order.withId id ∧ v.find (Key.order id) = none ∧
      w.find (Key.order id) = some fields.order ∧
      ∀ id', id' ≠ id → w.find (Key.order id') = v.find (Key.order id') := by
  obtain ⟨id, u, hid, h⟩ := bind_ok h
  obtain ⟨-, rfl⟩ := freshId_ok hid
  obtain ⟨_, u, hinsert, h⟩ := bind_ok h
  obtain ⟨hnone, -, rfl⟩ := insert_ok hinsert
  obtain ⟨drawn, u, hdraw, h⟩ := bind_ok h
  obtain ⟨rfl, rfl⟩ := pure_ok h
  have hkept := fun k hk => (drawdownAttempts_confined
    (S := fun k => ∀ id, k ≠ Key.order id) (by simp) _ _ _ _).find_eq hdraw (k := k) hk
  refine ⟨id, rfl, hnone, ?_, fun id' hid' => ?_⟩
  · rw [hkept _ (by simp)]
    exact View.find_put_self _ _ _
  · rw [hkept _ (by simp)]
    exact View.find_put_ne _ _ fun hkey => hid' (Key.order.inj hkey)

/-- An order that a call does not act on keeps its document. -/
theorem body_order_frame (h : (c.body cfg).run env v = .ok (r, w)) {id : Id}
    (hid : c.subject ≠ some id) {o : Order} (ho : v.find (Key.order id) = some o) :
    w.find (Key.order id) = some o := by
  cases c with
  | create fields userId =>
      obtain ⟨id', -, hnone, -, hothers⟩ := create_ok h
      have hne : id ≠ id' := by
        rintro rfl
        exact absurd (hnone.symm.trans ho) (by simp)
      exact (hothers id hne).trans ho
  | _ => exact (body_frame h (by simpa [touches, creates] using hid)).trans ho

/-- An order that is new is as it was created. -/
theorem body_order_new (h : (c.body cfg).run env v = .ok (r, w)) {id : Id}
    (hid : c.subject ≠ some id) (hnone : v.find (Key.order id) = none) {o : Order}
    (ho : w.find (Key.order id) = some o) :
    ∃ fields userId, c = .create fields userId ∧ o = fields.order := by
  cases c with
  | create fields userId =>
      obtain ⟨id', -, -, hself, hothers⟩ := create_ok h
      by_cases he : id = id'
      · subst he
        exact ⟨fields, userId, rfl, Option.some.inj (ho.symm.trans hself)⟩
      · exact absurd ((hothers id he).symm.trans ho) (by simp [hnone])
  | _ =>
      have heq := body_frame (k := Key.order id) h (by simpa [touches, creates] using hid)
      exact absurd (heq.symm.trans ho) (by simp [hnone])

/-- An invoice that is new was issued by routing, together with its order's
status, price and transporter; the order had none before. -/
theorem body_invoice_new (hv : v.docs.Unique) (h : (c.body cfg).run env v = .ok (r, w)) {i : Id}
    {x : Invoice} (hnone : v.find (Key.invoice i) = none) (hx : w.find (Key.invoice i) = some x) :
    ∃ order source transportCompanyId deliveryFee actor o o',
      c = .route order source transportCompanyId deliveryFee actor ∧
      v.find (Key.order order.id) = some o ∧ w.find (Key.order order.id) = some o' ∧
      o'.invoiceId = some i ∧ o'.statusHistory ≠ o.statusHistory ∧
      x = Order.invoiceFor (o'.withId order.id) := by
  have untouched : c.bills = false → False := fun hbills =>
    absurd ((body_frame (k := Key.invoice i) h hbills).symm.trans hx) (by simp [hnone])
  cases c with
  | route order source transportCompanyId deliveryFee actor =>
      obtain ⟨o, j, n, ho, -, -, hw, -, -, hself, hothers⟩ := routeToTransport_ok h
      by_cases hij : i = j
      · subst hij
        obtain ⟨priceBreakdown, finalPrice, heq⟩ := Order.awaiting_eq cfg o order.id source
          transportCompanyId deliveryFee actor i (env.time n) (env.time (n + 1))
          (env.time (n + 2)) (env.time (n + 3))
        refine ⟨order, source, transportCompanyId, deliveryFee, actor, o, _, rfl, ho, hw, ?_, ?_,
          Option.some.inj (hx.symm.trans hself)⟩
        · rw [heq]
        · rw [heq]
          simp
      · exact absurd ((hothers i hij).symm.trans hx) (by simp [hnone])
  | settle order eventId transactionId =>
      obtain ⟨_, u, hsettle, h⟩ := bind_ok h
      have hw : w.find (Key.invoice i) = u.find (Key.invoice i) :=
        (transition_confined (S := fun k => k ≠ Key.invoice i) (by simp) _ _ _ _).find_eq
          h (by simp)
      obtain ⟨j, y, hy, -, hchange⟩ := settleInvoiceForOrder_ok hsettle
      have hij : i ≠ j := by
        rintro rfl
        exact absurd (hnone.symm.trans hy) (by simp)
      exact absurd ((hw.trans (hchange.others i hij)).symm.trans hx) (by simp [hnone])
  | settleInvoice j ref =>
      obtain ⟨y, hy, hchange⟩ := settleById_ok h
      have hij : i ≠ j := by
        rintro rfl
        exact absurd (hnone.symm.trans hy) (by simp)
      exact absurd ((hchange.others i hij).symm.trans hx) (by simp [hnone])
  | cancel order actor reason =>
      exact absurd ((cancel_invoice_none hv h hnone).symm.trans hx) (by simp)
  | _ => exact (untouched rfl).elim

/-- A call always writes the order it acts on, changed or not. -/
theorem body_writes (h : (c.body cfg).run env v = .ok (r, w)) {id : Id}
    (hid : c.subject = some id) {o : Order} (ho : v.find (Key.order id) = some o) :
    Key.order id ∈ w.writes := by
  have writes : ∀ {tx : Action c.Reply}, Writes (Key.order id) tx →
      Tx.run env tx v = .ok (r, w) → Key.order id ∈ w.writes := fun htx hrun => htx env v r w hrun
  cases c with
  | route order source transportCompanyId deliveryFee actor =>
      cases hid
      exact writes (transition_writes.first) h
  | reopen order actor =>
      cases hid
      exact writes (Writes.rest fun _ => transition_writes) h
  | settle order eventId transactionId =>
      cases hid
      exact writes (Writes.rest fun _ => transition_writes) h
  | timeOut job order =>
      cases hid
      exact writes (Writes.rest fun _ => transition_writes) h
  | assign order a =>
      cases hid
      refine writes (Writes.rest fun driver => ?_) h
      cases driver with
      | none => exact Writes.throw _
      | some driver =>
          refine Writes.rest fun truck => ?_
          cases truck with
          | none => exact Writes.throw _
          | some truck =>
              refine Writes.rest fun tank => ?_
              cases tank with
              | none => exact Writes.throw _
              | some tank => exact Writes.rest fun _ => Writes.rest fun _ => transition_writes
  | reassign order truckId tankId =>
      cases hid
      refine writes (Writes.rest fun _ => Writes.rest fun _ => Writes.rest fun truck => ?_) h
      cases truck with
      | none => exact Writes.throw _
      | some truck =>
          refine Writes.rest fun tank => ?_
          cases tank with
          | none => exact Writes.throw _
          | some tank =>
              exact Writes.rest fun _ => Writes.findOneAndUpdate (Writes.throw _)
  | cancel order actor reason =>
      cases hid
      exact writes (Writes.rest fun _ => transition_writes.first) h
  | complete order actor =>
      cases hid
      exact writes (Writes.rest fun _ => transition_writes) h
  | forceComplete order actor reason =>
      cases hid
      exact writes (Writes.rest fun _ => transition_writes) h
  | verify order attempt actor =>
      cases hid
      obtain ⟨updated, u, hupdate, h⟩ := bind_ok h
      rcases findOneAndUpdate_ok hupdate with ⟨x, -, -, -, -, rfl⟩ | ⟨-, -, hnone⟩
      · exact run_grows h (View.mem_put_self _ _ _)
      · exact absurd (hnone o ho) (by simp)
  | confirmInvoice order dto actorId =>
      cases hid
      exact writes (Writes.rest fun _ => pushConfirmed_writes.first) h
  | replaceInvoice order dto actorId =>
      cases hid
      refine writes ?_ h
      change Writes _ (replaceSupplierInvoice cfg.arithmetic order order.currentEntry dto actorId)
      unfold replaceSupplierInvoice
      split
      · exact Writes.rest fun _ => Writes.rest fun _ => pushConfirmed_writes.first
      · exact Writes.rest fun _ => pushConfirmed_writes.first
  | approve | reject | awaitRouting | accept | confirmLoading | overrideDeparture
  | overrideLoading | verifyArrival =>
      cases hid
      simp only [body, CiroFuel.approve, CiroFuel.reject, CiroFuel.awaitRouting, settleAndResume,
        CiroFuel.confirmLoading, CiroFuel.overrideDeparture, CiroFuel.overrideLoading,
        CiroFuel.verifyArrival] at h
      exact transition_writes env v r w h
  | _ => cases hid

end Call
end CiroFuel
