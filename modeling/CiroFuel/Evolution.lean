import CiroFuel.PaymentSteps

/-!
# What survives between a handler's read and its write

Orders, invoices and payment events are never deleted, and part of each never
changes or only grows. That part is all a handler may rely on when it acts on a
document it read earlier: `evolution` states, for every call, what its handler
has established by then in terms of it, and every handler is safe in that sense.
Runs of the platform therefore satisfy these preconditions at every commit, with
no assumption on the schedule.
-/
namespace CiroFuel
open Snapshot Tx

/-! ### Documents over time -/

/-- The entries lead from the one status to the other along permitted edges. -/
def Trail : OrderStatus → List StatusHistoryEntry → OrderStatus → Prop
  | a, [], b => b = a
  | a, e :: es, b => e.source = a ∧ permits a e.target e.manualOverride = true ∧ Trail e.target es b

theorem Trail.append {a b c : OrderStatus} {es es' : List StatusHistoryEntry}
    (h : Trail a es b) (h' : Trail b es' c) : Trail a (es ++ es') c := by
  induction es generalizing a with
  | nil =>
      cases h
      exact h'
  | cons e es ih => exact ⟨h.1, h.2.1, ih h.2.2⟩

/-- A set of statuses that no edge leaves is never left. -/
theorem Trail.closed {S : OrderStatus → Prop} {a b : OrderStatus} {es : List StatusHistoryEntry}
    (h : Trail a es b) (hS : ∀ a b override, S a → permits a b override = true → S b)
    (ha : S a) : S b := by
  induction es generalizing a with
  | nil =>
      cases h
      exact ha
  | cons e es ih => exact ih h.2.2 (hS _ _ _ ha h.2.1)

/-- `o'` is a later state of `o`. -/
structure Order.Evolves (o o' : Order) : Prop where
  fuelCompanyId : o'.fuelCompanyId = o.fuelCompanyId
  clientId : o'.clientId = o.clientId
  fuelType : o'.fuelType = o.fuelType
  quantityLiters : o'.quantityLiters = o.quantityLiters
  paymentMethod : o'.paymentMethod = o.paymentMethod
  trail : ∃ es, o'.statusHistory = o.statusHistory ++ es ∧ Trail o.status es o'.status
  verifications : o.verifications <+: o'.verifications
  billed : ∀ i, o.invoiceId = some i → o'.invoiceId = some i
  count : o'.statusHistory = o.statusHistory → o'.paymentTimeoutCount = o.paymentTimeoutCount

namespace Order

theorem Evolves.refl (o : Order) : o.Evolves o :=
  ⟨rfl, rfl, rfl, rfl, rfl, ⟨[], by simp, rfl⟩, List.prefix_rfl, fun _ h => h, fun _ => rfl⟩

theorem Evolves.history {o o' : Order} (h : o.Evolves o') :
    o.statusHistory <+: o'.statusHistory := by
  obtain ⟨es, hes, -⟩ := h.trail
  exact ⟨es, hes.symm⟩

/-- While the history is the same, so is the status. -/
theorem Evolves.status {o o' : Order} (h : o.Evolves o')
    (hsame : o'.statusHistory = o.statusHistory) : o'.status = o.status := by
  obtain ⟨es, hes, htrail⟩ := h.trail
  rw [hsame] at hes
  rw [List.self_eq_append_right.mp hes] at htrail
  exact htrail

theorem Evolves.closed {o o' : Order} (h : o.Evolves o') {S : OrderStatus → Prop}
    (hS : ∀ a b override, S a → permits a b override = true → S b) (ho : S o.status) :
    S o'.status := by
  obtain ⟨es, -, htrail⟩ := h.trail
  exact htrail.closed hS ho

theorem Evolves.trans {a b c : Order} (hab : a.Evolves b) (hbc : b.Evolves c) : a.Evolves c where
  fuelCompanyId := hbc.fuelCompanyId.trans hab.fuelCompanyId
  clientId := hbc.clientId.trans hab.clientId
  fuelType := hbc.fuelType.trans hab.fuelType
  quantityLiters := hbc.quantityLiters.trans hab.quantityLiters
  paymentMethod := hbc.paymentMethod.trans hab.paymentMethod
  trail := by
    obtain ⟨es, hes, htrail⟩ := hab.trail
    obtain ⟨es', hes', htrail'⟩ := hbc.trail
    refine ⟨es ++ es', ?_, htrail.append htrail'⟩
    rw [hes', hes, List.append_assoc]
  verifications := hab.verifications.trans hbc.verifications
  billed := fun i h => hbc.billed i (hab.billed i h)
  count := by
    intro h
    -- The history of `b` lies between two equal ones.
    have hcb : c.statusHistory = b.statusHistory := by
      have hle := hbc.history.length_le
      have hle' := hab.history.length_le
      rw [h] at hle
      exact (hbc.history.eq_of_length (by rw [h]; omega)).symm
    have hba : b.statusHistory = a.statusHistory := hcb.symm.trans h
    exact (hbc.count hcb).trans (hab.count hba)

theorem Evolves.balanceKey {o o' : Order} (h : o.Evolves o') : o'.balanceKey = o.balanceKey := by
  simp only [Order.balanceKey, h.fuelCompanyId, h.clientId, h.fuelType]

end Order

/-- What a step does to the status it also writes to the history. -/
theorem OrderStep.trail {cfg : Settings} {time : ℕ → Instant} {c : Call} {o o' : Order}
    (h : OrderStep cfg time c o o') :
    ∃ es, o'.statusHistory = o.statusHistory ++ es ∧ Trail o.status es o'.status := by
  have unmoved : ∃ es, o.statusHistory = o.statusHistory ++ es ∧ Trail o.status es o.status :=
    ⟨[], by simp, rfl⟩
  cases h with
  | route hstatus hedge =>
      rename_i order source transportCompanyId deliveryFee actor invoiceId n
      obtain ⟨priceBreakdown, finalPrice, heq⟩ := Order.awaiting_eq cfg o order.id source
        transportCompanyId deliveryFee actor invoiceId (time n) (time (n + 1)) (time (n + 2))
        (time (n + 3))
      rw [heq]
      refine ⟨_, List.append_assoc _ _ _, hstatus.symm, ?_, rfl, rfl, rfl⟩
      rw [hstatus]
      exact hedge
  | reassign => exact unmoved
  | attempt hstays => exact unmoved
  | confirmInvoice => exact unmoved
  | replaceInvoice => exact unmoved
  | depart hmatched hstage hstatus =>
      refine ⟨_, Order.moved_statusHistory _ _ _ _ _ _, hstatus.symm, ?_, rfl⟩
      rw [hstatus]
      rfl
  | cancel hstatus hedge =>
      refine ⟨_, Order.moved_statusHistory _ _ _ _ _ _, hstatus.symm, ?_, ?_⟩
      · rw [hstatus]
        exact hedge
      · exact Order.moved_status _ _ _ _ _ _
  | forceComplete hstatus hedge =>
      refine ⟨_, Order.moved_statusHistory _ _ _ _ _ _, hstatus.symm, ?_, ?_⟩
      · rw [hstatus]
        exact hedge
      · exact Order.moved_status _ _ _ _ _ _
  | _ hstatus =>
      refine ⟨_, Order.moved_statusHistory _ _ _ _ _ _, hstatus.symm, ?_,
        Order.moved_status _ _ _ _ _ _⟩
      rw [hstatus]
      rfl

/-- A step of any call leaves a later state of the order, provided that only
orders without an invoice are routed. -/
theorem OrderStep.evolves {cfg : Settings} {time : ℕ → Instant} {c : Call} {o o' : Order}
    (h : OrderStep cfg time c o o')
    (hroute : ∀ order source transportCompanyId deliveryFee actor,
      c = .route order source transportCompanyId deliveryFee actor → o.invoiceId = none) :
    o.Evolves o' := by
  have htrail := h.trail
  cases h with
  | route hstatus hedge =>
      rename_i order source transportCompanyId deliveryFee actor invoiceId n
      obtain ⟨priceBreakdown, finalPrice, heq⟩ := Order.awaiting_eq cfg o order.id source
        transportCompanyId deliveryFee actor invoiceId (time n) (time (n + 1)) (time (n + 2))
        (time (n + 3))
      rw [heq] at htrail ⊢
      exact { Order.Evolves.refl o with
        trail := htrail
        billed := by
          intro i hi
          rw [hroute _ _ _ _ _ rfl] at hi
          cases hi
        count := fun hsame => by simp at hsame }
  | assign hstatus =>
      rename_i order a driver truck tank client n
      obtain ⟨clientSummary, ineligible, reason, heq⟩ :=
        Order.assigned_eq o a driver truck tank client (time n)
      rw [heq] at htrail ⊢
      exact { Order.Evolves.refl o with trail := htrail, count := fun _ => rfl }
  | timeOut hstatus =>
      refine { Order.Evolves.refl o with trail := htrail, count := fun hsame => ?_ }
      rw [Order.moved_statusHistory] at hsame
      simp at hsame
  | depart hmatched hstage hstatus =>
      exact { Order.Evolves.refl o with
        trail := htrail
        verifications := List.prefix_append _ _
        count := fun _ => rfl }
  | attempt hstays => exact { Order.Evolves.refl o with verifications := List.prefix_append _ _ }
  | _ => exact { Order.Evolves.refl o with trail := htrail, count := fun _ => rfl }

/-- Only routing names an invoice on an order. -/
theorem OrderStep.invoiceId {cfg : Settings} {time : ℕ → Instant} {c : Call} {o o' : Order}
    (h : OrderStep cfg time c o o') :
    o'.invoiceId = o.invoiceId ∨ ∃ order source transportCompanyId deliveryFee actor,
      c = .route order source transportCompanyId deliveryFee actor := by
  cases h with
  | route => exact Or.inr ⟨_, _, _, _, _, rfl⟩
  | assign hstatus =>
      rename_i order a driver truck tank client n
      obtain ⟨clientSummary, ineligible, reason, heq⟩ :=
        Order.assigned_eq o a driver truck tank client (time n)
      exact Or.inl (by rw [heq])
  | _ => exact Or.inl rfl

/-- `x'` is a later state of `x`. -/
structure Invoice.Evolves (x x' : Invoice) : Prop where
  orderId : x'.orderId = x.orderId
  clientId : x'.clientId = x.clientId
  amount : x'.amount = x.amount
  method : x'.method = x.method
  closed : x.state ≠ .issued → x'.state = x.state

theorem Invoice.Evolves.refl (x : Invoice) : x.Evolves x := ⟨rfl, rfl, rfl, rfl, fun _ => rfl⟩

theorem Invoice.Evolves.trans {a b c : Invoice} (hab : a.Evolves b) (hbc : b.Evolves c) :
    a.Evolves c where
  orderId := hbc.orderId.trans hab.orderId
  clientId := hbc.clientId.trans hab.clientId
  amount := hbc.amount.trans hab.amount
  method := hbc.method.trans hab.method
  closed := by
    intro h
    have hb : b.state ≠ .issued := by rwa [hab.closed h]
    exact (hbc.closed hb).trans (hab.closed h)

theorem InvoiceStep.evolves {time : ℕ → Instant} {c : Call} {i : Id} {x x' : Invoice}
    (h : InvoiceStep time c i x x') : x.Evolves x' := by
  cases h with
  | settle horder hissued => exact ⟨rfl, rfl, rfl, rfl, fun hne => absurd hissued hne⟩
  | settleInvoice hissued => exact ⟨rfl, rfl, rfl, rfl, fun hne => absurd hissued hne⟩
  | cancel horder hissued => exact ⟨rfl, rfl, rfl, rfl, fun hne => absurd hissued hne⟩

/-- `b` is a later state of the same database. -/
structure Progress (a b : Db) : Prop where
  older : Store.Older a b
  orders : ∀ id o, a.order id = some o → ∃ o', b.order id = some o' ∧ o.Evolves o'
  invoices : ∀ i x, a.invoice i = some x → ∃ x', b.invoice i = some x' ∧ x.Evolves x'
  events : ∀ e x, a.paymentEvent e = some x → ∃ x', b.paymentEvent e = some x' ∧
    x'.gatewayTransactionId = x.gatewayTransactionId ∧ x'.orderId = x.orderId

theorem Progress.refl (s : Db) : Progress s s where
  older := Store.Older.refl s
  orders := fun _ o h => ⟨o, h, .refl o⟩
  invoices := fun _ x h => ⟨x, h, .refl x⟩
  events := fun _ x h => ⟨x, h, rfl, rfl⟩

theorem Progress.trans {a b c : Db} (hab : Progress a b) (hbc : Progress b c) : Progress a c where
  older := hab.older.trans hbc.older
  orders := by
    intro id o ho
    obtain ⟨o', ho', h⟩ := hab.orders id o ho
    obtain ⟨o'', ho'', h'⟩ := hbc.orders id o' ho'
    exact ⟨o'', ho'', h.trans h'⟩
  invoices := by
    intro i x hx
    obtain ⟨x', hx', h⟩ := hab.invoices i x hx
    obtain ⟨x'', hx'', h'⟩ := hbc.invoices i x' hx'
    exact ⟨x'', hx'', h.trans h'⟩
  events := by
    intro e x hx
    obtain ⟨x', hx', ht, ho⟩ := hab.events e x hx
    obtain ⟨x'', hx'', ht', ho'⟩ := hbc.events e x' hx'
    exact ⟨x'', hx'', ht'.trans ht, ho'.trans ho⟩

/-! ### What handlers establish -/

/-- The document is a state that the stored order had between two instants. -/
structure OrderDocument.ReadBetween (order : OrderDocument) (since s : Db) : Prop where
  later : ∀ o, since.order order.id = some o → o.Evolves order.toOrder
  earlier : ∃ o, s.order order.id = some o ∧ order.toOrder.Evolves o

theorem OrderDocument.ReadBetween.progress {order : OrderDocument} {since a b : Db}
    (h : order.ReadBetween since a) (hab : Progress a b) : order.ReadBetween since b := by
  obtain ⟨o, ho, hevolves⟩ := h.earlier
  obtain ⟨o', ho', hevolves'⟩ := hab.orders _ o ho
  exact ⟨h.later, o', ho', hevolves.trans hevolves'⟩

theorem Order.readBetween {since s : Db} (hs : Progress since s) {id : Id} {o : Order}
    (ho : s.order id = some o) : (o.withId id).ReadBetween since s := by
  refine ⟨fun o₀ ho₀ => ?_, o, ho, .refl o⟩
  obtain ⟨o', ho', hevolves⟩ := hs.orders _ o₀ ho₀
  cases ho'.symm.trans ho
  exact hevolves

namespace Call

/-- The document a call was prepared from. -/
def document : Call → Option OrderDocument
  | .approve order .. | .awaitRouting order .. | .route order .. | .reopen order ..
  | .accept order .. | .recordPaid _ _ order | .settle order .. | .timeOut _ order
  | .assign order .. | .reassign order .. | .cancel order .. | .complete order ..
  | .forceComplete order .. | .verify order .. | .confirmLoading order ..
  | .overrideDeparture order .. | .overrideLoading order .. | .verifyArrival order ..
  | .confirmInvoice order .. | .replaceInvoice order .. => some order
  | _ => none

/-- What the handler has checked of its document and of the store, as far as it
stays true. -/
def Checked (cfg : Settings) : Call → Db → Instant → Prop
  | .route _ source .., _, _ => source = .approved ∨ source = .awaitingRouting
  | .reopen order _, _, _ => order.status = .approved
  | .accept order _, _, _ => order.status = .pendingPayment ∧ order.paymentMethod ≠ .direct
  | .settle order eventId transactionId, s, _ => ∃ e, s.paymentEvent eventId = some e ∧
      e.gatewayTransactionId = transactionId ∧ e.orderId = order.id
  | .timeOut job order, _, clock => order.status = .pendingPayment ∧ order.id = job.orderId ∧
      job.delay = cfg.paymentWindow ∧ job.due ≤ clock
  | .settleInvoice i _, s, _ => ∃ x, s.invoice i = some x ∧ x.method ≠ .direct
  | .assign order _, _, _ => order.status = .routedToTransport
  | .reassign order .., _, _ => order.status = .assignedToDriver
  | .verify order attempt _, _, _ => resolveOutstandingStage order = some attempt.stage ∧
      (attempt.matched = true →
        attempt.presentedTruckId.isSome = true ∧ attempt.presentedTruckId = order.truckId)
  | .confirmLoading order .., _, _ =>
      ∃ v ∈ order.verifications, v.stage = .loading ∧ v.matched = true
  | .confirmInvoice order dto _, _, _ => dto.confirmed.fuelType = order.fuelType
  | .replaceInvoice order dto _, _, _ => dto.confirmed.fuelType = order.fuelType
  | .recordPayment _ amount _, _, _ => 1 / 100 ≤ amount
  | .recordCashbackPayout _ amount .., _, _ => 1 / 100 ≤ amount
  | _, _, _ => True

/-- What a reply promises: a recorded event is stored under the id returned. -/
def Promised : (c : Call) → c.Reply → Db → Prop
  | .recordPaid _ dto order, (eventId : Id), s => ∃ e, s.paymentEvent eventId = some e ∧
      e.gatewayTransactionId = dto.transactionId ∧ e.orderId = order.id
  | _, _, _ => True

end Call

/-- The links between orders and invoices, and the settings of stored jobs. -/
structure Consistent (cfg : Settings) (s : Db) : Prop where
  invoiceOf : ∀ id o i, s.order id = some o → o.invoiceId = some i →
    ∃ x, s.invoice i = some x ∧ x.orderId = id
  orderOf : ∀ i x, s.invoice i = some x → ∃ o, s.order x.orderId = some o ∧ o.invoiceId = some i
  jobs : ∀ id job, s.find (Key.timeoutJob id) = some (some job) →
    job.orderId = id ∧ job.delay = cfg.paymentWindow

/-- What handlers rely on and establish when they start at or after `since`. -/
def evolution (cfg : Settings) (since : Db) : Discipline Doc Call.Reply where
  inv := fun s => Consistent cfg s ∧ Progress since s
  rely := Progress
  pre := fun c s clock =>
    (∀ order, c.document = some order → order.ReadBetween since s) ∧ c.Checked cfg s clock
  post := Call.Promised

theorem Call.Checked.progress {cfg : Settings} {c : Call} {a b : Db} {t : Instant}
    (h : c.Checked cfg a t) (hab : Progress a b) : c.Checked cfg b t := by
  cases c with
  | settle order eventId transactionId =>
      obtain ⟨e, he, htransaction, horder⟩ := h
      obtain ⟨e', he', htransaction', horder'⟩ := hab.events _ e he
      exact ⟨e', he', htransaction'.trans htransaction, horder'.trans horder⟩
  | settleInvoice i ref =>
      obtain ⟨x, hx, hmethod⟩ := h
      obtain ⟨x', hx', hevolves⟩ := hab.invoices _ x hx
      exact ⟨x', hx', by rwa [hevolves.method]⟩
  | _ => exact h

theorem evolution_coherent (cfg : Settings) (since : Db) : (evolution cfg since).Coherent where
  refl := Progress.refl
  trans := Progress.trans
  stable := fun h hab _ => ⟨fun order ho => (h.1 order ho).progress hab, h.2.progress hab⟩

/-! ### Every commit keeps the discipline -/

section keep
variable {cfg : Settings} {since : Db} {ev : Event Doc Call.Reply}

/-- The run behind a commit, at its label. -/
theorem ran_as (hev : ev.Sound (machine cfg)) {c : Call} (h : ev.label = c) :
    ∃ r : c.Reply, (c.body cfg).run ev.env (View.start ev.base.docs) = .ok (r, ev.view) := by
  subst h
  exact ⟨ev.reply, hev.ran⟩

/-- A document of a call is of the order it acts on. -/
theorem Call.document_subject {c : Call} {id : Id} (h : c.subject = some id) :
    (∃ order, c.document = some order ∧ order.id = id) ∨ ∃ actor reason, c = .reject id actor reason := by
  cases c <;> first
    | exact Or.inl ⟨_, rfl, Option.some.inj h⟩
    | (cases h; exact Or.inr ⟨_, _, rfl⟩)
    | cases h

/-- A commit makes one step of the order its call acts on. -/
theorem subject_step (hev : ev.Sound (machine cfg)) (holder : Store.Older ev.base ev.before)
    (hpre : (evolution cfg since).pre ev.label ev.base ev.began) {id : Id}
    (hid : ev.label.subject = some id) :
    ∃ o o', ev.base.order id = some o ∧ ev.before.order id = some o ∧
      ev.after.order id = some o' ∧ ev.view.find (Key.order id) = some o' ∧
      OrderStep cfg ev.env.time ev.label o o' := by
  have hbase : ∃ o, ev.base.order id = some o := by
    rcases Call.document_subject hid with ⟨order, hdoc, rfl⟩ | ⟨actor, reason, hlabel⟩
    · obtain ⟨o, ho, -⟩ := (hpre.1 order hdoc).earlier
      exact ⟨o, ho⟩
    · obtain ⟨r, hran⟩ := ran_as hev hlabel
      simp only [Call.body, CiroFuel.reject] at hran
      obtain ⟨o, ho, -⟩ := transition_moved hran
      exact ⟨o, ho⟩
  obtain ⟨o, ho⟩ := hbase
  obtain ⟨o', hw, hstep⟩ := Call.body_order hev.ran hid ho
  obtain ⟨hb, ha⟩ := hev.wrote holder (Call.body_writes hev.ran hid ho)
  exact ⟨o, o', ho, hb.symm.trans ho, ha.trans hw, hw, hstep⟩

/-- What one commit can have made of an order. -/
theorem order_cases (hev : ev.Sound (machine cfg)) (holder : Store.Older ev.base ev.before)
    (hpre : (evolution cfg since).pre ev.label ev.base ev.began) (id : Id) :
    (ev.label.subject ≠ some id ∧ ev.after.order id = ev.before.order id) ∨
    (∃ o o', ev.label.subject = some id ∧ ev.base.order id = some o ∧
      ev.before.order id = some o ∧ ev.after.order id = some o' ∧
      ev.view.find (Key.order id) = some o' ∧ OrderStep cfg ev.env.time ev.label o o') ∨
    ∃ fields userId, ev.label = .create fields userId ∧ ev.before.order id = none ∧
      ev.after.order id = some fields.order := by
  by_cases hid : ev.label.subject = some id
  · obtain ⟨o, o', hstep⟩ := subject_step hev holder hpre hid
    exact Or.inr (Or.inl ⟨o, o', hid, hstep⟩)
  rcases hev.cases holder (Key.order id) with ⟨hb, ha⟩ | ⟨-, ha, -⟩
  · cases ho : ev.base.order id with
    | some o =>
        have hw := Call.body_order_frame hev.ran hid ho
        exact Or.inl ⟨hid, ha.trans (hw.trans (ho.symm.trans hb))⟩
    | none =>
        cases hw : ev.view.find (Key.order id) with
        | none => exact Or.inl ⟨hid, ha.trans (hw.trans (ho.symm.trans hb))⟩
        | some o =>
            obtain ⟨fields, userId, hlabel, rfl⟩ := Call.body_order_new hev.ran hid ho hw
            exact Or.inr (Or.inr ⟨fields, userId, hlabel, hb.symm.trans ho, ha.trans hw⟩)
  · exact Or.inl ⟨hid, ha⟩

/-- What one commit can have made of an invoice. -/
theorem invoice_cases (hev : ev.Sound (machine cfg)) (holder : Store.Older ev.base ev.before)
    (i : Id) :
    ev.after.invoice i = ev.before.invoice i ∨
    (∃ x x', ev.base.invoice i = some x ∧ ev.before.invoice i = some x ∧
      ev.after.invoice i = some x' ∧ InvoiceStep ev.env.time ev.label i x x') ∨
    ∃ order source transportCompanyId deliveryFee actor o',
      ev.label = .route order source transportCompanyId deliveryFee actor ∧
      ev.before.invoice i = none ∧ ev.after.order order.id = some o' ∧ o'.invoiceId = some i ∧
      ev.after.invoice i = some (Order.invoiceFor (o'.withId order.id)) := by
  rcases hev.cases holder (Key.invoice i) with ⟨hb, ha⟩ | ⟨-, ha, -⟩
  · cases hx : ev.base.invoice i with
    | some x =>
        obtain ⟨x', hw, heq | hstep⟩ := Call.body_invoice ev.base.unique hev.ran hx
        · subst heq
          exact Or.inl (ha.trans (hw.trans (hx.symm.trans hb)))
        · exact Or.inr (Or.inl ⟨x, x', rfl, hb.symm.trans hx, ha.trans hw, hstep⟩)
    | none =>
        cases hw : ev.view.find (Key.invoice i) with
        | none => exact Or.inl (ha.trans (hw.trans (hx.symm.trans hb)))
        | some x =>
            obtain ⟨order, source, transportCompanyId, deliveryFee, actor, o, o', hlabel, ho, ho',
              hinvoiceId, hne, rfl⟩ := Call.body_invoice_new ev.base.unique hev.ran hx hw
            have hchanged : ev.view.find (Key.order order.id) ≠ ev.base.find (Key.order order.id) := by
              intro heq
              cases ho.symm.trans (heq.symm.trans ho')
              exact hne rfl
            have hafter := (hev.written holder hchanged).2.trans ho'
            exact Or.inr (Or.inr ⟨order, source, transportCompanyId, deliveryFee, actor, o', hlabel,
              hb.symm.trans hx, hafter, hinvoiceId, ha.trans hw⟩)
  · exact Or.inl ha

/-- An invoice that is new was issued by a route call, on a snapshot without it. -/
theorem issue_cases (hev : ev.Sound (machine cfg)) (holder : Store.Older ev.base ev.before) {i : Id}
    {x : Invoice} (hnone : ev.before.invoice i = none) (hx : ev.after.invoice i = some x) :
    (∃ order source transportCompanyId deliveryFee actor,
      ev.label = .route order source transportCompanyId deliveryFee actor) ∧
    ev.base.find (Key.invoice i) = none ∧ ev.view.find (Key.invoice i) = some x := by
  refine ⟨?_, ?_⟩
  · rcases invoice_cases hev holder i with heq | ⟨_, _, -, hb, -⟩ |
      ⟨order, source, transportCompanyId, deliveryFee, actor, _, hlabel, -⟩
    · exact absurd (hx.symm.trans (heq.trans hnone)) (by simp)
    · exact absurd (hnone.symm.trans hb) (by simp)
    · exact ⟨order, source, transportCompanyId, deliveryFee, actor, hlabel⟩
  · rcases hev.cases holder (Key.invoice i) with ⟨hb, ha⟩ | ⟨-, ha, -⟩
    · exact ⟨hb.trans hnone, ha.symm.trans hx⟩
    · exact absurd (hx.symm.trans (ha.trans hnone)) (by simp)

/-- What one commit can have made of a payment event that was there. -/
theorem event_cases (hev : ev.Sound (machine cfg)) (holder : Store.Older ev.base ev.before)
    {e : Id} {x : PaymentEvent} (hx : ev.before.paymentEvent e = some x) :
    ev.after.paymentEvent e = some x ∨ ∃ outcome, ev.label = .markOutcome e outcome ∧
      ev.after.paymentEvent e = some { x with outcome := outcome } := by
  rcases hev.cases holder (Key.paymentEvent e) with ⟨hb, ha⟩ | ⟨-, ha, -⟩
  · obtain ⟨x', hw, heq | ⟨outcome, hlabel, rfl⟩⟩ := Call.body_event hev.ran (hb.trans hx)
    · subst heq
      exact Or.inl (ha.trans hw)
    · exact Or.inr ⟨outcome, hlabel, ha.trans hw⟩
  · exact Or.inl (ha.trans hx)

/-- Only an order without an invoice is routed. -/
theorem route_unbilled (hev : ev.Sound (machine cfg)) (hinv : Consistent cfg ev.base)
    {order : OrderDocument} {source : OrderStatus} {transportCompanyId : Id} {deliveryFee : ℚ}
    {actor : TransitionActor}
    (hlabel : ev.label = .route order source transportCompanyId deliveryFee actor) {o : Order}
    (ho : ev.base.order order.id = some o) : o.invoiceId = none := by
  obtain ⟨r, hran⟩ := ran_as hev hlabel
  obtain ⟨o', i, n, -, -, -, -, -, hothers, -⟩ := routeToTransport_ok hran
  cases hbilled : o.invoiceId with
  | none => rfl
  | some j =>
      obtain ⟨x, hx, horder⟩ := hinv.invoiceOf _ o j ho hbilled
      exact absurd horder (hothers j x hx)

theorem commit_progress (hev : ev.Sound (machine cfg)) (hinv : Consistent cfg ev.base)
    (holder : Store.Older ev.base ev.before)
    (hpre : (evolution cfg since).pre ev.label ev.base ev.began) : Progress ev.before ev.after where
  older := Store.commit_older hev.committed
  orders := by
    intro id o ho
    rcases order_cases hev holder hpre id with ⟨-, heq⟩ | ⟨o₁, o', hid, hbase, hbefore, hafter, -, hstep⟩ |
      ⟨fields, userId, -, hnone, -⟩
    · exact ⟨o, heq.trans ho, .refl o⟩
    · cases ho.symm.trans hbefore
      refine ⟨o', hafter, hstep.evolves ?_⟩
      intro order source transportCompanyId deliveryFee actor hlabel
      rw [hlabel] at hid
      cases hid
      exact route_unbilled hev hinv hlabel hbase
    · exact absurd (hnone.symm.trans ho) (by simp)
  invoices := by
    intro i x hx
    rcases invoice_cases hev holder i with heq | ⟨x₁, x', -, hbefore, hafter, hstep⟩ |
      ⟨_, _, _, _, _, _, _, hnone, -⟩
    · exact ⟨x, heq.trans hx, .refl x⟩
    · cases hx.symm.trans hbefore
      exact ⟨x', hafter, hstep.evolves⟩
    · exact absurd (hnone.symm.trans hx) (by simp)
  events := by
    intro e x hx
    rcases event_cases hev holder hx with hafter | ⟨outcome, -, hafter⟩
    · exact ⟨x, hafter, rfl, rfl⟩
    · exact ⟨_, hafter, rfl, rfl⟩

theorem commit_consistent (hev : ev.Sound (machine cfg)) (hbase : Consistent cfg ev.base)
    (hbefore : Consistent cfg ev.before) (holder : Store.Older ev.base ev.before)
    (hpre : (evolution cfg since).pre ev.label ev.base ev.began) : Consistent cfg ev.after where
  invoiceOf := by
    have hprogress := commit_progress hev hbase holder hpre
    have kept : ∀ id o i, ev.before.order id = some o → o.invoiceId = some i →
        ∃ x, ev.after.invoice i = some x ∧ x.orderId = id := by
      intro id o i ho hi
      obtain ⟨x, hx, horder⟩ := hbefore.invoiceOf id o i ho hi
      obtain ⟨x', hx', hevolves⟩ := hprogress.invoices i x hx
      exact ⟨x', hx', hevolves.orderId.trans horder⟩
    intro id o i ho hi
    rcases order_cases hev holder hpre id with ⟨-, heq⟩ | ⟨o₁, o', hid, -, hob, hafter, hview, hstep⟩ |
      ⟨fields, userId, -, -, hafter⟩
    · exact kept id o i (heq.symm.trans ho) hi
    · cases ho.symm.trans hafter
      rcases hstep.invoiceId with heq | ⟨order, source, transportCompanyId, deliveryFee, actor, hlabel⟩
      · exact kept id o₁ i hob (heq.symm.trans hi)
      · rw [hlabel] at hid
        cases hid
        obtain ⟨r, hran⟩ := ran_as hev hlabel
        obtain ⟨o₂, j, n, -, -, -, hw, hnone, -, hself, -⟩ := routeToTransport_ok hran
        cases hw.symm.trans hview
        cases hi
        have hchanged : ev.view.find (Key.invoice i) ≠ ev.base.find (Key.invoice i) := by
          intro heq
          exact absurd (hself.symm.trans (heq.trans hnone)) (by simp)
        exact ⟨_, (hev.written holder hchanged).2.trans hself, rfl⟩
    · cases ho.symm.trans hafter
      cases hi
  orderOf := by
    have hprogress := commit_progress hev hbase holder hpre
    have kept : ∀ i x x', ev.before.invoice i = some x → x.Evolves x' →
        ∃ o, ev.after.order x'.orderId = some o ∧ o.invoiceId = some i := by
      intro i x x' hx hevolves
      obtain ⟨o, ho, hi⟩ := hbefore.orderOf i x hx
      obtain ⟨o', ho', hevolves'⟩ := hprogress.orders _ o ho
      exact ⟨o', by rwa [hevolves.orderId], hevolves'.billed i hi⟩
    intro i x hx
    rcases invoice_cases hev holder i with heq | ⟨x₁, x', -, hxb, hafter, hstep⟩ |
      ⟨order, _, _, _, _, o', -, -, ho', hi, hafter⟩
    · exact kept i x x (heq.symm.trans hx) (.refl x)
    · cases hx.symm.trans hafter
      exact kept i x₁ x hxb hstep.evolves
    · cases hx.symm.trans hafter
      exact ⟨o', ho', hi⟩
  jobs := by
    intro id job hjob
    rcases hev.cases holder (Key.timeoutJob id) with ⟨-, ha⟩ | ⟨-, ha, -⟩
    · rcases Call.body_job hev.ran (ha.symm.trans hjob) with hold | ⟨-, n, rfl⟩
      · exact hbase.jobs id job hold
      · exact ⟨rfl, rfl⟩
    · exact hbefore.jobs id job (ha.symm.trans hjob)

theorem commit_promised (hev : ev.Sound (machine cfg)) (holder : Store.Older ev.base ev.before) :
    ev.label.Promised ev.reply ev.after := by
  obtain ⟨thread, label, base, env, began, ended, reply, view, before, after⟩ := ev
  cases label with
  | recordPaid gateway dto order =>
      have hran : ((Call.recordPaid gateway dto order).body cfg).run env (View.start base.docs) =
          .ok (reply, view) := hev.ran
      obtain ⟨hnone, hw⟩ := Call.recordPaid_event hran
      have hchanged : view.find (Key.paymentEvent reply) ≠ base.find (Key.paymentEvent reply) := by
        intro heq
        exact absurd (hw.symm.trans (heq.trans hnone)) (by simp)
      exact ⟨_, (hev.written holder hchanged).2.trans hw, rfl, rfl⟩
  | _ => trivial

end keep
end CiroFuel
