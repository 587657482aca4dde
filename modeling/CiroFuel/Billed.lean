import CiroFuel.Reachable

/-!
# Priced, billed and paid orders

Routing prices an order, bills it and leaves it awaiting settlement, all in one
commit; the invoice then stays with the order and its amount with the price.
Re-opening a payment window enters the same status without any of this. Apart
from that every order past routing is billed at its price, and a direct order
past payment is paid.
-/
namespace CiroFuel
open Snapshot

/-! ### What steps do to prices -/

/-- No status leads back to creation. -/
theorem not_pendingApproval (a b : OrderStatus) (override : Bool) (_ : a ≠ .pendingApproval)
    (h : permits a b override = true) : b ≠ .pendingApproval := by
  rintro rfl
  cases a <;> simp [permits, transitions] at h

section steps
variable {cfg : Settings} {time : ℕ → Instant} {c : Call} {o o' : Order}

/-- Once approved, an order changes its price and its transporter only by being routed. -/
theorem OrderStep.price (h : OrderStep cfg time c o o') (hstatus : o.status ≠ .pendingApproval)
    (hroute : ∀ order source transportCompanyId deliveryFee actor,
      c ≠ .route order source transportCompanyId deliveryFee actor) :
    o'.finalPrice = o.finalPrice ∧ o'.transportCompanyId = o.transportCompanyId := by
  cases h with
  | approve happroval => exact absurd happroval hstatus
  | route => exact absurd rfl (hroute _ _ _ _ _)
  | assign hassign =>
      rename_i order a driver truck tank client n
      obtain ⟨clientSummary, ineligible, reason, heq⟩ :=
        Order.assigned_eq o a driver truck tank client (time n)
      rw [heq]
      exact ⟨rfl, rfl⟩
  | _ => exact ⟨rfl, rfl⟩

end steps

/-- A committed routing leaves the order priced and its invoice at that price. -/
theorem route_commit {cfg : Settings} {ev : Event Doc Call.Reply} (hev : ev.Sound (machine cfg))
    (holder : Store.Older ev.base ev.before) {order : OrderDocument} {source : OrderStatus}
    {transportCompanyId : Id} {deliveryFee : ℚ} {actor : TransitionActor}
    (hlabel : ev.label = .route order source transportCompanyId deliveryFee actor) :
    ∃ o i x, ev.after.order order.id = some o ∧ o.status = .pendingPayment ∧
      o.transportCompanyId = some transportCompanyId ∧ o.invoiceId = some i ∧
      ev.after.invoice i = some x ∧ o.finalPrice = some x.amount := by
  obtain ⟨r, hran⟩ := ran_as hev hlabel
  obtain ⟨o, i, n, hbase, -, -, hview, hnone, -, hself, -⟩ := routeToTransport_ok hran
  obtain ⟨priceBreakdown, finalPrice, heq⟩ := Order.awaiting_eq cfg o order.id source
    transportCompanyId deliveryFee actor i (ev.env.time n) (ev.env.time (n + 1))
    (ev.env.time (n + 2)) (ev.env.time (n + 3))
  rw [heq] at hview hself
  have horder : ev.view.find (Key.order order.id) ≠ ev.base.find (Key.order order.id) := by
    intro hsame
    have := congrArg (Option.map fun o : Order => o.statusHistory.length)
      (hview.symm.trans (hsame.trans hbase))
    simp at this
  have hinvoice : ev.view.find (Key.invoice i) ≠ ev.base.find (Key.invoice i) := by
    intro hsame
    exact absurd (hself.symm.trans (hsame.trans hnone)) (by simp)
  exact ⟨_, i, _, (hev.written holder horder).2.trans hview, rfl, rfl, rfl,
    (hev.written holder hinvoice).2.trans hself, rfl⟩

/-! ### Every order past routing is billed -/

/-- The statuses from the first request for payment on. -/
def billedStatuses : List OrderStatus :=
  [.pendingPayment, .routedToTransport, .assignedToDriver, .loading, .inTransit, .unloading,
    .delivered]

/-- A payment window is re-opened for an order that already has an invoice. -/
def Call.reopensBilled (c : Call) (s : Db) : Bool :=
  match c with
  | .reopen order _ => (s.order order.id).all (·.invoiceId.isSome)
  | _ => true

theorem OrderStep.billed {cfg : Settings} {time : ℕ → Instant} {c : Call} {o o' : Order}
    (h : OrderStep cfg time c o o')
    (hreopen : ∀ order actor, c = .reopen order actor → o.invoiceId.isSome = true)
    (ho : o.status ∈ billedStatuses → o.invoiceId.isSome = true)
    (hstatus : o'.status ∈ billedStatuses) : o'.invoiceId.isSome = true := by
  have kept : o'.invoiceId = o.invoiceId → o.status ∈ billedStatuses →
      o'.invoiceId.isSome = true := fun heq hs => by rw [heq, ho hs]
  cases h with
  | route => rfl
  | reopen => exact hreopen _ _ rfl
  | assign happroved =>
      rename_i order a driver truck tank client n
      obtain ⟨clientSummary, ineligible, reason, heq⟩ :=
        Order.assigned_eq o a driver truck tank client (time n)
      exact kept (by rw [heq]) (by simp [billedStatuses, happroved])
  | reassign => exact kept rfl hstatus
  | attempt => exact kept rfl hstatus
  | confirmInvoice => exact kept rfl hstatus
  | replaceInvoice => exact kept rfl hstatus
  | forceComplete hdoc hedge =>
      refine kept rfl ?_
      rw [hdoc]
      rename_i order _ _ _
      cases hs : order.status <;> simp [hs, permits, transitions, billedStatuses] at hedge ⊢
  | approve => simp [billedStatuses] at hstatus
  | reject => simp [billedStatuses] at hstatus
  | awaitRouting => simp [billedStatuses] at hstatus
  | timeOut => simp [billedStatuses] at hstatus
  | cancel => simp [billedStatuses] at hstatus
  | depart hmatched hstage happroved => exact kept rfl (by simp [billedStatuses, happroved])
  | _ hsource => exact kept rfl (by simp [billedStatuses, hsource])

/-- The order has a transporter and exactly one invoice, and its price is the
invoice's amount. -/
def BilledAtPrice (s : Db) (id : Id) (o : Order) : Prop :=
  o.transportCompanyId.isSome = true ∧ ∃ i x, s.invoice i = some x ∧ x.orderId = id ∧
    o.finalPrice = some x.amount ∧ ∀ j y, s.invoice j = some y → y.orderId = id → j = i

/-- An order with an invoice has been approved and routed, and is billed at its price. -/
def Priced (s : Db) : Prop :=
  ∀ id o i x, s.order id = some o → o.invoiceId = some i → s.invoice i = some x →
    o.status ≠ .pendingApproval ∧ o.transportCompanyId.isSome = true ∧
      o.finalPrice = some x.amount

theorem commit_priced {cfg : Settings} {ev : Event Doc Call.Reply} {since : Db}
    (hev : ev.Sound (machine cfg)) (hholds : (evolution cfg since).Holds ev)
    (hbefore : Priced ev.before) : Priced ev.after := by
  intro id o i x ho hi hx
  -- An order that kept its invoice kept its price.
  have kept : ∀ o₁, ev.before.order id = some o₁ → o₁.invoiceId = some i →
      o₁.status ≠ .pendingApproval ∧ o₁.transportCompanyId.isSome = true ∧
        o₁.finalPrice = some x.amount := by
    intro o₁ ho₁ hi₁
    obtain ⟨x₁, hx₁, -⟩ := hholds.inv_before.1.invoiceOf id o₁ i ho₁ hi₁
    obtain ⟨x', hx', hevolves⟩ := hholds.before_after.invoices i x₁ hx₁
    cases hx'.symm.trans hx
    rw [hevolves.amount]
    exact hbefore id o₁ i x₁ ho₁ hi₁ hx₁
  rcases order_cases hev hholds.older hholds.pre id with ⟨-, heq⟩ |
    ⟨o₁, o₂, hid, -, hbefore₁, hafter, -, hstep⟩ | ⟨fields, userId, -, -, hafter⟩
  · exact kept o (heq.symm.trans ho) hi
  · cases ho.symm.trans hafter
    by_cases hroute : ∃ order source transportCompanyId deliveryFee actor,
        ev.label = .route order source transportCompanyId deliveryFee actor
    · obtain ⟨order, source, transportCompanyId, deliveryFee, actor, hlabel⟩ := hroute
      rw [hlabel] at hid
      cases hid
      obtain ⟨o', i', x', ho', hstatus, htransport, hi', hx', hprice⟩ :=
        route_commit hev hholds.older hlabel
      cases ho.symm.trans ho'
      cases hi.symm.trans hi'
      cases hx.symm.trans hx'
      exact ⟨by simp [hstatus], by simp [htransport], hprice⟩
    · have hnot : ∀ order source transportCompanyId deliveryFee actor,
          ev.label ≠ .route order source transportCompanyId deliveryFee actor :=
        fun _ _ _ _ _ hlabel => hroute ⟨_, _, _, _, _, hlabel⟩
      rcases hstep.invoiceId with hsame | hlabel
      · obtain ⟨hstatus, htransport, hprice⟩ := kept o₁ hbefore₁ (hsame.symm.trans hi)
        obtain ⟨hprice', htransport'⟩ := hstep.price hstatus hnot
        obtain ⟨es, -, htrail⟩ := hstep.trail
        exact ⟨htrail.closed not_pendingApproval hstatus, by rw [htransport', htransport],
          hprice'.trans hprice⟩
      · exact absurd hlabel hroute
  · cases ho.symm.trans hafter
    cases hi

/-- In every run that re-opens payment windows of billed orders only, every order
from the first request for payment on is billed at its price. -/
theorem billed_at_price {cfg : Settings} {log : List (Event Doc Call.Reply)}
    {s : Sys Doc Call.Reply Refusal Answer}
    (h : Run (machine cfg) Store.empty (fun ev => ev.label.reopensBilled ev.before = true) log s)
    {id : Id} {o : Order} (ho : s.store.order id = some o) (hstatus : o.status ∈ billedStatuses) :
    BilledAtPrice s.store id o := by
  obtain ⟨hbilled, -⟩ := orders_invariant
    (I := fun _ o => o.status ∈ billedStatuses → o.invoiceId.isSome = true) consistent_empty
    (fun id o ho => by cases ho)
    (fun id fields hmem => by simp [OrderFields.order, billedStatuses] at hmem)
    (fun ev id o o' _ hP _ hid hbefore hstep hI => by
      refine hstep.billed (fun order actor hlabel => ?_) hI
      rw [hlabel] at hid hP
      cases hid
      simpa [Call.reopensBilled, hbefore] using hP) h
  obtain ⟨hpriced, -⟩ := db_invariant (I := Priced) consistent_empty
    (fun id o i x ho => by cases ho)
    (fun ev hev _ hholds _ hbefore => commit_priced hev hholds hbefore) h
  obtain ⟨i, hi⟩ := Option.isSome_iff_exists.mp (hbilled id o ho hstatus)
  obtain ⟨x, hx, horder⟩ := (disciplined consistent_empty h).1.1.invoiceOf id o i ho hi
  obtain ⟨-, htransport, hprice⟩ := hpriced id o i x ho hi hx
  refine ⟨htransport, i, x, hx, horder, hprice, fun j y hy hyorder => ?_⟩
  exact invoice_unique s.store.unique hy hx (hyorder.trans horder.symm)

namespace Sample

/-- Routing to a company that does not serve the region is refused after the
approval has committed; the client then re-opens the payment window. -/
def refusedRouting : List (Act Request) :=
  opening ++ serve (.create client (order .direct)) 10 6 100 ++
    serve (.approve fuelAdmin 100 none (some 99)) 11 6 ++ serve (.redispatch client 100) 12 7

end Sample

theorem billed_at_price_twoWindows :
    ∃ log s o, Run (machine Sample.cfg) Store.empty
        (fun ev => ev.label.reopensBilled ev.before = true) log s ∧
      s.store.order 100 = some o ∧ o.status = .pendingPayment ∧ o.paymentTimeoutCount = 1 ∧
      BilledAtPrice s.store 100 o := by
  obtain ⟨log, s, hrun, htest⟩ := exists_run (machine Sample.cfg) Store.empty
    (fun ev => ev.label.reopensBilled ev.before = true) Sample.twoWindows
    (fun _ s => (s.store.order 100).any fun o =>
      o.status = .pendingPayment && o.paymentTimeoutCount = 1) (by decide +kernel)
  obtain ⟨o, ho, hstatus⟩ := (Option.any_eq_true _ _).mp htest
  simp only [Bool.and_eq_true, decide_eq_true_eq] at hstatus
  refine ⟨log, s, o, hrun, ho, hstatus.1, hstatus.2, billed_at_price hrun ho ?_⟩
  rw [hstatus.1]
  exact List.mem_cons_self

theorem billed_at_price_refusedRouting :
    ¬ ∀ (log : List (Event Doc Call.Reply)) (s : Sys Doc Call.Reply Refusal Answer),
      Run (machine Sample.cfg) Store.empty (fun _ => True) log s →
      ∀ id o, s.store.order id = some o → o.status ∈ billedStatuses →
        BilledAtPrice s.store id o := by
  intro hclaim
  obtain ⟨log, s, hrun, htest⟩ := exists_run (machine Sample.cfg) Store.empty (fun _ => True)
    Sample.refusedRouting
    (fun _ s => (s.store.order 100).any fun o =>
      o.status = .pendingPayment && o.transportCompanyId.isNone) (by decide +kernel)
  obtain ⟨o, ho, hstatus⟩ := (Option.any_eq_true _ _).mp htest
  simp only [Bool.and_eq_true, decide_eq_true_eq] at hstatus
  obtain ⟨htransport, -⟩ := hclaim log s hrun 100 o ho
    (by rw [hstatus.1]; exact List.mem_cons_self)
  rw [Option.isNone_iff_eq_none.mp hstatus.2] at htransport
  cases htransport

/-! ### Direct orders are paid before they leave -/

def pastPayment : List OrderStatus :=
  [.routedToTransport, .assignedToDriver, .loading, .inTransit, .unloading, .delivered]

/-- An order gets past payment by being accepted or by being paid. -/
theorem OrderStep.pastPayment {cfg : Settings} {time : ℕ → Instant} {c : Call} {o o' : Order}
    (h : OrderStep cfg time c o o') (hstatus : o'.status ∈ pastPayment) :
    o.status ∈ pastPayment ∨ (∃ order actor, c = .accept order actor) ∨
      ∃ order eventId transactionId, c = .settle order eventId transactionId := by
  cases h with
  | accept => exact Or.inr (Or.inl ⟨_, _, rfl⟩)
  | settle => exact Or.inr (Or.inr ⟨_, _, _, rfl⟩)
  | reassign => exact Or.inl hstatus
  | attempt => exact Or.inl hstatus
  | confirmInvoice => exact Or.inl hstatus
  | replaceInvoice => exact Or.inl hstatus
  | forceComplete hdoc hedge =>
      rename_i order _ _ _
      left
      rw [hdoc]
      cases hs : order.status <;> simp [hs, permits, transitions, CiroFuel.pastPayment] at hedge ⊢
  | approve => simp [CiroFuel.pastPayment] at hstatus
  | reject => simp [CiroFuel.pastPayment] at hstatus
  | awaitRouting => simp [CiroFuel.pastPayment] at hstatus
  | route => simp [Order.awaiting, CiroFuel.pastPayment] at hstatus
  | reopen => simp [CiroFuel.pastPayment] at hstatus
  | timeOut => simp [CiroFuel.pastPayment] at hstatus
  | cancel => simp [CiroFuel.pastPayment] at hstatus
  | depart hmatched hstage hsource => exact Or.inl (by simp [CiroFuel.pastPayment, hsource])
  | _ hsource => exact Or.inl (by simp [CiroFuel.pastPayment, hsource])

/-- Only a cancelled order has a void invoice. -/
def VoidCancelled (s : Db) : Prop :=
  ∀ i x, s.invoice i = some x → x.state = .void →
    ∀ o, s.order x.orderId = some o → o.status = .cancelled

theorem cancelled_stays (a b : OrderStatus) (override : Bool) (ha : a = .cancelled)
    (h : permits a b override = true) : b = .cancelled := by
  subst ha
  simp [permits, transitions] at h

section commits
variable {cfg : Settings} {ev : Event Doc Call.Reply} {since : Db}

theorem commit_voidCancelled (hev : ev.Sound (machine cfg)) (hholds : (evolution cfg since).Holds ev)
    (hbefore : VoidCancelled ev.before) : VoidCancelled ev.after := by
  intro i x hx hvoid o ho
  rcases invoice_cases hev hholds.older i with heq | ⟨x₁, x', -, -, hafter, hstep⟩ |
    ⟨_, _, _, _, _, _, _, -, -, -, hafter⟩
  · have hx₁ : ev.before.invoice i = some x := heq.symm.trans hx
    obtain ⟨o₁, ho₁, -⟩ := hholds.inv_before.1.orderOf i x hx₁
    obtain ⟨o', ho', hevolves⟩ := hholds.before_after.orders _ o₁ ho₁
    cases ho'.symm.trans ho
    exact hevolves.closed cancelled_stays (hbefore i x hx₁ hvoid o₁ ho₁)
  · cases hx.symm.trans hafter
    generalize hlabel : ev.label = c at hstep
    cases hstep with
    | settle => cases hvoid
    | settleInvoice => cases hvoid
    | cancel horder =>
        have hid : ev.label.subject = some x₁.orderId := by
          rw [hlabel]
          exact congrArg some horder.symm
        obtain ⟨o₁, o₂, -, -, ho₂, -, hmove⟩ := subject_step hev hholds.older hholds.pre hid
        cases ho₂.symm.trans ho
        rw [hlabel] at hmove
        cases hmove
        exact Order.moved_status _ _ _ _ _ _
  · cases hx.symm.trans hafter
    cases hvoid

/-- Every direct order past payment has a settled invoice. -/
def Paid (s : Db) : Prop :=
  ∀ id o, s.order id = some o → o.paymentMethod = .direct → o.status ∈ pastPayment →
    ∃ i x, s.invoice i = some x ∧ x.orderId = id ∧ x.state = .settled

/-- A committed payment leaves the invoice settled: it was issued, or already
settled; it was not void, because the order was awaiting payment. -/
theorem settle_commit (hev : ev.Sound (machine cfg)) (hholds : (evolution cfg since).Holds ev)
    (hvoid : VoidCancelled ev.base) {order : OrderDocument} {eventId : Id} {transactionId : ℕ}
    (hlabel : ev.label = .settle order eventId transactionId) :
    ∃ i x, ev.after.invoice i = some x ∧ x.orderId = order.id ∧ x.state = .settled := by
  obtain ⟨o₁, o₂, hbase, -, -, -, hmove⟩ := subject_step hev hholds.older hholds.pre
    (by rw [hlabel]; rfl)
  rw [hlabel] at hmove
  have hpending : o₁.status = .pendingPayment := by
    cases hmove
    assumption
  obtain ⟨r, hran⟩ := ran_as hev hlabel
  obtain ⟨i, x, hx, horder, hsettles⟩ := Call.settle_invoice hran
  cases hstate : x.state with
  | issued =>
      obtain ⟨n, hview⟩ := hsettles hstate
      have hchanged : ev.view.find (Key.invoice i) ≠ ev.base.find (Key.invoice i) := by
        intro hsame
        have hboth := hview.symm.trans (hsame.trans hx)
        rw [← Option.some.inj hboth] at hstate
        cases hstate
      exact ⟨i, _, (hev.written hholds.older hchanged).2.trans hview, horder, rfl⟩
  | settled =>
      obtain ⟨x', hx', hevolves⟩ := (hholds.base_before.trans hholds.before_after).invoices i x hx
      refine ⟨i, x', hx', hevolves.orderId.trans horder, ?_⟩
      rw [hevolves.closed (by rw [hstate]; decide), hstate]
  | void =>
      have hcancelled := hvoid i x hx hstate o₁ (by rw [horder]; exact hbase)
      rw [hpending] at hcancelled
      cases hcancelled

theorem commit_paid (hev : ev.Sound (machine cfg)) (hholds : (evolution cfg since).Holds ev)
    (hvoid : VoidCancelled ev.base) (hbefore : Paid ev.before) : Paid ev.after := by
  intro id o ho hdirect hstatus
  have kept : ∀ o₁, ev.before.order id = some o₁ → o₁.status ∈ pastPayment →
      ∃ i x, ev.after.invoice i = some x ∧ x.orderId = id ∧ x.state = .settled := by
    intro o₁ ho₁ hstatus₁
    obtain ⟨o', ho', hevolves⟩ := hholds.before_after.orders id o₁ ho₁
    cases ho'.symm.trans ho
    obtain ⟨i, x, hx, horder, hsettled⟩ :=
      hbefore id o₁ ho₁ (hevolves.paymentMethod.symm.trans hdirect) hstatus₁
    obtain ⟨x', hx', hevolves'⟩ := hholds.before_after.invoices i x hx
    refine ⟨i, x', hx', hevolves'.orderId.trans horder, ?_⟩
    rw [hevolves'.closed (by rw [hsettled]; decide), hsettled]
  rcases order_cases hev hholds.older hholds.pre id with ⟨-, heq⟩ |
    ⟨o₁, o₂, hid, hbase₁, hbefore₁, hafter, -, hstep⟩ | ⟨fields, userId, -, -, hafter⟩
  · exact kept o (heq.symm.trans ho) hstatus
  · cases ho.symm.trans hafter
    rcases hstep.pastPayment hstatus with hpast | ⟨order, actor, hlabel⟩ |
      ⟨order, eventId, transactionId, hlabel⟩
    · exact kept o₁ hbefore₁ hpast
    · -- Accepting was refused if the document read was of a direct order.
      have hpre := hholds.pre
      rw [hlabel] at hpre hid
      cases hid
      obtain ⟨hread, -, hmethod⟩ := hpre
      obtain ⟨o', ho', hevolves⟩ := (hread order rfl).earlier
      cases ho'.symm.trans hbase₁
      obtain ⟨o'', ho'', hevolves'⟩ := hholds.before_after.orders _ o₁ hbefore₁
      cases ho''.symm.trans ho
      exact absurd ((hevolves.trans hevolves').paymentMethod.symm.trans hdirect) hmethod
    · rw [hlabel] at hid
      cases hid
      exact settle_commit hev hholds hvoid hlabel
  · cases ho.symm.trans hafter
    simp [OrderFields.order, pastPayment] at hstatus

end commits

/-- In every run a direct order that has got past payment has a settled invoice. -/
theorem direct_paid {cfg : Settings} {log : List (Event Doc Call.Reply)}
    {s : Sys Doc Call.Reply Refusal Answer} (h : Run (machine cfg) Store.empty (fun _ => True) log s)
    {id : Id} {o : Order} (ho : s.store.order id = some o) (hdirect : o.paymentMethod = .direct)
    (hstatus : o.status ∈ pastPayment) :
    ∃ i x, s.store.invoice i = some x ∧ x.orderId = id ∧ x.state = .settled := by
  obtain ⟨hinv, -⟩ := db_invariant (I := fun s => VoidCancelled s ∧ Paid s) consistent_empty
    ⟨fun i x hx => (by cases hx), fun id o ho => (by cases ho)⟩
    (fun ev hev _ hholds hbase hbefore => ⟨commit_voidCancelled hev hholds hbefore.1,
      commit_paid hev hholds hbase.1 hbefore.2⟩) h
  exact hinv.2 id o ho hdirect hstatus

theorem direct_paid_paidDelivery :
    ∃ log s o, Run (machine Sample.cfg) Store.empty (fun _ => True) log s ∧
      s.store.order 100 = some o ∧ o.paymentMethod = .direct ∧ o.status = .assignedToDriver ∧
      ∃ i x, s.store.invoice i = some x ∧ x.orderId = 100 ∧ x.state = .settled := by
  obtain ⟨log, s, hrun, htest⟩ := exists_run (machine Sample.cfg) Store.empty (fun _ => True)
    Sample.paidDelivery (fun _ s => (s.store.order 100).any fun o =>
      o.paymentMethod = .direct && o.status = .assignedToDriver) (by decide +kernel)
  obtain ⟨o, ho, hstatus⟩ := (Option.any_eq_true _ _).mp htest
  simp only [Bool.and_eq_true, decide_eq_true_eq] at hstatus
  refine ⟨log, s, o, hrun, ho, hstatus.1, hstatus.2, direct_paid hrun ho hstatus.1 ?_⟩
  rw [hstatus.2]
  decide

end CiroFuel
