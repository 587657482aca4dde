import CiroFuel.Billed

/-!
# What a cancelled order owes

A cancellation voids the invoice of the order, if the document it was called with
names one. That document may have been read before the order was routed and its
payment window lapsed; the status it guards is then the same again, and the
invoice issued in between stays open.
-/
namespace CiroFuel
open Snapshot

/-- A cancelled order has no open invoice. -/
def ClosedWhenCancelled (s : Db) : Prop :=
  ∀ id o i x, s.order id = some o → o.status = .cancelled → s.invoice i = some x →
    x.orderId = id → x.state ≠ .issued

/-- A cancellation knows of the order's invoice while that is open. -/
def Call.invoiceCurrent (c : Call) (s : Db) : Bool :=
  match c with
  | .cancel order .. => (s.order order.id).all fun o =>
      o.invoiceId = order.invoiceId || o.invoiceId.all fun i => (s.invoice i).all (·.state ≠ .issued)
  | _ => true

/-- Only a cancellation cancels. -/
theorem OrderStep.cancelled {cfg : Settings} {time : ℕ → Instant} {c : Call} {o o' : Order}
    (h : OrderStep cfg time c o o') (hstatus : o'.status = .cancelled) :
    o.status = .cancelled ∨ ∃ order actor reason, c = .cancel order actor reason := by
  cases h with
  | cancel => exact Or.inr ⟨_, _, _, rfl⟩
  | reassign => exact Or.inl hstatus
  | attempt => exact Or.inl hstatus
  | confirmInvoice => exact Or.inl hstatus
  | replaceInvoice => exact Or.inl hstatus
  | route => simp [Order.awaiting] at hstatus
  | _ => simp at hstatus

section commit
variable {cfg : Settings} {since : Db} {ev : Event Doc Call.Reply}

/-- A cancellation that is current leaves the order's invoice closed. -/
theorem cancel_closes (hev : ev.Sound (machine cfg)) (hholds : (evolution cfg since).Holds ev)
    (hcurrent : ev.label.invoiceCurrent ev.before = true) {order : OrderDocument}
    {actor : TransitionActor} {reason : Option String}
    (hlabel : ev.label = .cancel order actor reason) {i : Id} {x : Invoice}
    (hx : ev.after.invoice i = some x) (hb : ev.before.invoice i = some x)
    (horder : x.orderId = order.id) : x.state ≠ .issued := by
  intro hissued
  obtain ⟨r, hran⟩ := ran_as hev hlabel
  obtain ⟨o, o', hbase, hbefore, -⟩ := subject_step hev hholds.older hholds.pre
    (by rw [hlabel]; rfl)
  obtain ⟨o₁, ho₁, hi⟩ := hholds.inv_before.1.orderOf i x hb
  rw [horder] at ho₁
  cases ho₁.symm.trans hbefore
  have hbilled : order.invoiceId.isSome = true := by
    have hsame : o.invoiceId = order.invoiceId := by
      simpa [hlabel, Call.invoiceCurrent, hbefore, hi, hb, hissued] using hcurrent
    rw [← hsame, hi]
    rfl
  -- The snapshot has the same order, hence its invoice.
  obtain ⟨y, hy, hyorder⟩ := hholds.inv_base.1.invoiceOf _ o i hbase hi
  have hview := Call.cancel_invoice ev.base.unique hran hy
  by_cases hyissued : y.state = .issued
  · rw [if_pos ⟨hbilled, hyorder, hyissued⟩] at hview
    have hchanged : ev.view.find (Key.invoice i) ≠ ev.base.find (Key.invoice i) := by
      intro hsame
      have hboth := Option.some.inj (hview.symm.trans (hsame.trans hy))
      have hvoid : y.voided.state = y.state := congrArg Invoice.state hboth
      rw [hyissued] at hvoid
      cases hvoid
    cases hx.symm.trans ((hev.written hholds.older hchanged).2.trans hview)
    cases hissued
  · obtain ⟨y', hy', hevolves⟩ := hholds.base_before.invoices i y hy
    cases hy'.symm.trans hb
    exact hyissued ((hevolves.closed hyissued).symm.trans hissued)

theorem commit_closed (hev : ev.Sound (machine cfg)) (hholds : (evolution cfg since).Holds ev)
    (hcurrent : ev.label.invoiceCurrent ev.before = true)
    (hbefore : ClosedWhenCancelled ev.before) : ClosedWhenCancelled ev.after := by
  intro id o i x ho hcancelled hx horder
  rcases invoice_cases hev hholds.older i with heq | ⟨y, x', -, -, hafter, hstep⟩ |
    ⟨order, source, transportCompanyId, deliveryFee, actor, o', hlabel, -, ho', -, hafter⟩
  · have hb : ev.before.invoice i = some x := heq.symm.trans hx
    rcases order_cases hev hholds.older hholds.pre id with ⟨-, hsame⟩ |
      ⟨o₁, o₂, hid, -, ho₁, ho₂, -, hstep⟩ | ⟨fields, userId, -, -, hafter⟩
    · exact hbefore id o i x (hsame.symm.trans ho) hcancelled hb horder
    · cases ho₂.symm.trans ho
      rcases hstep.cancelled hcancelled with hold | ⟨order, actor, reason, hlabel⟩
      · exact hbefore id o₁ i x ho₁ hold hb horder
      · rw [hlabel] at hid
        cases hid
        exact cancel_closes hev hholds hcurrent hlabel hx hb horder
    · cases hafter.symm.trans ho
      cases hcancelled
  · cases hafter.symm.trans hx
    generalize ev.label = c at hstep
    cases hstep with
    | settle => simp [Invoice.settled]
    | settleInvoice => simp [Invoice.settled]
    | cancel => simp [Invoice.voided]
  · cases hafter.symm.trans hx
    have hid : order.id = id := horder
    subst hid
    cases ho'.symm.trans ho
    obtain ⟨o₁, o₂, -, -, ho₂, -, hstep⟩ := subject_step hev hholds.older hholds.pre
      (by rw [hlabel]; rfl)
    cases ho₂.symm.trans ho
    rw [hlabel] at hstep
    cases hstep
    simp [Order.awaiting] at hcancelled

end commit

/-- In every run whose cancellations know of the invoices they leave behind, no
cancelled order has an open one. -/
theorem cancelled_closed {cfg : Settings} {log : List (Event Doc Call.Reply)}
    {s : Sys Doc Call.Reply Refusal Answer}
    (h : Run (machine cfg) Store.empty (fun ev => ev.label.invoiceCurrent ev.before = true) log s) :
    ClosedWhenCancelled s.store :=
  (db_invariant consistent_empty (fun _ _ _ _ ho => by cases ho)
    (fun _ hev hcurrent hholds _ hbefore => commit_closed hev hholds hcurrent hbefore) h).1

namespace Sample

/-- The order is cancelled in its second payment window. -/
def cancelledUnpaid : List (Act Request) :=
  twoWindows ++ serve (.cancel client 100 none) 14 3

/-- The cancellation reads the approved order before it is routed, and commits
after its payment window has lapsed. -/
def cancelledAfterLapse : List (Act Request) :=
  opening ++ serve (.create client (order .direct)) 10 6 100 ++
    serve (.approve fuelAdmin 100 none (some 99)) 11 6 ++
    [Act.arrive (Request.cancel fuelAdmin 100 none), .step 12] ++
    serve (.route fuelAdmin 100 none) 13 14 200 ++ [Act.tick 1800000] ++
    serve (.timeout ⟨100, 0, 1800000⟩) 14 5 ++ List.replicate 2 (Act.step 12)

end Sample

theorem cancelled_closed_cancelledUnpaid :
    ∃ log s o x, Run (machine Sample.cfg) Store.empty
        (fun ev => ev.label.invoiceCurrent ev.before = true) log s ∧
      s.store.order 100 = some o ∧ o.status = .cancelled ∧ s.store.invoice 200 = some x ∧
      x.orderId = 100 ∧ x.state ≠ .issued := by
  obtain ⟨log, s, hrun, htest⟩ := exists_run (machine Sample.cfg) Store.empty
    (fun ev => ev.label.invoiceCurrent ev.before = true) Sample.cancelledUnpaid
    (fun _ s => ((s.store.order 100).any fun o => o.status = .cancelled) &&
      (s.store.invoice 200).any fun x => x.orderId = 100) (by decide +kernel)
  obtain ⟨hcancelled, hinvoice⟩ := Bool.and_eq_true_iff.mp htest
  obtain ⟨o, ho, hstatus⟩ := (Option.any_eq_true _ _).mp hcancelled
  obtain ⟨x, hx, horder⟩ := (Option.any_eq_true _ _).mp hinvoice
  exact ⟨log, s, o, x, hrun, ho, of_decide_eq_true hstatus, hx, of_decide_eq_true horder,
    cancelled_closed hrun 100 o 200 x ho (of_decide_eq_true hstatus) hx (of_decide_eq_true horder)⟩

theorem cancelled_closed_cancelledAfterLapse :
    ¬ ∀ (log : List (Event Doc Call.Reply)) (s : Sys Doc Call.Reply Refusal Answer),
      Run (machine Sample.cfg) Store.empty (fun _ => True) log s → ClosedWhenCancelled s.store := by
  intro hclaim
  obtain ⟨log, s, hrun, htest⟩ := exists_run (machine Sample.cfg) Store.empty (fun _ => True)
    Sample.cancelledAfterLapse
    (fun _ s => ((s.store.order 100).any fun o => o.status = .cancelled) &&
      (s.store.invoice 200).any fun x => x.orderId = 100 && x.state = .issued) (by decide +kernel)
  obtain ⟨hcancelled, hinvoice⟩ := Bool.and_eq_true_iff.mp htest
  obtain ⟨o, ho, hstatus⟩ := (Option.any_eq_true _ _).mp hcancelled
  obtain ⟨x, hx, hopen⟩ := (Option.any_eq_true _ _).mp hinvoice
  simp only [Bool.and_eq_true, decide_eq_true_eq] at hopen
  exact hclaim log s hrun 100 o 200 x ho (of_decide_eq_true hstatus) hx hopen.1 hopen.2

end CiroFuel
