import CiroFuel.Receivables

/-!
# Payment, timeout, cancellation and acceptance

An order that awaits payment leaves that status once: through a webhook, the
timeout, a cancellation or an acceptance. All of them go through the guarded
transition in the transaction that also touches the invoice, so the losers of the
race leave no trace on the order or on the invoice.
-/
namespace CiroFuel
open Snapshot Handler

/-- The requests that race for an order awaiting payment. -/
def Request.races : Request → Bool
  | .webhook .. | .timeout _ | .cancel .. | .accept .. => true
  | _ => false

/-- The calls their handlers make. -/
def Call.races : Call → Bool
  | .recordInvalid .. | .recordPaid .. | .markOutcome .. | .settle .. | .timeOut .. | .cancel ..
  | .accept .. | .unschedule _ | .finishJob _ => true
  | _ => false

/-- The calls made for a webhook. -/
def Call.ofWebhook : Call → Bool
  | .recordInvalid .. | .recordPaid .. | .markOutcome .. | .settle .. | .unschedule _ => true
  | _ => false

/-- The state in which a departure from payment leaves the order's open invoice. -/
def Call.decides : Call → Option InvoiceState
  | .settle .. => some .settled
  | .cancel .. => some .void
  | .timeOut .. | .accept .. => some .issued
  | _ => none

/-- The commit takes the order out of payment. -/
def departs (id : Id) (ev : Event Doc Call.Reply) : Bool :=
  ((ev.before.order id).any fun o => o.status = .pendingPayment) &&
    (ev.after.order id).any fun o => o.status ≠ .pendingPayment

/-- The transaction ids that the commits settled orders with. -/
def settledTransactions (log : List (Event Doc Call.Reply)) : List ℕ :=
  log.filterMap fun ev =>
    match ev.label with
    | .settle _ _ transactionId => some transactionId
    | _ => none

/-! ### The calls of the racing handlers -/

section calls
variable {S : Call → Prop} {A B : Type}

theorem calls_require {e : Refusal} {o : Option A} : (require e o).Calls S := by
  cases o <;> trivial

theorem calls_refuseIf {b : Bool} {e : Refusal} : (refuseIf b e).Calls S := by
  cases b <;> trivial

theorem calls_sideEffect : sideEffect.Calls S := fun ok => by cases ok <;> trivial

theorem calls_enqueue {l : Call} (h : S l) : (enqueue l).Calls S :=
  Prog.Calls.bind calls_sideEffect fun _ => Prog.Calls.bind (Prog.calls_perform h) fun _ =>
    Prog.Calls.bind calls_sideEffect fun _ => trivial

theorem calls_findById (id : Id) : (findById id).Calls S :=
  Prog.Calls.bind (Prog.calls_find _) fun _ => Prog.Calls.bind calls_require fun _ => trivial

theorem calls_findOneForUser (user : AuthenticatedUser) (id : Id) :
    (findOneForUser user id).Calls S :=
  Prog.Calls.bind (calls_findById id) fun _ => Prog.Calls.bind calls_refuseIf fun _ => trivial

end calls

theorem correctOutcome_calls (eventId : Id) (outcome : PaymentEventOutcome) (notify : Bool) :
    (correctOutcome eventId outcome notify).Calls fun c => c.ofWebhook = true := by
  refine Prog.Calls.bind (Prog.calls_perform rfl) fun _ => ?_
  cases notify with
  | false => trivial
  | true => exact Prog.Calls.bind calls_sideEffect fun _ => trivial

theorem afterSettlement_calls (order : OrderDocument) (eventId : Id) :
    (afterSettlement order eventId).Calls fun c => c.ofWebhook = true := by
  have corrected := correctOutcome_calls eventId .outOfSequence true
  intro reached
  cases reached with
  | false => exact corrected
  | true =>
      refine ⟨rfl, fun r => ?_⟩
      cases r with
      | error e => exact corrected
      | ok _ =>
          intro answered
          cases answered with
          | false => exact corrected
          | true =>
              intro notified
              cases notified with
              | false => exact corrected
              | true => trivial

theorem handleWebhook_calls (gateway : PaymentGateway) (dto : PaymentWebhook) (signed : Bool) :
    (handleWebhook gateway dto signed).Calls fun c => c.ofWebhook = true := by
  cases signed with
  | false => exact Prog.Calls.bind (Prog.calls_attempt rfl) fun _ => trivial
  | true =>
      refine Prog.Calls.bind (Prog.calls_find _) fun found => ?_
      refine Prog.Calls.bind calls_require fun order => ?_
      refine Prog.Calls.bind (Prog.calls_attempt rfl) fun r => ?_
      cases r with
      | error e => cases e <;> trivial
      | ok eventId =>
          dsimp only
          split_ifs
          · exact correctOutcome_calls _ _ _
          · exact correctOutcome_calls _ _ _
          · refine Prog.Calls.bind (Prog.calls_attempt rfl) fun r => ?_
            cases r with
            | ok _ => exact afterSettlement_calls _ _
            | error e => exact correctOutcome_calls _ _ _

theorem races_calls (cfg : Settings) {q : Request} (hq : q.races = true) :
    (q.handler cfg).Calls fun c => c.races = true := by
  cases q with
  | webhook gateway dto signed =>
      refine (handleWebhook_calls gateway dto signed).mono fun c hc => ?_
      cases c <;> first | rfl | cases hc
  | timeout job =>
      have finish : (Handler.perform (.finishJob job) >>= fun _ => (pure .done : Handler Answer)).Calls
          fun c => c.races = true := Prog.Calls.bind (Prog.calls_perform rfl) fun _ => trivial
      refine Prog.Calls.bind (Prog.calls_find _) fun found => ?_
      cases found with
      | none => exact finish
      | some o =>
          dsimp only
          split_ifs
          · exact Prog.Calls.bind (Prog.calls_attempt rfl) fun _ => finish
          · exact finish
  | cancel user id reason =>
      refine Prog.Calls.bind (calls_findOneForUser user id) fun order => ?_
      refine Prog.Calls.bind calls_refuseIf fun _ => Prog.Calls.bind calls_refuseIf fun _ => ?_
      refine Prog.Calls.bind calls_refuseIf fun _ => ?_
      refine Prog.Calls.bind (Prog.calls_perform rfl) fun updated => ?_
      split_ifs
      · refine Prog.Calls.bind (calls_enqueue rfl) fun _ => ?_
        exact Prog.Calls.bind calls_sideEffect fun _ => trivial
      · exact Prog.Calls.bind calls_sideEffect fun _ => trivial
      · exact Prog.Calls.bind (calls_enqueue rfl) fun _ => trivial
      · trivial
  | accept user id =>
      refine Prog.Calls.bind (calls_findOneForUser user id) fun order => ?_
      refine Prog.Calls.bind calls_refuseIf fun _ => Prog.Calls.bind calls_refuseIf fun _ => ?_
      refine Prog.Calls.bind calls_refuseIf fun _ => ?_
      refine Prog.Calls.bind (Prog.calls_perform rfl) fun resumed => ?_
      exact Prog.Calls.bind (calls_enqueue rfl) fun _ => trivial
  | _ => cases hq

/-! ### One departure -/

/-- A racing call takes the order out of payment. -/
theorem OrderStep.race {cfg : Settings} {time : ℕ → Instant} {c : Call} {o o' : Order}
    (h : OrderStep cfg time c o o') (hc : c.races = true) :
    o'.status ≠ .pendingPayment ∧ ∃ state, c.decides = some state := by
  cases h with
  | settle => exact ⟨by simp, _, rfl⟩
  | timeOut => exact ⟨by simp, _, rfl⟩
  | cancel => exact ⟨by simp, _, rfl⟩
  | accept => exact ⟨by simp, _, rfl⟩
  | _ => cases hc

/-- The order has departed at most once, and not at all while it awaits payment. -/
def DepartedOnce (id : Id) (log : List (Event Doc Call.Reply)) (s : Db) : Prop :=
  (log.filter (departs id)).length ≤ 1 ∧
    ∀ o, s.order id = some o → o.status = .pendingPayment → log.filter (departs id) = []

section commit
variable {cfg : Settings} {since : Db} {ev : Event Doc Call.Reply} {id i : Id}

/-- A racing commit on the order of its call is a departure, or comes after one. -/
theorem race_cases (hev : ev.Sound (machine cfg)) (hholds : (evolution cfg since).Holds ev)
    (hraces : ev.label.races = true) (id : Id) :
    (ev.label.subject ≠ some id ∧ ev.after.order id = ev.before.order id) ∨
    ∃ o', ev.label.subject = some id ∧ ev.after.order id = some o' ∧
      o'.status ≠ .pendingPayment ∧ ∃ state, ev.label.decides = some state := by
  rcases order_cases hev hholds.older hholds.pre id with hsame |
    ⟨o, o', hid, -, -, ho', -, hstep⟩ | ⟨fields, userId, hlabel, -, -⟩
  · exact Or.inl hsame
  · obtain ⟨hstatus, hdecides⟩ := hstep.race hraces
    exact Or.inr ⟨o', hid, ho', hstatus, hdecides⟩
  · rw [hlabel] at hraces
    cases hraces

/-- A commit that departs is made for the order, by a call that may. -/
theorem departs_spec (hev : ev.Sound (machine cfg)) (hholds : (evolution cfg since).Holds ev)
    (hraces : ev.label.races = true) (h : departs id ev = true) :
    ev.label.subject = some id ∧ (∃ state, ev.label.decides = some state) ∧
      ∃ o, ev.before.order id = some o ∧ o.status = .pendingPayment := by
  obtain ⟨hb, ha⟩ := Bool.and_eq_true_iff.mp h
  obtain ⟨o, ho, hpending⟩ := (Option.any_eq_true _ _).mp hb
  obtain ⟨o', ho', hleft⟩ := (Option.any_eq_true _ _).mp ha
  refine ⟨?_, ?_, o, ho, of_decide_eq_true hpending⟩ <;>
    rcases race_cases hev hholds hraces id with ⟨-, hsame⟩ | ⟨-, hid, -, -, hdecides⟩
  · cases ho'.symm.trans (hsame.trans ho)
    exact absurd (of_decide_eq_true hpending) (of_decide_eq_true hleft)
  · exact hid
  · cases ho'.symm.trans (hsame.trans ho)
    exact absurd (of_decide_eq_true hpending) (of_decide_eq_true hleft)
  · exact hdecides

theorem commit_departedOnce (hev : ev.Sound (machine cfg)) (hholds : (evolution cfg since).Holds ev)
    (hraces : ev.label.races = true) {log : List (Event Doc Call.Reply)}
    (h : DepartedOnce id log ev.before) : DepartedOnce id (ev :: log) ev.after := by
  by_cases hdeparts : departs id ev = true
  · obtain ⟨-, -, o, ho, hpending⟩ := departs_spec hev hholds hraces hdeparts
    have hfirst := h.2 o ho hpending
    refine ⟨by simp [hdeparts, hfirst], fun o' ho' hpending' => ?_⟩
    have hleft := (Bool.and_eq_true_iff.mp hdeparts).2
    simp [ho', hpending'] at hleft
  · rw [DepartedOnce, List.filter_cons_of_neg hdeparts]
    refine ⟨h.1, fun o ho hpending => ?_⟩
    rcases race_cases hev hholds hraces id with ⟨-, hsame⟩ | ⟨o', -, ho', hleft, -⟩
    · exact h.2 o (hsame.symm.trans ho) hpending
    · cases ho'.symm.trans ho
      exact absurd hpending hleft

/-! ### The invoice goes with the winner -/

/-- While the order awaits payment its invoice is open, and every departure so
far has left the invoice as its call decides. -/
structure InvoiceDecided (id i : Id) (log : List (Event Doc Call.Reply)) (s : Db) : Prop where
  awaits : ∀ o, s.order id = some o → o.status = .pendingPayment →
    ∃ x, s.invoice i = some x ∧ x.orderId = id ∧ x.state = .issued
  decided : ∀ ev ∈ log, departs id ev = true → ∃ x, ev.after.invoice i = some x ∧
    ev.label.decides = some x.state

/-- An invoice that a racing commit changes belongs to the order of its call. -/
theorem race_invoice (hev : ev.Sound (machine cfg)) (hholds : (evolution cfg since).Holds ev)
    (hraces : ev.label.races = true) {x : Invoice} (hx : ev.before.invoice i = some x) :
    ev.after.invoice i = some x ∨
      ∃ x', ev.after.invoice i = some x' ∧ ev.label.subject = some x.orderId ∧
        ev.label.decides = some x'.state := by
  rcases invoice_cases hev hholds.older i with hsame | ⟨y, x', -, hy, hx', hstep⟩ |
    ⟨_, _, _, _, _, _, hlabel, -⟩
  · exact Or.inl (hsame.trans hx)
  · cases hy.symm.trans hx
    refine Or.inr ⟨x', hx', ?_⟩
    generalize ev.label = c at hstep hraces
    cases hstep with
    | settle horder => exact ⟨congrArg some horder.symm, rfl⟩
    | settleInvoice => cases hraces
    | cancel horder => exact ⟨congrArg some horder.symm, rfl⟩
  · rw [hlabel] at hraces
    cases hraces

/-- A departure leaves the order's open invoice as its call decides. -/
theorem departs_invoice (hev : ev.Sound (machine cfg)) (hholds : (evolution cfg since).Holds ev)
    (hraces : ev.label.races = true) (hvoid : VoidCancelled ev.base)
    (hbilled : ∀ o, since.order id = some o → o.invoiceId = some i)
    (hknown : ∃ o, since.order id = some o) (hdeparts : departs id ev = true) {x : Invoice}
    (hx : ev.before.invoice i = some x) (horder : x.orderId = id) (hissued : x.state = .issued) :
    ∃ x', ev.after.invoice i = some x' ∧ ev.label.decides = some x'.state := by
  obtain ⟨hid, ⟨state, hdecides⟩, -⟩ := departs_spec hev hholds hraces hdeparts
  rcases race_invoice hev hholds hraces hx with hsame | ⟨x', hx', -, hdecided⟩
  · refine ⟨x, hsame, ?_⟩
    cases hlabel : ev.label with
    | settle order eventId transactionId =>
        obtain ⟨j, y, hy, hyorder, hsettled⟩ := settle_commit hev hholds hvoid hlabel
        rw [hlabel] at hid
        have hij := invoice_unique ev.after.unique hy hsame
          (hyorder.trans ((Option.some.inj hid).trans horder.symm))
        subst hij
        cases hy.symm.trans hsame
        exact absurd (hsettled.symm.trans hissued) (by simp)
    | cancel order actor reason =>
        have hcurrent : ev.label.invoiceCurrent ev.before = true := by
          have hpre := hholds.pre
          rw [hlabel] at hid hpre ⊢
          cases hid
          obtain ⟨o₀, ho₀⟩ := hknown
          obtain ⟨o, ho, hi⟩ := hholds.inv_before.1.orderOf i x hx
          rw [horder] at ho
          have hread := ((hpre.1 order rfl).later o₀ ho₀).billed i (hbilled o₀ ho₀)
          simp [Call.invoiceCurrent, ho, hi, show order.invoiceId = some i from hread]
        rw [hlabel] at hid
        exact absurd hissued (cancel_closes hev hholds hcurrent hlabel hsame hx
          (horder.trans (Option.some.inj hid).symm))
    | timeOut => exact congrArg some hissued.symm
    | accept => exact congrArg some hissued.symm
    | _ =>
        rw [hlabel] at hdecides
        cases hdecides
  · exact ⟨x', hx', hdecided⟩

theorem commit_invoiceDecided (hev : ev.Sound (machine cfg))
    (hholds : (evolution cfg since).Holds ev) (hraces : ev.label.races = true)
    (hvoid : VoidCancelled ev.base) (hbilled : ∀ o, since.order id = some o → o.invoiceId = some i)
    (hknown : ∃ o, since.order id = some o) {log : List (Event Doc Call.Reply)}
    (h : InvoiceDecided id i log ev.before) : InvoiceDecided id i (ev :: log) ev.after := by
  refine ⟨fun o ho hpending => ?_, fun ev' hev' hdeparts => ?_⟩
  · rcases race_cases hev hholds hraces id with ⟨hid, hsame⟩ | ⟨o', -, ho', hleft, -⟩
    · obtain ⟨x, hx, horder, hissued⟩ := h.1 o (hsame.symm.trans ho) hpending
      rcases race_invoice hev hholds hraces hx with hsame' | ⟨-, -, hsubject, -⟩
      · exact ⟨x, hsame', horder, hissued⟩
      · exact absurd (hsubject.trans (congrArg some horder)) hid
    · cases ho'.symm.trans ho
      exact absurd hpending hleft
  · rcases List.mem_cons.mp hev' with rfl | hold
    · obtain ⟨-, -, o, ho, hpending⟩ := departs_spec hev hholds hraces hdeparts
      obtain ⟨x, hx, horder, hissued⟩ := h.1 o ho hpending
      exact departs_invoice hev hholds hraces hvoid hbilled hknown hdeparts hx horder hissued
    · exact h.2 ev' hold hdeparts

/-- A commit that settles finds its order awaiting payment and routes it. -/
theorem settle_routes (hev : ev.Sound (machine cfg)) (hholds : (evolution cfg since).Holds ev)
    {order : OrderDocument} {eventId : Id} {transactionId : ℕ}
    (hlabel : ev.label = .settle order eventId transactionId) :
    ∃ o o', ev.before.order order.id = some o ∧ o.status = .pendingPayment ∧
      ev.after.order order.id = some o' ∧ o'.status = .routedToTransport := by
  obtain ⟨o, o', -, ho, ho', -, hstep⟩ := subject_step hev hholds.older hholds.pre
    (by rw [hlabel]; rfl)
  rw [hlabel] at hstep
  have hpending : o.status = .pendingPayment := by
    cases hstep
    assumption
  have hrouted : o'.status = .routedToTransport := by
    cases hstep
    exact Order.moved_status _ _ _ _ _ _
  exact ⟨o, o', ho, hpending, ho', hrouted⟩

/-- A racing commit of a webhook takes its order out of payment, or leaves every
order and invoice alone. -/
theorem webhook_commit (hev : ev.Sound (machine cfg)) (hholds : (evolution cfg since).Holds ev)
    (hwebhook : ev.label.ofWebhook = true) :
    (∃ order eventId transactionId, ev.label = .settle order eventId transactionId ∧
      departs order.id ev = true) ∨
    (∀ id, ev.after.order id = ev.before.order id) ∧
      ∀ i, ev.after.invoice i = ev.before.invoice i := by
  by_cases hsettle : ∃ order eventId transactionId, ev.label = .settle order eventId transactionId
  · obtain ⟨order, eventId, transactionId, hlabel⟩ := hsettle
    obtain ⟨o, o', ho, hpending, ho', hrouted⟩ := settle_routes hev hholds hlabel
    refine Or.inl ⟨order, eventId, transactionId, hlabel, ?_⟩
    simp [departs, ho, ho', hpending, hrouted]
  have htouches : ∀ id i, ev.label.touches (.order id) = false ∧
      ev.label.touches (.invoice i) = false := by
    intro id i
    cases hlabel : ev.label with
    | settle => exact absurd ⟨_, _, _, hlabel⟩ hsettle
    | recordInvalid | recordPaid | markOutcome | unschedule => exact ⟨rfl, rfl⟩
    | _ =>
        rw [hlabel] at hwebhook
        cases hwebhook
  refine Or.inr ⟨fun id => ?_, fun i => ?_⟩
  · exact hev.unwritten hholds.older (Call.body_frame hev.ran (htouches id 0).1)
  · exact hev.unwritten hholds.older (Call.body_frame hev.ran (htouches 0 i).2)

/-! ### A transaction settles once -/

/-- Every transaction that settled is stored as an event of an order past payment. -/
def SettledOnce (log : List (Event Doc Call.Reply)) (s : Db) : Prop :=
  (settledTransactions log).Nodup ∧ ∀ t ∈ settledTransactions log, ∃ e x o,
    s.paymentEvent e = some x ∧ x.gatewayTransactionId = t ∧ s.order x.orderId = some o ∧
      (o.status ∈ pastPayment ∨ o.status = .cancelled)

/-- An order past payment does not come back to it. -/
theorem OrderStep.staysPaid {time : ℕ → Instant} {c : Call} {o o' : Order}
    (h : OrderStep cfg time c o o') (hroute : ∀ order source transportCompanyId deliveryFee actor,
      c = .route order source transportCompanyId deliveryFee actor →
        source = .approved ∨ source = .awaitingRouting)
    (ho : o.status ∈ CiroFuel.pastPayment ∨ o.status = .cancelled) :
    o'.status ∈ CiroFuel.pastPayment ∨ o'.status = .cancelled := by
  cases h with
  | route hstatus =>
      rcases hroute _ _ _ _ _ rfl with rfl | rfl <;> simp [hstatus, CiroFuel.pastPayment] at ho
  | reassign => exact ho
  | attempt => exact ho
  | confirmInvoice => exact ho
  | replaceInvoice => exact ho
  | depart hmatched hstage hstatus => simp [CiroFuel.pastPayment]
  | cancel hstatus => simp
  | forceComplete hstatus => simp [CiroFuel.pastPayment]
  | _ hstatus => simp [hstatus, CiroFuel.pastPayment] at ho ⊢

theorem transaction_unique {s : Db} {e e' : Id} {x x' : PaymentEvent}
    (hx : s.paymentEvent e = some x) (hx' : s.paymentEvent e' = some x')
    (h : x.gatewayTransactionId = x'.gatewayTransactionId) : e = e' := by
  have hentry : ∀ y : PaymentEvent, IndexEntry.gatewayTransactionId y.gatewayTransactionId ∈
      Indexed.entries (D := Doc) (Key.paymentEvent e) y := fun y => List.mem_singleton.mpr rfl
  refine Key.paymentEvent.inj (s.unique _ _ x x' _ hx hx' (hentry x) ?_)
  rw [h]
  exact List.mem_singleton.mpr rfl

theorem commit_settledOnce (hev : ev.Sound (machine cfg)) (hholds : (evolution cfg since).Holds ev)
    {log : List (Event Doc Call.Reply)} (h : SettledOnce log ev.before) :
    SettledOnce (ev :: log) ev.after := by
  have kept : ∀ t ∈ settledTransactions log, ∃ e x o, ev.after.paymentEvent e = some x ∧
      x.gatewayTransactionId = t ∧ ev.after.order x.orderId = some o ∧
        (o.status ∈ pastPayment ∨ o.status = .cancelled) := by
    intro t ht
    obtain ⟨e, x, o, hx, htransaction, ho, hstatus⟩ := h.2 t ht
    obtain ⟨x', hx', htransaction', horder⟩ := hholds.before_after.events e x hx
    refine ⟨e, x', ?_⟩
    rw [horder]
    rcases order_cases hev hholds.older hholds.pre x.orderId with ⟨-, hsame⟩ |
      ⟨o₁, o', hid, -, ho₁, ho', -, hstep⟩ | ⟨fields, userId, -, hnone, -⟩
    · exact ⟨o, hx', htransaction'.trans htransaction, hsame.trans ho, hstatus⟩
    · cases ho₁.symm.trans ho
      refine ⟨o', hx', htransaction'.trans htransaction, ho', hstep.staysPaid ?_ hstatus⟩
      intro order source transportCompanyId deliveryFee actor hlabel
      have hchecked := hholds.pre.2
      rw [hlabel] at hchecked
      exact hchecked
    · exact absurd (hnone.symm.trans ho) (by simp)
  by_cases hsettle : ∃ order eventId transactionId, ev.label = .settle order eventId transactionId
  · obtain ⟨order, eventId, transactionId, hlabel⟩ := hsettle
    have hcons : settledTransactions (ev :: log) = transactionId :: settledTransactions log := by
      simp [settledTransactions, hlabel]
    have hchecked := hholds.pre.2
    rw [hlabel] at hchecked
    obtain ⟨x, hx, htransaction, horder⟩ := hchecked
    obtain ⟨x₁, hx₁, htransaction₁, horder₁⟩ := hholds.base_before.events _ x hx
    obtain ⟨o, o', ho, hpending, ho', hrouted⟩ := settle_routes hev hholds hlabel
    rw [SettledOnce, hcons]
    refine ⟨List.nodup_cons.mpr ⟨fun hold => ?_, h.1⟩, fun t ht => ?_⟩
    · -- The same transaction would be of the same order, which had left payment.
      obtain ⟨e, y, o₁, hy, hytransaction, ho₁, hstatus⟩ := h.2 _ hold
      have he := transaction_unique hy hx₁
        (hytransaction.trans (htransaction₁.trans htransaction).symm)
      subst he
      cases hy.symm.trans hx₁
      rw [horder₁, horder] at ho₁
      cases ho₁.symm.trans ho
      simp [hpending, pastPayment] at hstatus
    · rcases List.mem_cons.mp ht with rfl | hold
      · obtain ⟨x₂, hx₂, htransaction₂, horder₂⟩ := hholds.before_after.events _ x₁ hx₁
        refine ⟨eventId, x₂, o', hx₂, (htransaction₂.trans htransaction₁).trans htransaction, ?_,
          Or.inl (by simp [hrouted, pastPayment])⟩
        rw [horder₂, horder₁, horder]
        exact ho'
      · exact kept t hold
  · have hcons : settledTransactions (ev :: log) = settledTransactions log := by
      unfold settledTransactions
      rw [List.filterMap_cons_none]
      split
      · rename_i hlabel
        exact absurd ⟨_, _, _, hlabel⟩ hsettle
      · rfl
    rw [SettledOnce, hcons]
    exact ⟨h.1, kept⟩

end commit

/-- From any state reached, under any interleaving of webhooks, timeouts,
cancellations and acceptances: an order departs from payment at most once, by one
of the calls that may; an invoice that was open is left as that call decides;
a commit of a webhook that takes no order out of payment leaves every order and
invoice alone; and no transaction settles twice, counting from the beginning. -/
theorem races_safe {cfg : Settings} {log₀ log : List (Event Doc Call.Reply)}
    {s₀ s : Sys Doc Call.Reply Refusal Answer}
    (h₀ : Run (machine cfg) Store.empty (fun _ => True) log₀ s₀)
    (h : Run ((machine cfg).only Request.races) s₀.store (fun _ => True) log s) (id : Id) :
    (log.filter (departs id)).length ≤ 1 ∧
    (∀ ev ∈ log, departs id ev = true →
      ev.label.subject = some id ∧ ∃ state, ev.label.decides = some state) ∧
    (∀ i x, s₀.store.invoice i = some x → x.orderId = id → x.state = .issued →
      ∀ ev ∈ log, departs id ev = true →
        ∃ x', ev.after.invoice i = some x' ∧ ev.label.decides = some x'.state) ∧
    (∀ ev ∈ log, ev.label.ofWebhook = true →
      (∃ order eventId transactionId, ev.label = .settle order eventId transactionId ∧
        departs order.id ev = true) ∨
      (∀ id, ev.after.order id = ev.before.order id) ∧
        ∀ i, ev.after.invoice i = ev.before.invoice i) ∧
    (settledTransactions (log ++ log₀)).Nodup := by
  obtain ⟨hstart, hrun₀⟩ := disciplined consistent_empty h₀
  have hvoid₀ : VoidCancelled s₀.store := (db_invariant (I := VoidCancelled) consistent_empty
    (fun i x hx => by cases hx)
    (fun ev hev _ hholds _ hbefore => commit_voidCancelled hev hholds hbefore) h₀).1
  have hraces : Run (machine cfg) s₀.store (fun ev => ev.label.races = true) log s := by
    have hcalls : Run ((machine cfg).only Request.races) s₀.store
        (fun ev => True ∧ ev.label.races = true) log s := by
      refine (h.calls (S := fun c => c.races = true) fun q d c hq => ?_).2
      exact races_calls cfg (Bool.and_eq_true_iff.mp hq).1
    exact hcalls.of_only.weaken fun _ _ hP => hP.2
  obtain ⟨-, hrun⟩ := db_invariant (I := VoidCancelled) hstart.1 hvoid₀
    (fun ev hev _ hholds _ hbefore => commit_voidCancelled hev hholds hbefore) hraces
  refine ⟨?_, fun ev hev hdeparts => ?_, fun i x hx horder hissued => ?_, fun ev hev hwebhook => ?_, ?_⟩
  · refine (hrun.logged (J := DepartedOnce id) ⟨by simp, fun _ _ _ => rfl⟩ ?_).1
    exact fun log ev hev hP hlog => commit_departedOnce hev hP.2.1 hP.1 hlog
  · obtain ⟨hsound, hP⟩ := hrun.mem hev
    obtain ⟨hid, hdecides, -⟩ := departs_spec hsound hP.2.1 hP.1 hdeparts
    exact ⟨hid, hdecides⟩
  · obtain ⟨o, ho, hi⟩ := hstart.1.orderOf i x hx
    rw [horder] at ho
    have hbilled : ∀ o', s₀.store.order id = some o' → o'.invoiceId = some i := by
      intro o' ho'
      cases ho'.symm.trans ho
      exact hi
    refine (hrun.logged (J := InvoiceDecided id i) ⟨fun _ _ _ => ⟨x, hx, horder, hissued⟩,
      fun _ hmem => by cases hmem⟩ ?_).2
    exact fun log ev hev hP hlog =>
      commit_invoiceDecided hev hP.2.1 hP.1 hP.2.2.1 hbilled ⟨o, ho⟩ hlog
  · obtain ⟨hsound, hP⟩ := hrun.mem hev
    exact webhook_commit hsound hP.2.1 hwebhook
  · have hsettled₀ : SettledOnce log₀ s₀.store :=
      hrun₀.logged ⟨List.nodup_nil, fun t ht => by cases ht⟩
        fun log ev hev hP hlog => commit_settledOnce hev hP.2 hlog
    refine (hrun.logged (J := fun log s => SettledOnce (log ++ log₀) s) hsettled₀ ?_).1
    exact fun log ev hev hP hlog => commit_settledOnce hev hP.2.1 hlog

namespace Sample

/-- A cancellation reads the order awaiting payment; the payment arrives first. -/
def paidBeforeCancel : List (Act Request) :=
  [Act.arrive (Request.cancel client 100 none), .step 0] ++
    serve (.webhook .sadad ⟨7, 100, 4945 / 2, .sar, true⟩ true) 1 10 300 ++ [Act.step 0, .step 0]

end Sample

theorem races_safe_paidBeforeCancel :
    ∃ log₀ s₀ log s ev x, Run (machine Sample.cfg) Store.empty (fun _ => True) log₀ s₀ ∧
      Run ((machine Sample.cfg).only Request.races) s₀.store (fun _ => True) log s ∧
      log.filter (departs 100) = [ev] ∧ ev.after.invoice 200 = some x ∧ x.state = .settled ∧
      (settledTransactions (log ++ log₀)).Nodup := by
  obtain ⟨log₀, s₀, h₀, htest₀⟩ := exists_run (machine Sample.cfg) Store.empty (fun _ => True)
    Sample.twoWindows
    (fun _ s => ((s.store.invoice 200).any fun x => x.orderId = 100 && x.state = .issued) &&
      (play ((machine Sample.cfg).only Request.races) Sample.paidBeforeCancel []
        { store := s.store }).any fun r => r.1.all (fun _ => decide True) &&
          r.1.any fun ev => departs 100 ev && ev.label.decides = some .settled) (by decide +kernel)
  obtain ⟨hinvoice, hplay⟩ := Bool.and_eq_true_iff.mp htest₀
  obtain ⟨x, hx, hopen⟩ := (Option.any_eq_true _ _).mp hinvoice
  simp only [Bool.and_eq_true, decide_eq_true_eq] at hopen
  obtain ⟨log, s, h, htest⟩ := exists_run ((machine Sample.cfg).only Request.races) s₀.store
    (fun _ => True) Sample.paidBeforeCancel
    (fun log _ => log.any fun ev => departs 100 ev && ev.label.decides = some .settled) hplay
  obtain ⟨ev, hev, hdeparts⟩ := List.any_eq_true.mp htest
  simp only [Bool.and_eq_true, decide_eq_true_eq] at hdeparts
  obtain ⟨hlength, -, hinvoices, -, hnodup⟩ := races_safe h₀ h 100
  obtain ⟨x', hx', hdecides⟩ := hinvoices 200 x hx hopen.1 hopen.2 ev hev hdeparts.1
  refine ⟨log₀, s₀, log, s, ev, x', h₀, h, ?_, hx', ?_, hnodup⟩
  · have hmem : ev ∈ log.filter (departs 100) := List.mem_filter.mpr ⟨hev, hdeparts.1⟩
    obtain ⟨ev', hsingle⟩ := List.length_eq_one_iff.mp
      (le_antisymm hlength (List.length_pos_of_mem hmem))
    rw [hsingle] at hmem ⊢
    rw [List.mem_singleton.mp hmem]
  · exact (Option.some.inj (hdecides.symm.trans hdeparts.2))

end CiroFuel
