import CiroFuel.Billed
import CiroFuel.Returning

/-!
# Delivering a webhook

The gateway repeats a webhook until one handling of it completes. The handler
tells a repetition by the recorded event, which it inserts with a tentative
outcome before it settles anything: whoever records an event with the
transaction first, a handling that stops there or a caller without a valid
signature, makes every later delivery a duplicate.
-/
namespace CiroFuel
open Snapshot Tx

/-- A recorded event carries the transaction. -/
def Seen (d : Docs Doc) (transactionId : ℕ) : Prop :=
  ∃ (e : Id) (x : PaymentEvent), d.lookup (Key.paymentEvent e) = some x ∧
    x.gatewayTransactionId = transactionId

/-- The stores differ in one event, which is new. -/
structure Recorded (s : Db) (e : Id) (x : PaymentEvent) (s' : Db) : Prop where
  absent : s.paymentEvent e = none
  present : s'.paymentEvent e = some x
  others : ∀ k, k ≠ Key.paymentEvent e → s'.find k = s.find k

/-! ### The attempts -/

section attempts
variable {cfg : Settings} {env : Env} {s s' : Db} {gateway : PaymentGateway} {dto : PaymentWebhook}
variable {order : OrderDocument}

theorem createPaymentEvent_run (event : PaymentEvent) (v : View Doc) :
    (createPaymentEvent event).run env v =
      if (v.find (Key.paymentEvent (env.id v.drawn))).isSome then .error .duplicateKey
      else if v.docs.fits (Key.paymentEvent (env.id v.drawn)) event then
        .ok (env.id v.drawn, View.put { v with drawn := v.drawn + 1 }
          (Key.paymentEvent (env.id v.drawn)) event)
      else .error .duplicateKey := by
  simp only [createPaymentEvent, run_bind, freshId, Tx.insert, run, View.find]
  by_cases htaken : (v.docs.lookup (Key.paymentEvent (env.id v.drawn))).isSome = true
  · simp [htaken, run]
  · by_cases hfits : v.docs.fits (Key.paymentEvent (env.id v.drawn)) event = true
    · simp [htaken, hfits, run, Pure.pure]
    · simp [htaken, hfits, run]

theorem attempt_recordPaid (hunseen : ¬ Seen s.docs dto.transactionId) (hfresh : env.Fresh s.docs) :
    ∃ (e : Id) (s' : Db),
      (machine cfg).attempt (.recordPaid gateway dto order) env s = .ok (e, s') ∧
        Recorded s e (dto.paidEvent gateway order) s' := by
  have hnone : s.docs.lookup (Key.paymentEvent (env.id 0)) = none := (hfresh 0).2.2
  have hfits : s.docs.fits (Key.paymentEvent (env.id 0)) (dto.paidEvent gateway order) = true :=
    event_fits fun e x hx htransaction => hunseen ⟨e, x, hx, htransaction⟩
  have hrun : ((machine cfg).body (.recordPaid gateway dto order)).run env (View.start s.docs) =
      .ok (env.id 0, View.put { View.start s.docs with drawn := 1 }
        (Key.paymentEvent (env.id 0)) (dto.paidEvent gateway order)) := by
    refine (createPaymentEvent_run (dto.paidEvent gateway order) _).trans ?_
    exact (if_neg (by simp [View.find, View.start, hnone])).trans (if_pos hfits)
  obtain ⟨s', hattempt, hsame⟩ := Machine.attempt_ok hrun
  refine ⟨_, s', hattempt, hnone, (hsame _).trans (View.find_put_self _ _ _), fun k hk => ?_⟩
  exact (hsame k).trans (View.find_put_ne _ _ hk)

theorem attempt_recordPaid_seen (hseen : Seen s.docs dto.transactionId) :
    (machine cfg).attempt (.recordPaid gateway dto order) env s = .error .duplicateKey := by
  obtain ⟨e, x, hx, htransaction⟩ := hseen
  refine Machine.attempt_error ((createPaymentEvent_run (dto.paidEvent gateway order) _).trans ?_)
  split_ifs with htaken hfits
  · rfl
  · -- The index holds the transaction under the key of the event already recorded.
    have hkey := Docs.fits_sound (i := .gatewayTransactionId dto.transactionId) hfits hx
      (List.mem_singleton.mpr rfl) (by rw [← htransaction]; exact List.mem_singleton.mpr rfl)
    rw [hkey] at htaken
    exact absurd (Option.isSome_iff_exists.mpr ⟨x, hx⟩) htaken
  · rfl

theorem attempt_markOutcome {s₁ : Db} {e : Id} {x : PaymentEvent} (h : Recorded s e x s₁)
    (outcome : PaymentEventOutcome) :
    ∃ (r : Bool) (s₂ : Db),
      (machine cfg).attempt (.markOutcome e outcome) env s₁ = .ok (r, s₂) ∧
        Recorded s e { x with outcome := outcome } s₂ := by
  have hfit : ∀ y, s₁.docs.lookup (Key.paymentEvent e) = some y →
      s₁.docs.fits (Key.paymentEvent e) y = true := fun y hy => Docs.fits_stored s₁.unique hy
  obtain ⟨r, v, hran⟩ : Returns env (markOutcome e outcome) (View.start s₁.docs) :=
    Returns.bind (returns_findOneAndUpdate fun y hy _ => hfit y hy) fun _ _ _ => returns_pure _
  obtain ⟨s₂, hattempt, hsame⟩ :=
    Machine.attempt_ok (M := machine cfg) (l := .markOutcome e outcome) hran
  refine ⟨r, s₂, hattempt, h.absent, ?_, fun k hk => ?_⟩
  · rcases updateOne_ok hran with ⟨y, hy, -, -, -, rfl⟩ | ⟨-, -, hnone⟩
    · cases h.present.symm.trans hy
      exact (hsame _).trans (View.find_put_self _ _ _)
    · exact absurd (hnone x h.present) (by simp)
  · have hframe : v.find k = s₁.find k :=
      (Confined.updateOne (S := fun k => k = Key.paymentEvent e) rfl).find_eq hran hk
    exact (hsame k).trans (hframe.trans (h.others k hk))

/-- The order awaits payment and has an invoice. -/
def settleable (d : Docs Doc) (id : Id) : Bool :=
  (d.lookup (Key.order id)).any (fun o : Order => o.status = .pendingPayment) &&
    (findInvoiceOf d id).isSome

theorem findInvoiceOf_isSome {d : Docs Doc} {id : Id} :
    (findInvoiceOf d id).isSome = true ↔ ¬ Unbilled d id := by
  constructor
  · intro hsome hunbilled
    obtain ⟨x, hx⟩ := Option.isSome_iff_exists.mp hsome
    obtain ⟨hlookup, horder⟩ := findInvoiceOf_some hx
    exact hunbilled _ _ hlookup horder
  · intro hbilled
    by_contra hnone
    exact hbilled fun i x hx =>
      findInvoiceOf_none (Option.not_isSome_iff_eq_none.mp hnone) hx

theorem Recorded.settleable {e : Id} {x : PaymentEvent} (h : Recorded s e x s') (id : Id) :
    settleable s'.docs id = settleable s.docs id := by
  have horder : s'.docs.lookup (Key.order id) = s.docs.lookup (Key.order id) := h.others _ (by simp)
  have hbilled : (findInvoiceOf s'.docs id).isSome = (findInvoiceOf s.docs id).isSome := by
    rw [Bool.eq_iff_iff, findInvoiceOf_isSome, findInvoiceOf_isSome]
    refine not_congr ⟨fun hun => hun.congr fun i => ?_, fun hun => hun.congr fun i => ?_⟩
    · exact (h.others _ (by simp)).symm
    · exact h.others _ (by simp)
  rw [CiroFuel.settleable, CiroFuel.settleable, horder, hbilled]

/-- The order is paid by the event, and its invoice settled if it was issued. -/
structure PaidOff (id e : Id) (transactionId : ℕ) (s s' : Db) : Prop where
  order : ∃ (o : Order) (t : Instant), s.order id = some o ∧ o.status = .pendingPayment ∧
    s'.order id = some (o.moved .pendingPayment .routedToTransport systemActor
      { extraSet := [.paymentConfirmationId e], extraUnset := [.paymentDeadline] } t)
  invoice : ∃ (i : Id) (x : Invoice), s.invoice i = some x ∧ x.orderId = id ∧
    (∀ j, j ≠ i → s'.invoice j = s.invoice j) ∧
    (x.state ≠ .issued → s'.invoice i = some x) ∧
    (x.state = .issued → ∃ t, s'.invoice i = some (x.settled (some transactionId) t))
  events : ∀ e, s'.paymentEvent e = s.paymentEvent e

theorem attempt_settle {e : Id} {transactionId : ℕ} (hsettles : settleable s.docs order.id = true)
    (hfresh : ∀ n, s.find (Key.accountMovement (env.id n)) = none) :
    ∃ (r : OrderDocument) (s' : Db),
      (machine cfg).attempt (.settle order e transactionId) env s = .ok (r, s') ∧
        PaidOff order.id e transactionId s s' := by
  obtain ⟨hpending, hbilled⟩ := Bool.and_eq_true_iff.mp hsettles
  obtain ⟨o, ho, hstatus⟩ := (Option.any_eq_true _ _).mp hpending
  obtain ⟨r, v, hran⟩ : Returns env ((Call.settle order e transactionId).body cfg)
      (View.start s.docs) := returns_confirmPaid s.unique ho (of_decide_eq_true hstatus) hbilled hfresh
  obtain ⟨s', hattempt, hsame⟩ :=
    Machine.attempt_ok (M := machine cfg) (l := .settle order e transactionId) hran
  refine ⟨r, s', hattempt, ?_, ?_, fun e' => ?_⟩
  · obtain ⟨o', ho', hmove⟩ := Call.body_order hran rfl ho
    cases hmove
    exact ⟨o, _, ho, of_decide_eq_true hstatus, (hsame _).trans ho'⟩
  · obtain ⟨i, x, hx, horder, hchange⟩ := Call.settle_changes hran
    refine ⟨i, x, hx, horder, fun j hj => (hsame _).trans (hchange.others j hj),
      fun hne => (hsame _).trans (hchange.closed hne), fun hissued => ?_⟩
    obtain ⟨x', hx', n, rfl⟩ := hchange.issued hissued
    exact ⟨_, (hsame _).trans hx'⟩
  · exact (hsame _).trans (Call.body_frame (k := Key.paymentEvent e') hran rfl)

/-- Otherwise the transaction throws. -/
theorem attempt_settle_refused {e : Id} {transactionId : ℕ} {o : Order}
    (ho : s.order order.id = some o) (hnot : settleable s.docs order.id = false) :
    ∃ failure, (machine cfg).attempt (.settle order e transactionId) env s = .error failure := by
  cases hran : ((Call.settle order e transactionId).body cfg).run env (View.start s.docs) with
  | error failure => exact ⟨failure, Machine.attempt_error hran⟩
  | ok r =>
      obtain ⟨r, v⟩ := r
      obtain ⟨o', -, hmove⟩ := Call.body_order hran rfl ho
      obtain ⟨i, x, hx, horder, -⟩ := Call.settle_changes hran
      have hpending : o.status = .pendingPayment := by
        cases hmove
        assumption
      have ho' : s.docs.lookup (Key.order order.id) = some o := ho
      have hbilled := findInvoiceOf_eq s.unique hx horder
      simp [settleable, ho', hpending, hbilled] at hnot

/-- Taking the timeout off the queue changes neither orders, invoices nor events. -/
theorem attempt_unschedule (orderId : Id) :
    ∃ s', (machine cfg).attempt (.unschedule orderId) env s = .ok ((), s') ∧
      ∀ k, k ≠ Key.timeoutJob orderId → s'.find k = s.find k := by
  obtain ⟨r, v, hran⟩ : Returns env (cancelTimeout orderId) (View.start s.docs) :=
    returns_cancelTimeout orderId
  obtain ⟨s', hattempt, hsame⟩ :=
    Machine.attempt_ok (M := machine cfg) (l := .unschedule orderId) hran
  refine ⟨s', hattempt, fun k hk => (hsame k).trans ?_⟩
  exact (Confined.upsert (S := fun k => k = Key.timeoutJob orderId) rfl).find_eq hran hk

end attempts

/-! ### One handling -/

/-- What the handler does once it has recorded the event. -/
def afterRecorded (dto : PaymentWebhook) (order : OrderDocument) (e : Id) : Handler Answer := do
  if !dto.paid then
    correctOutcome e .outOfSequence false
  else if some dto.amount ≠ order.finalPrice || dto.currency ≠ .sar then
    correctOutcome e .amountMismatch true
  else
    match ← Handler.attempt (.settle order e dto.transactionId) with
    | .ok _ => afterSettlement order e
    | .error _ => correctOutcome e .outOfSequence true

theorem handleWebhook_signed (gateway : PaymentGateway) (dto : PaymentWebhook) :
    handleWebhook gateway dto true = (do
      let order ← Handler.require (.unknownOrderId dto.orderId)
        (← Prog.find (Key.order dto.orderId))
      match ← Handler.attempt (.recordPaid gateway dto (Order.withId order dto.orderId)) with
      | .error .duplicateKey => return .webhook true none
      | .error e => .fail e
      | .ok e => afterRecorded dto (Order.withId order dto.orderId) e) := by
  unfold handleWebhook
  rw [if_neg (by simp)]
  refine congrArg (Prog.find (Key.order dto.orderId) >>= ·) (funext fun found => ?_)
  refine congrArg (Handler.require (.unknownOrderId dto.orderId) found >>= ·) (funext fun order => ?_)
  refine congrArg (Handler.attempt _ >>= ·) (funext fun r => ?_)
  cases r with
  | error failure => cases failure <;> rfl
  | ok e =>
      unfold afterRecorded
      dsimp only
      split_ifs
      · rfl
      · rfl
      · refine congrArg (Handler.attempt _ >>= ·) (funext fun r => ?_)
        cases r <;> rfl

/-- The outcome that a signed webhook has earned when its handling is over. -/
def webhookOutcome (d : Docs Doc) (o : Order) (dto : PaymentWebhook) : PaymentEventOutcome :=
  if !dto.paid then .outOfSequence
  else if some dto.amount ≠ o.finalPrice || dto.currency ≠ .sar then .amountMismatch
  else if settleable d dto.orderId then .confirmed
  else .outOfSequence

/-- The number of steps in which a handling makes its changes: it reads the order,
records the event, and settles or corrects the outcome; a refused settlement comes
before the correction. -/
def handlingSteps (d : Docs Doc) (o : Order) (dto : PaymentWebhook) : ℕ :=
  if dto.paid && webhookOutcome d o dto = .outOfSequence then 4 else 3

/-- What a complete handling makes of a store without the event. -/
inductive Handled (gateway : PaymentGateway) (dto : PaymentWebhook) (o : Order) (s s' : Db) : Prop
  | corrected {e : Id} (houtcome : webhookOutcome s.docs o dto ≠ .confirmed)
      (hrecorded : Recorded s e { dto.paidEvent gateway (o.withId dto.orderId) with
        outcome := webhookOutcome s.docs o dto } s')
  | confirmed {e : Id} {s₁ : Db} (houtcome : webhookOutcome s.docs o dto = .confirmed)
      (hrecorded : Recorded s e (dto.paidEvent gateway (o.withId dto.orderId)) s₁)
      (hpaid : PaidOff dto.orderId e dto.transactionId s₁ s')

section handling
variable {cfg : Settings} {w : World} {s s' : Db} {gateway : PaymentGateway} {dto : PaymentWebhook}
variable {o : Order} {m n : ℕ}

theorem PaidOff.congr {id e : Id} {transactionId : ℕ} {s₁ s₂ s₃ : Db}
    (h : PaidOff id e transactionId s₁ s₂) {id' : Id}
    (hsame : ∀ k, k ≠ Key.timeoutJob id' → s₃.find k = s₂.find k) :
    PaidOff id e transactionId s₁ s₃ := by
  obtain ⟨o, t, ho, hstatus, ho'⟩ := h.order
  obtain ⟨i, x, hx, horder, hothers, hclosed, hissued⟩ := h.invoice
  refine ⟨⟨o, t, ho, hstatus, (hsame _ (by simp)).trans ho'⟩,
    ⟨i, x, hx, horder, fun j hj => (hsame _ (by simp)).trans (hothers j hj),
      fun hne => (hsame _ (by simp)).trans (hclosed hne), fun h => ?_⟩,
    fun e => (hsame _ (by simp)).trans (h.events e)⟩
  obtain ⟨t, hx'⟩ := hissued h
  exact ⟨t, (hsame _ (by simp)).trans hx'⟩

/-- The steps after the settlement leave it, when everything outside answers. -/
theorem stopped_afterSettlement {order : OrderDocument} {e : Id} (hanswer : ∀ n, w.answer n = true) :
    ∀ k, k ≠ Key.timeoutJob order.id →
      ((afterSettlement order e).stopped (machine cfg) w m n s).find k = s.find k := by
  intro k hk
  unfold afterSettlement
  match m with
  | 0 => rfl
  | 1 => rfl
  | m + 2 =>
      obtain ⟨s', hattempt, hsame⟩ : ∃ s', (machine cfg).attempt (.unschedule order.id)
          (w.env (n + 1)) s = .ok ((), s') ∧
          ∀ k, k ≠ Key.timeoutJob order.id → s'.find k = s.find k := attempt_unschedule order.id
      have hrest : Prog.stopped (machine cfg) w m (.outside fun answered =>
          if !answered then correctOutcome e .outOfSequence true else
          .outside fun notified =>
            if !notified then correctOutcome e .outOfSequence true
            else .pure (.webhook false (some true)) : Handler Answer) (n + 1 + 1) s' = s' := by
        match m with
        | 0 => rfl
        | 1 => rfl
        | m + 2 => simp [Prog.stopped, Prog.advance, hanswer]
      refine (congrArg (fun t : Db => t.find k) ?_).trans (hsame k hk)
      rw [← hrest]
      simp [Prog.stopped, Prog.advance, hanswer, hattempt]

/-- Correcting the outcome takes one step, and the notification no write. -/
theorem stopped_correctOutcome {s₁ : Db} {e : Id} {x : PaymentEvent} (h : Recorded s e x s₁)
    (outcome : PaymentEventOutcome) (notify : Bool) :
    Recorded s e { x with outcome := outcome }
      ((correctOutcome e outcome notify).stopped (machine cfg) w (m + 1) n s₁) := by
  obtain ⟨r, s₂, hattempt, hrecorded⟩ : ∃ (r : Bool) (s₂ : Db), (machine cfg).attempt
      (.markOutcome e outcome) (w.env n) s₁ = .ok (r, s₂) ∧
      Recorded s e { x with outcome := outcome } s₂ := attempt_markOutcome h outcome
  unfold correctOutcome
  rw [Prog.stopped_perform_ok hattempt, Prog.stopped_callFree]
  · exact hrecorded
  · cases notify with
    | false => trivial
    | true => exact Prog.Calls.bind (fun ok => by cases ok <;> trivial) fun _ => trivial

theorem require_some_bind {α β : Type} (e : Refusal) (a : α) (f : α → Handler β) :
    (Handler.require e (some a) >>= f) = f a := rfl

/-- From the recorded event on, a handling settles the order or corrects the outcome. -/
theorem stopped_recorded (cfg : Settings) {e : Id} {s₁ : Db}
    (hrecorded : Recorded s e (dto.paidEvent gateway (o.withId dto.orderId)) s₁)
    (ho : s.order dto.orderId = some o) (hanswer : ∀ n, w.answer n = true)
    (hfresh : ∀ n, (w.env n).Fresh s.docs) (m : ℕ) :
    let final := (afterRecorded dto (o.withId dto.orderId) e).stopped (machine cfg) w m 2 s₁
    (m + 2 < handlingSteps s.docs o dto ∧
      ∃ e, Recorded s e (dto.paidEvent gateway (o.withId dto.orderId)) final) ∨
    (handlingSteps s.docs o dto ≤ m + 2 ∧ Handled gateway dto o s final) := by
  intro final
  -- One step corrects the outcome of the event.
  have corrected : ∀ (outcome : PaymentEventOutcome) (notify : Bool) (m n : ℕ),
      webhookOutcome s.docs o dto = outcome → outcome ≠ .confirmed →
      Handled gateway dto o s
        ((correctOutcome e outcome notify).stopped (machine cfg) w (m + 1) n s₁) := by
    rintro outcome notify m n rfl hne
    exact .corrected hne (stopped_correctOutcome hrecorded _ notify)
  have hfinal : final = (afterRecorded dto (o.withId dto.orderId) e).stopped (machine cfg) w m 2 s₁ :=
    rfl
  clear_value final
  unfold afterRecorded at hfinal
  split_ifs at hfinal with hpaid hmismatch
  · have hnot : dto.paid = false := by simpa using hpaid
    have houtcome : webhookOutcome s.docs o dto = .outOfSequence := by simp [webhookOutcome, hnot]
    have hsteps : handlingSteps s.docs o dto = 3 := by simp [handlingSteps, hnot]
    rw [hsteps, hfinal]
    cases m with
    | zero => exact Or.inl ⟨by omega, e, hrecorded⟩
    | succ m => exact Or.inr ⟨by omega, corrected _ _ _ _ houtcome (by simp)⟩
  · have houtcome : webhookOutcome s.docs o dto = .amountMismatch :=
      (if_neg hpaid).trans (if_pos hmismatch)
    have hsteps : handlingSteps s.docs o dto = 3 := by simp [handlingSteps, houtcome]
    rw [hsteps, hfinal]
    cases m with
    | zero => exact Or.inl ⟨by omega, e, hrecorded⟩
    | succ m => exact Or.inr ⟨by omega, corrected _ _ _ _ houtcome (by simp)⟩
  · have hmatched : webhookOutcome s.docs o dto =
        if settleable s.docs dto.orderId then .confirmed else .outOfSequence :=
      (if_neg hpaid).trans (if_neg hmismatch)
    cases hsettles : settleable s.docs dto.orderId with
    | true =>
        have houtcome : webhookOutcome s.docs o dto = .confirmed := by simp [hmatched, hsettles]
        have hsteps : handlingSteps s.docs o dto = 3 := by simp [handlingSteps, houtcome]
        rw [hsteps, hfinal]
        cases m with
        | zero => exact Or.inl ⟨by omega, e, hrecorded⟩
        | succ m =>
            have hmovements : ∀ n, s₁.find (Key.accountMovement ((w.env 2).id n)) = none :=
              fun n => (hrecorded.others _ (by simp)).trans (hfresh 2 n).2.1
            obtain ⟨r, s₂, hattempt, hpaidOff⟩ : ∃ (r : OrderDocument) (s₂ : Db),
                (machine cfg).attempt (.settle (o.withId dto.orderId) e dto.transactionId)
                  (w.env 2) s₁ = .ok (r, s₂) ∧
                PaidOff dto.orderId e dto.transactionId s₁ s₂ :=
              attempt_settle ((hrecorded.settleable _).trans hsettles) hmovements
            refine Or.inr ⟨by omega, .confirmed houtcome hrecorded ?_⟩
            rw [Prog.stopped_attempt_ok hattempt]
            exact hpaidOff.congr (stopped_afterSettlement hanswer)
    | false =>
        have houtcome : webhookOutcome s.docs o dto = .outOfSequence := by simp [hmatched, hsettles]
        have hsteps : handlingSteps s.docs o dto = 4 := by
          simp [handlingSteps, houtcome, show dto.paid = true by simpa using hpaid]
        rw [hsteps, hfinal]
        cases m with
        | zero => exact Or.inl ⟨by omega, e, hrecorded⟩
        | succ m =>
            have ho₁ : s₁.order (o.withId dto.orderId).id = some o :=
              (hrecorded.others _ (by simp)).trans ho
            obtain ⟨failure, hattempt⟩ : ∃ failure, (machine cfg).attempt
                (.settle (o.withId dto.orderId) e dto.transactionId) (w.env 2) s₁ =
                  .error failure :=
              attempt_settle_refused ho₁ ((hrecorded.settleable _).trans hsettles)
            rw [Prog.stopped_attempt_error hattempt]
            cases m with
            | zero => exact Or.inl ⟨by omega, e, hrecorded⟩
            | succ m => exact Or.inr ⟨by omega, corrected _ _ _ _ houtcome (by simp)⟩

/-- A handling that stops has changed nothing yet, or has recorded the event
tentatively, or has done all a complete one does. -/
theorem stopped_handleWebhook (cfg : Settings) (gateway : PaymentGateway)
    (ho : s.order dto.orderId = some o)
    (hunseen : ¬ Seen s.docs dto.transactionId) (hanswer : ∀ n, w.answer n = true)
    (hfresh : ∀ n, (w.env n).Fresh s.docs) (m : ℕ) :
    (m < 2 ∧ (handleWebhook gateway dto true).stopped (machine cfg) w m 0 s = s) ∨
    (2 ≤ m ∧ m < handlingSteps s.docs o dto ∧ ∃ e, Recorded s e
      (dto.paidEvent gateway (o.withId dto.orderId))
      ((handleWebhook gateway dto true).stopped (machine cfg) w m 0 s)) ∨
    (handlingSteps s.docs o dto ≤ m ∧ Handled gateway dto o s
      ((handleWebhook gateway dto true).stopped (machine cfg) w m 0 s)) := by
  have hfind : s.find (Key.order dto.orderId) = some o := ho
  match m with
  | 0 => exact Or.inl ⟨by omega, rfl⟩
  | 1 => exact Or.inl ⟨by omega, rfl⟩
  | m + 2 =>
      refine Or.inr ?_
      obtain ⟨e, s₁, hattempt, hrecorded⟩ : ∃ (e : Id) (s₁ : Db), (machine cfg).attempt
          (.recordPaid gateway dto (o.withId dto.orderId)) (w.env 1) s = .ok (e, s₁) ∧
          Recorded s e (dto.paidEvent gateway (o.withId dto.orderId)) s₁ :=
        attempt_recordPaid hunseen (hfresh 1)
      have hrest := stopped_recorded cfg hrecorded ho hanswer hfresh m
      have hbegin : (handleWebhook gateway dto true).stopped (machine cfg) w (m + 2) 0 s =
          (afterRecorded dto (o.withId dto.orderId) e).stopped (machine cfg) w m 2 s₁ := by
        rw [handleWebhook_signed, Prog.stopped_find, hfind, require_some_bind]
        exact Prog.stopped_attempt_ok hattempt
      rw [hbegin]
      rcases hrest with ⟨hm, hrecorded'⟩ | ⟨hm, hhandled⟩
      · exact Or.inl ⟨by omega, hm, hrecorded'⟩
      · exact Or.inr ⟨hm, hhandled⟩

theorem handlingSteps_le (d : Docs Doc) (o : Order) (dto : PaymentWebhook) :
    3 ≤ handlingSteps d o dto := by
  unfold handlingSteps
  split_ifs <;> omega

/-- A complete handling. -/
theorem handled_alone (ho : s.order dto.orderId = some o)
    (hunseen : ¬ Seen s.docs dto.transactionId) (hanswer : ∀ n, w.answer n = true)
    (hfresh : ∀ n, (w.env n).Fresh s.docs) :
    Handled gateway dto o s ((handleWebhook gateway dto true).alone (machine cfg) w 0 s).2.2 := by
  obtain ⟨k, hk⟩ : ∃ k, ∀ m, k ≤ m → (handleWebhook gateway dto true).stopped (machine cfg) w m 0 s =
      ((handleWebhook gateway dto true).alone (machine cfg) w 0 s).2.2 := Prog.stopped_alone _ 0 s
  have hsteps := handlingSteps_le s.docs o dto
  rw [← hk (k + handlingSteps s.docs o dto) (by omega)]
  rcases stopped_handleWebhook cfg gateway ho hunseen hanswer hfresh
    (k + handlingSteps s.docs o dto) with ⟨hm, -⟩ | ⟨-, hm, -⟩ | ⟨-, hhandled⟩
  · omega
  · omega
  · exact hhandled

/-- A webhook that pays an order awaiting it is accepted. -/
theorem alone_accepts (ho : s.order dto.orderId = some o)
    (hunseen : ¬ Seen s.docs dto.transactionId)
    (houtcome : webhookOutcome s.docs o dto = .confirmed) (hanswer : ∀ n, w.answer n = true)
    (hfresh : ∀ n, (w.env n).Fresh s.docs) :
    ((handleWebhook gateway dto true).alone (machine cfg) w 0 s).1 =
      .ok (.webhook false (some true)) := by
  have hfind : s.find (Key.order dto.orderId) = some o := ho
  obtain ⟨e, s₁, hattempt, hrecorded⟩ : ∃ (e : Id) (s₁ : Db), (machine cfg).attempt
      (.recordPaid gateway dto (o.withId dto.orderId)) (w.env 1) s = .ok (e, s₁) ∧
      Recorded s e (dto.paidEvent gateway (o.withId dto.orderId)) s₁ :=
    attempt_recordPaid hunseen (hfresh 1)
  rw [handleWebhook_signed, Prog.alone_bind_ok (Prog.alone_find _), hfind, require_some_bind,
    Prog.alone_bind_ok (Prog.alone_attempt_ok hattempt)]
  dsimp only
  unfold afterRecorded
  unfold webhookOutcome at houtcome
  split_ifs at houtcome with hpaid hmismatch hsettles
  rw [if_neg hpaid]
  refine (congrArg (fun p : Handler Answer => (p.alone (machine cfg) w (0 + 1 + 1) s₁).1)
    (if_neg hmismatch)).trans ?_
  have hmovements : ∀ n, s₁.find (Key.accountMovement ((w.env 2).id n)) = none :=
    fun n => (hrecorded.others _ (by simp)).trans (hfresh 2 n).2.1
  obtain ⟨r, s₂, hsettle, -⟩ : ∃ (r : OrderDocument) (s₂ : Db),
      (machine cfg).attempt (.settle (o.withId dto.orderId) e dto.transactionId) (w.env 2) s₁ =
        .ok (r, s₂) ∧ PaidOff dto.orderId e dto.transactionId s₁ s₂ :=
    attempt_settle ((hrecorded.settleable _).trans hsettles) hmovements
  rw [Prog.alone_bind_ok (Prog.alone_attempt_ok hsettle)]
  dsimp only
  obtain ⟨s₃, hunschedule, -⟩ : ∃ s', (machine cfg).attempt (.unschedule dto.orderId)
      (w.env 4) s₂ = .ok ((), s') ∧ ∀ k, k ≠ Key.timeoutJob dto.orderId → s'.find k = s₂.find k :=
    attempt_unschedule _
  simp [afterSettlement, Prog.alone, hanswer, hunschedule]

/-- A webhook whose transaction is recorded is a duplicate. -/
theorem alone_duplicate (ho : s.order dto.orderId = some o)
    (hseen : Seen s.docs dto.transactionId) :
    (handleWebhook gateway dto true).alone (machine cfg) w 0 s = (.ok (.webhook true none), 2, s) := by
  have hfind : s.find (Key.order dto.orderId) = some o := ho
  have hattempt : (machine cfg).attempt (.recordPaid gateway dto (o.withId dto.orderId)) (w.env 1) s =
      .error .duplicateKey := attempt_recordPaid_seen hseen
  rw [handleWebhook_signed, Prog.alone_bind_ok (Prog.alone_find _), hfind, require_some_bind,
    Prog.alone_bind_ok (Prog.alone_attempt_error hattempt)]
  rfl

end handling

/-! ### Genuine payments -/

/-- The webhook is accepted, moves its order on and settles the invoice. -/
def Accepted (cfg : Settings) (gateway : PaymentGateway) (dto : PaymentWebhook) (i : Id) (w : World)
    (s : Db) : Prop :=
  ∃ n s' o' x', ((machine cfg).handle (.webhook gateway dto true)).alone (machine cfg) w 0 s =
      (.ok (.webhook false (some true)), n, s') ∧
    s'.order dto.orderId = some o' ∧ o'.status = .routedToTransport ∧
    s'.invoice i = some x' ∧ x'.state = .settled

/-- A signed payment of the right amount for an order awaiting it is accepted
exactly when no event carries its transaction yet. -/
theorem genuine_payment_accepted_iff {cfg : Settings} {s : Db} {gateway : PaymentGateway}
    {dto : PaymentWebhook} {w : World} {o : Order} {i : Id} {x : Invoice}
    (ho : s.order dto.orderId = some o) (hstatus : o.status = .pendingPayment)
    (hx : s.invoice i = some x) (horder : x.orderId = dto.orderId)
    (hissued : x.state = .issued) (hpaid : dto.paid = true) (hcurrency : dto.currency = .sar)
    (hamount : o.finalPrice = some dto.amount) (hanswer : ∀ n, w.answer n = true)
    (hfresh : ∀ n, (w.env n).Fresh s.docs) :
    Accepted cfg gateway dto i w s ↔ ¬ Seen s.docs dto.transactionId := by
  constructor
  · rintro ⟨n, s', o', x', halone, -⟩ hseen
    cases halone.symm.trans (alone_duplicate ho hseen)
  · intro hunseen
    have hsettles : settleable s.docs dto.orderId = true := by
      have ho' : s.docs.lookup (Key.order dto.orderId) = some o := ho
      simp [settleable, ho', hstatus, findInvoiceOf_eq s.unique hx horder]
    have houtcome : webhookOutcome s.docs o dto = .confirmed := by
      simp [webhookOutcome, hpaid, hamount, hcurrency, hsettles]
    have haccepts : ((handleWebhook gateway dto true).alone (machine cfg) w 0 s).1 =
        .ok (.webhook false (some true)) := alone_accepts ho hunseen houtcome hanswer hfresh
    have hhandled : Handled gateway dto o s
        ((handleWebhook gateway dto true).alone (machine cfg) w 0 s).2.2 :=
      handled_alone ho hunseen hanswer hfresh
    cases hhandled with
    | corrected hne => exact absurd houtcome hne
    | confirmed _ hrecorded hpaidOff =>
        obtain ⟨o', t, -, -, ho'⟩ := hpaidOff.order
        obtain ⟨j, y, hy, hyorder, -, -, hsettled⟩ := hpaidOff.invoice
        have hy' : s.invoice j = some y := (hrecorded.others _ (by simp)).symm.trans hy
        obtain rfl : j = i := invoice_unique s.unique hy' hx (hyorder.trans horder.symm)
        cases hy'.symm.trans hx
        obtain ⟨t', hx'⟩ := hsettled hissued
        exact ⟨_, _, _, _, Prod.ext haccepts rfl, ho', Order.moved_status _ _ _ _ _ _, hx', rfl⟩

namespace Sample

def payment : PaymentWebhook := ⟨7, 100, 4945 / 2, .sar, true⟩

/-- An order that awaits its payment. -/
def billed : List (Act Request) :=
  opening ++ serve (.create client (order .direct)) 10 6 100 ++
    serve (.approve fuelAdmin 100 none none) 11 17 200

/-- Someone without a valid signature is first to name the transaction. -/
def preempted : List (Act Request) :=
  billed ++ serve (.webhook .sadad payment false) 12 2 300

/-- The order awaits `payment` under the invoice 200. -/
def awaitsPayment (s : Db) : Bool :=
  lowIds s.docs && (s.order 100).any (fun o => o.status = .pendingPayment &&
    o.finalPrice = some payment.amount) &&
  (s.invoice 200).any fun x => x.orderId = 100 && x.state = .issued

end Sample

def settles (ev : Event Doc Call.Reply) : Bool :=
  match ev.label with
  | .settle .. => true
  | _ => false

theorem awaitsPayment_spec {s : Db} (h : Sample.awaitsPayment s = true) :
    Sample.lowIds s.docs = true ∧ ∃ o x, s.order 100 = some o ∧ o.status = .pendingPayment ∧
      o.finalPrice = some Sample.payment.amount ∧ s.invoice 200 = some x ∧ x.orderId = 100 ∧
      x.state = .issued := by
  simp only [Sample.awaitsPayment, Bool.and_eq_true] at h
  obtain ⟨⟨hlow, horder⟩, hinvoice⟩ := h
  obtain ⟨o, ho, hbill⟩ := (Option.any_eq_true _ _).mp horder
  obtain ⟨x, hx, hopen⟩ := (Option.any_eq_true _ _).mp hinvoice
  simp only [Bool.and_eq_true, decide_eq_true_eq] at hbill hopen
  exact ⟨hlow, o, x, ho, hbill.1, hbill.2, hx, hopen.1, hopen.2⟩

theorem genuine_payment_accepted_iff_billed :
    ∃ log s, Run (machine Sample.cfg) Store.empty (fun _ => True) log s ∧
      (Accepted Sample.cfg .sadad Sample.payment 200 Sample.world s.store ↔
        ¬ Seen s.store.docs 7) := by
  obtain ⟨log, s, hrun, htest⟩ := exists_run (machine Sample.cfg) Store.empty (fun _ => True)
    Sample.billed (fun _ s => Sample.awaitsPayment s.store) (by decide +kernel)
  obtain ⟨hlow, o, x, ho, hstatus, hprice, hx, horder, hissued⟩ := awaitsPayment_spec htest
  exact ⟨log, s, hrun, genuine_payment_accepted_iff ho hstatus hx horder hissued rfl rfl hprice
    (fun _ => rfl) (Sample.world_fresh hlow)⟩

/-- The genuine payment of an order that has never been settled is a duplicate, in
any surroundings, once someone else has named its transaction. -/
theorem genuine_payment_refused :
    ∃ log s o x, Run (machine Sample.cfg) Store.empty (fun _ => True) log s ∧
      s.store.order 100 = some o ∧ o.status = .pendingPayment ∧
      o.finalPrice = some Sample.payment.amount ∧ s.store.invoice 200 = some x ∧ x.orderId = 100 ∧
      x.state = .issued ∧
      (∀ ev ∈ log, ∀ order e transactionId, ev.label ≠ .settle order e transactionId) ∧
      ∀ w, ((machine Sample.cfg).handle (.webhook .sadad Sample.payment true)).alone
        (machine Sample.cfg) w 0 s.store = (.ok (.webhook true none), 2, s.store) := by
  obtain ⟨log, s, hrun, htest⟩ := exists_run (machine Sample.cfg) Store.empty (fun _ => True)
    Sample.preempted (fun log s => Sample.awaitsPayment s.store &&
      (s.store.paymentEvent 301).any (fun e => e.gatewayTransactionId = 7) &&
      log.all fun ev => !settles ev) (by decide +kernel)
  simp only [Bool.and_eq_true] at htest
  obtain ⟨⟨hawaits, hevent⟩, hsettled⟩ := htest
  obtain ⟨-, o, x, ho, hstatus, hprice, hx, horder, hissued⟩ := awaitsPayment_spec hawaits
  obtain ⟨e, he, htransaction⟩ := (Option.any_eq_true _ _).mp hevent
  have hseen : Seen s.store.docs Sample.payment.transactionId :=
    ⟨301, e, he, of_decide_eq_true htransaction⟩
  refine ⟨log, s, o, x, hrun, ho, hstatus, hprice, hx, horder, hissued, ?_, fun w => ?_⟩
  · intro ev hev order e transactionId hlabel
    have hnot := List.all_eq_true.mp hsettled ev hev
    rw [settles, hlabel] at hnot
    cases hnot
  · exact alone_duplicate ho hseen

/-! ### Stopped handlings -/

/-- The order without the instants at which it moved and without its event's id. -/
def Order.timeless (o : Order) : Order :=
  { o with
    statusHistory := o.statusHistory.map fun e => { e with at_ := 0 }
    paymentConfirmationId := none }

/-- The invoice without the instant of its settlement. -/
def Invoice.timeless (x : Invoice) : Invoice := { x with settledAt := x.settledAt.map fun _ => 0 }

/-- The event that an order names as its payment. -/
def confirmation (s : Db) (id : Id) : Option PaymentEvent :=
  ((s.order id).bind (·.paymentConfirmationId)).bind s.paymentEvent

/-- The order of a webhook, the invoices and the webhook's event are the same,
up to generated identifiers and readings of the clock. -/
structure SameOutcome (dto : PaymentWebhook) (s s' : Db) : Prop where
  order : (s.order dto.orderId).map Order.timeless = (s'.order dto.orderId).map Order.timeless
  confirmation : confirmation s dto.orderId = confirmation s' dto.orderId
  invoice : ∀ i, (s.invoice i).map Invoice.timeless = (s'.invoice i).map Invoice.timeless
  event : ∀ x : PaymentEvent, x.gatewayTransactionId = dto.transactionId →
    ((∃ e, s.paymentEvent e = some x) ↔ ∃ e, s'.paymentEvent e = some x)

/-- A confirmed event that is new belongs to an order it has paid. -/
def ConfirmedPaid (s s' : Db) : Prop :=
  ∀ e x, s.paymentEvent e = none → s'.paymentEvent e = some x → x.outcome = .confirmed →
    ∃ o i y, s'.order x.orderId = some o ∧ o.paymentConfirmationId = some e ∧
      s'.invoice i = some y ∧ y.orderId = x.orderId ∧ y.state = .settled

section outcomes
variable {s a b : Db} {gateway : PaymentGateway} {dto : PaymentWebhook} {o : Order}

theorem Recorded.new {e e' : Id} {x y : PaymentEvent} (h : Recorded s e x a)
    (hnone : s.paymentEvent e' = none) (hy : a.paymentEvent e' = some y) : e' = e ∧ y = x := by
  by_cases hsame : e' = e
  · subst hsame
    exact ⟨rfl, Option.some.inj (hy.symm.trans h.present)⟩
  · have hold : a.paymentEvent e' = s.paymentEvent e' := h.others _ (by simp [hsame])
    exact absurd (hold.symm.trans hy) (by simp [hnone])

/-- An event with the transaction is the one recorded. -/
theorem Recorded.only {e : Id} {x y : PaymentEvent} (h : Recorded s e x a)
    (hunseen : ¬ Seen s.docs dto.transactionId) (hy : y.gatewayTransactionId = dto.transactionId)
    {e' : Id} (he' : a.paymentEvent e' = some y) : y = x := by
  by_cases hsame : e' = e
  · subst hsame
    exact Option.some.inj (he'.symm.trans h.present)
  · have hold : s.paymentEvent e' = some y := (h.others _ (by simp [hsame])).symm.trans he'
    exact absurd ⟨e', y, hold, hy⟩ hunseen

/-- Two records of one event, in stores that differ otherwise in nothing, agree. -/
theorem Recorded.same_event {e e' : Id} {x : PaymentEvent} (ha : Recorded s e x a)
    (hb : Recorded s e' x b) (hunseen : ¬ Seen s.docs dto.transactionId) (y : PaymentEvent)
    (hy : y.gatewayTransactionId = dto.transactionId) :
    (∃ e, a.paymentEvent e = some y) ↔ ∃ e, b.paymentEvent e = some y := by
  constructor
  · rintro ⟨e₁, he₁⟩
    rw [ha.only hunseen hy he₁]
    exact ⟨e', hb.present⟩
  · rintro ⟨e₁, he₁⟩
    rw [hb.only hunseen hy he₁]
    exact ⟨e, ha.present⟩

/-- The event an order named before is not the one recorded. -/
theorem Recorded.confirmation_eq {e : Id} {x : PaymentEvent} (h : Recorded s e x a) (id : Id)
    (hstored : ∀ o c, s.order id = some o → o.paymentConfirmationId = some c →
      (s.paymentEvent c).isSome = true) : confirmation a id = confirmation s id := by
  have horder : a.order id = s.order id := h.others _ (by simp)
  unfold confirmation
  rw [horder]
  cases ho : s.order id with
  | none => rfl
  | some o =>
      cases hc : o.paymentConfirmationId with
      | none => simp [hc]
      | some c =>
          have hne : c ≠ e := by
            rintro rfl
            simpa [h.absent] using hstored o c ho hc
          have hsame : a.paymentEvent c = s.paymentEvent c := h.others _ (by simp [hne])
          simpa [hc] using hsame

/-- Two payments of an order differ in the event they name and in instants. -/
theorem Order.timeless_paid (o : Order) (e e' : Id) (t t' : Instant) :
    (o.moved .pendingPayment .routedToTransport systemActor
      { extraSet := [.paymentConfirmationId e], extraUnset := [.paymentDeadline] } t).timeless =
    (o.moved .pendingPayment .routedToTransport systemActor
      { extraSet := [.paymentConfirmationId e'], extraUnset := [.paymentDeadline] } t').timeless := by
  simp [timeless, moved, transitioned, historyEntry, OrderField.set, OrderPath.unset]

/-- The payment is what the order names. -/
theorem PaidOff.confirmation {e : Id} {x : PaymentEvent} {s₁ : Db} {id : Id} {transactionId : ℕ}
    (h : PaidOff id e transactionId s₁ a) (hx : s₁.paymentEvent e = some x) :
    confirmation a id = some x := by
  obtain ⟨o, t, -, -, ho⟩ := h.order
  have hx' : a.paymentEvent e = some x := (h.events e).trans hx
  simp [CiroFuel.confirmation, ho, Order.moved, Order.transitioned, OrderField.set, OrderPath.unset,
    hx']

/-- Two payments settle the same invoice. -/
theorem PaidOff.same_invoice {e e' : Id} {s₁ s₂ : Db} {id : Id} {transactionId : ℕ}
    (ha : PaidOff id e transactionId s₁ a) (hb : PaidOff id e' transactionId s₂ b)
    (hsame : ∀ i, s₁.invoice i = s₂.invoice i) (i : Id) :
    (a.invoice i).map Invoice.timeless = (b.invoice i).map Invoice.timeless := by
  obtain ⟨j, x, hx, horder, hothers, hclosed, hissued⟩ := ha.invoice
  obtain ⟨j', x', hx', horder', hothers', hclosed', hissued'⟩ := hb.invoice
  rw [← hsame] at hx'
  obtain rfl : j = j' := invoice_unique s₁.unique hx hx' (horder.trans horder'.symm)
  cases hx.symm.trans hx'
  by_cases hi : i = j
  · subst hi
    by_cases hstate : x.state = .issued
    · obtain ⟨t, ht⟩ := hissued hstate
      obtain ⟨t', ht'⟩ := hissued' hstate
      rw [ht, ht']
      rfl
    · rw [hclosed hstate, hclosed' hstate]
  · rw [hothers i hi, hothers' i hi, hsame]

/-- Complete handlings of one webhook from one store end alike. -/
theorem Handled.same (ha : Handled gateway dto o s a) (hb : Handled gateway dto o s b)
    (ho : s.order dto.orderId = some o) (hunseen : ¬ Seen s.docs dto.transactionId)
    (hstored : ∀ o c, s.order dto.orderId = some o → o.paymentConfirmationId = some c →
      (s.paymentEvent c).isSome = true) : SameOutcome dto a b := by
  cases ha with
  | corrected hne ha =>
      cases hb with
      | confirmed hconfirmed => exact absurd hconfirmed hne
      | corrected _ hb =>
          refine ⟨?_, ?_, fun i => ?_, ha.same_event hb hunseen⟩
          · rw [show a.order dto.orderId = s.order dto.orderId from ha.others _ (by simp),
              show b.order dto.orderId = s.order dto.orderId from hb.others _ (by simp)]
          · rw [ha.confirmation_eq _ hstored, hb.confirmation_eq _ hstored]
          · rw [show a.invoice i = s.invoice i from ha.others _ (by simp),
              show b.invoice i = s.invoice i from hb.others _ (by simp)]
  | confirmed hconfirmed ha hpaid =>
      cases hb with
      | corrected hne => exact absurd hconfirmed hne
      | confirmed _ hb hpaid' =>
          obtain ⟨o₁, t, ho₁, -, hmoved⟩ := hpaid.order
          obtain ⟨o₂, t', ho₂, -, hmoved'⟩ := hpaid'.order
          have hsame₁ : o₁ = o := Option.some.inj
            (ho₁.symm.trans ((ha.others (Key.order dto.orderId) (by simp)).trans ho))
          have hsame₂ : o₂ = o := Option.some.inj
            (ho₂.symm.trans ((hb.others (Key.order dto.orderId) (by simp)).trans ho))
          subst hsame₁ hsame₂
          refine ⟨?_, ?_, hpaid.same_invoice hpaid' fun i => ?_, fun y hy => ?_⟩
          · rw [hmoved, hmoved', Option.map_some, Option.map_some, Order.timeless_paid]
          · rw [hpaid.confirmation ha.present, hpaid'.confirmation hb.present]
          · exact (ha.others _ (by simp)).trans (hb.others _ (by simp)).symm
          · simp only [hpaid.events, hpaid'.events]
            exact ha.same_event hb hunseen y hy

/-- An event recorded alone is not what a complete handling leaves. -/
theorem Recorded.differs {e : Id}
    (ha : Recorded s e (dto.paidEvent gateway (o.withId dto.orderId)) a)
    (hb : Handled gateway dto o s b) (hunseen : ¬ Seen s.docs dto.transactionId) :
    ¬ SameOutcome dto a b := by
  intro hsame
  cases hb with
  | corrected hne hb =>
      obtain ⟨e', he'⟩ := (hsame.event _ rfl).mp ⟨e, ha.present⟩
      have heq := hb.only hunseen rfl he'
      exact hne (congrArg PaymentEvent.outcome heq).symm
  | confirmed _ hb hpaid =>
      obtain ⟨o', t, ho', hpending, hmoved⟩ := hpaid.order
      have ho : a.order dto.orderId = some o' := (ha.others (Key.order dto.orderId) (by simp)).trans
        ((hb.others (Key.order dto.orderId) (by simp)).symm.trans ho')
      have horder := hsame.order
      rw [ho, hmoved] at horder
      have hstatus := congrArg Order.status (Option.some.inj horder)
      simp [Order.timeless, hpending] at hstatus

/-- The new event of a complete handling, if confirmed, is of a paid order. -/
theorem Handled.confirmedPaid (h : Handled gateway dto o s a)
    (hvoid : VoidCancelled s) : ConfirmedPaid s a := by
  intro e x hnone hx hconfirmed
  cases h with
  | corrected hne hrecorded =>
      obtain ⟨-, rfl⟩ := hrecorded.new hnone hx
      exact absurd hconfirmed hne
  | confirmed _ hrecorded hpaid =>
      obtain ⟨rfl, rfl⟩ := hrecorded.new hnone ((hpaid.events e).symm.trans hx)
      obtain ⟨o', t, ho', hpending, hmoved⟩ := hpaid.order
      obtain ⟨i, y, hy, horder, -, hclosed, hissued⟩ := hpaid.invoice
      have hsettled : ∃ y', a.invoice i = some y' ∧ y'.orderId = dto.orderId ∧
          y'.state = .settled := by
        cases hstate : y.state with
        | issued =>
            obtain ⟨t', hy'⟩ := hissued hstate
            exact ⟨_, hy', horder, rfl⟩
        | settled => exact ⟨y, hclosed (by simp [hstate]), horder, hstate⟩
        | void =>
            have ho : s.order y.orderId = some o' := by
              rw [horder]
              exact (hrecorded.others (Key.order dto.orderId) (by simp)).symm.trans ho'
            have hy₀ : s.invoice i = some y :=
              (hrecorded.others (Key.invoice i) (by simp)).symm.trans hy
            exact absurd (hvoid i y hy₀ hstate o' ho) (by simp [hpending])
      obtain ⟨y', hy', horder', hstate⟩ := hsettled
      refine ⟨_, i, y', hmoved, ?_, hy', horder', hstate⟩
      simp [Order.moved, Order.transitioned, OrderField.set, OrderPath.unset]

end outcomes

/-! ### Redelivery -/

/-- The store after handlings of the webhook, each stopped after some of its steps. -/
def interrupted (cfg : Settings) (gateway : PaymentGateway) (dto : PaymentWebhook) :
    List (World × ℕ) → Db → Db
  | [], s => s
  | (w, m) :: stops, s => interrupted cfg gateway dto stops
      (((machine cfg).handle (.webhook gateway dto true)).stopped (machine cfg) w m 0 s)

/-- The store after interrupted handlings and a complete one. -/
def delivered (cfg : Settings) (gateway : PaymentGateway) (dto : PaymentWebhook)
    (stops : List (World × ℕ)) (w : World) (s : Db) : Db :=
  (((machine cfg).handle (.webhook gateway dto true)).alone (machine cfg) w 0
    (interrupted cfg gateway dto stops s)).2.2

section redelivery
variable {cfg : Settings} {s : Db} {gateway : PaymentGateway} {dto : PaymentWebhook} {o : Order}
variable {w : World} {stops : List (World × ℕ)}

/-- Where its order is unknown or its transaction recorded, a webhook changes nothing. -/
theorem stopped_inert (h : s.order dto.orderId = none ∨ Seen s.docs dto.transactionId) (m : ℕ) :
    (handleWebhook gateway dto true).stopped (machine cfg) w m 0 s = s := by
  rw [handleWebhook_signed]
  cases m with
  | zero => rfl
  | succ m =>
      rw [Prog.stopped_find]
      cases hfind : s.find (Key.order dto.orderId) with
      | none => exact Prog.stopped_fail _
      | some o =>
          rcases h with hunknown | hseen
          · exact absurd (hfind.symm.trans hunknown) (by simp)
          · have hattempt : (machine cfg).attempt (.recordPaid gateway dto (Order.withId o dto.orderId))
                (w.env 1) s = .error .duplicateKey := attempt_recordPaid_seen hseen
            rw [require_some_bind]
            cases m with
            | zero => rfl
            | succ m =>
                rw [Prog.stopped_attempt_error hattempt]
                exact Prog.stopped_pure _

theorem alone_inert (h : s.order dto.orderId = none ∨ Seen s.docs dto.transactionId) :
    ((handleWebhook gateway dto true).alone (machine cfg) w 0 s).2.2 = s := by
  obtain ⟨k, hk⟩ : ∃ k, ∀ m, k ≤ m → (handleWebhook gateway dto true).stopped (machine cfg) w m 0 s =
      ((handleWebhook gateway dto true).alone (machine cfg) w 0 s).2.2 := Prog.stopped_alone _ 0 s
  exact (hk k le_rfl).symm.trans (stopped_inert h k)

theorem interrupted_inert (h : s.order dto.orderId = none ∨ Seen s.docs dto.transactionId) :
    interrupted cfg gateway dto stops s = s := by
  induction stops with
  | nil => rfl
  | cons p stops ih =>
      have hstep : ((machine cfg).handle (.webhook gateway dto true)).stopped (machine cfg) p.1 p.2 0 s =
          s := stopped_inert h p.2
      rw [interrupted, hstep, ih]

theorem Recorded.seen {e : Id} {x : PaymentEvent} {a : Db} (h : Recorded s e x a) :
    Seen a.docs x.gatewayTransactionId := ⟨e, x, h.present, rfl⟩

theorem Handled.seen {a : Db} (h : Handled gateway dto o s a) : Seen a.docs dto.transactionId := by
  cases h with
  | corrected _ hrecorded => exact hrecorded.seen
  | confirmed _ hrecorded hpaid => exact ⟨_, _, (hpaid.events _).trans hrecorded.present, rfl⟩

/-- The first handling that gets past its read decides: stopped too early it leaves
the event alone, and otherwise all that a complete handling leaves. -/
theorem interrupted_spec (cfg : Settings) (gateway : PaymentGateway)
    (ho : s.order dto.orderId = some o)
    (hunseen : ¬ Seen s.docs dto.transactionId)
    (hstops : ∀ p ∈ stops, (∀ n, p.1.answer n = true) ∧ ∀ n, (p.1.env n).Fresh s.docs) :
    match stops.find? (fun p => 2 ≤ p.2) with
    | none => interrupted cfg gateway dto stops s = s
    | some p => (p.2 < handlingSteps s.docs o dto ∧ ∃ e, Recorded s e
          (dto.paidEvent gateway (o.withId dto.orderId)) (interrupted cfg gateway dto stops s)) ∨
        (handlingSteps s.docs o dto ≤ p.2 ∧
          Handled gateway dto o s (interrupted cfg gateway dto stops s)) := by
  induction stops with
  | nil => rfl
  | cons p stops ih =>
      obtain ⟨hanswer, hfresh⟩ := hstops p List.mem_cons_self
      rcases stopped_handleWebhook cfg gateway ho hunseen hanswer hfresh p.2 with
        ⟨hm, hstep⟩ | ⟨hm, hbefore, e, hrecorded⟩ | ⟨hm, hhandled⟩
      · rw [List.find?_cons_of_neg (by simp; omega)]
        have hsame : interrupted cfg gateway dto (p :: stops) s =
            interrupted cfg gateway dto stops s := congrArg (interrupted cfg gateway dto stops) hstep
        rw [hsame]
        exact ih fun q hq => hstops q (List.mem_cons_of_mem _ hq)
      · rw [List.find?_cons_of_pos (by simpa using hm)]
        have hsame : interrupted cfg gateway dto (p :: stops) s =
            (handleWebhook gateway dto true).stopped (machine cfg) p.1 p.2 0 s :=
          interrupted_inert (Or.inr hrecorded.seen)
        rw [hsame]
        exact Or.inl ⟨hbefore, e, hrecorded⟩
      · have hsteps := handlingSteps_le s.docs o dto
        rw [List.find?_cons_of_pos (by simp; omega)]
        have hsame : interrupted cfg gateway dto (p :: stops) s =
            (handleWebhook gateway dto true).stopped (machine cfg) p.1 p.2 0 s :=
          interrupted_inert (Or.inr hhandled.seen)
        rw [hsame]
        exact Or.inr ⟨hm, hhandled⟩

/-- Redelivery leaves what one uninterrupted handling leaves, and a confirmed event
only of a paid order. -/
def SafelyDelivered (cfg : Settings) (gateway : PaymentGateway) (dto : PaymentWebhook)
    (stops : List (World × ℕ)) (w w' : World) (s : Db) : Prop :=
  SameOutcome dto (delivered cfg gateway dto stops w s) (delivered cfg gateway dto [] w' s) ∧
    ConfirmedPaid s (delivered cfg gateway dto stops w s)

/-- The first handling to get past its read does not stop before its last change. -/
def completes (d : Docs Doc) (o : Order) (dto : PaymentWebhook) (stops : List (World × ℕ)) : Bool :=
  (stops.find? fun p => 2 ≤ p.2).all fun p => handlingSteps d o dto ≤ p.2

theorem SameOutcome.refl (dto : PaymentWebhook) (s : Db) : SameOutcome dto s s :=
  ⟨rfl, rfl, fun _ => rfl, fun _ _ => Iff.rfl⟩

theorem delivered_inert (h : s.order dto.orderId = none ∨ Seen s.docs dto.transactionId) :
    delivered cfg gateway dto stops w s = s := by
  unfold delivered
  rw [interrupted_inert h]
  exact alone_inert h

/-- Every order's payment is a recorded event. -/
def ConfirmationsStored (s : Db) : Prop :=
  ∀ id o c, s.order id = some o → o.paymentConfirmationId = some c → (s.paymentEvent c).isSome = true

theorem delivered_safely_iff (ho : s.order dto.orderId = some o)
    (hunseen : ¬ Seen s.docs dto.transactionId) {w' : World}
    (hstops : ∀ p ∈ stops, (∀ n, p.1.answer n = true) ∧ ∀ n, (p.1.env n).Fresh s.docs)
    (hw : (∀ n, w.answer n = true) ∧ ∀ n, (w.env n).Fresh s.docs)
    (hw' : (∀ n, w'.answer n = true) ∧ ∀ n, (w'.env n).Fresh s.docs)
    (hvoid : VoidCancelled s) (hstored : ConfirmationsStored s) :
    SafelyDelivered cfg gateway dto stops w w' s ↔ completes s.docs o dto stops = true := by
  have hwhole : Handled gateway dto o s (delivered cfg gateway dto [] w' s) :=
    handled_alone ho hunseen hw'.1 hw'.2
  have safe : ∀ a, Handled gateway dto o s a →
      SameOutcome dto a (delivered cfg gateway dto [] w' s) ∧ ConfirmedPaid s a := fun a ha =>
    ⟨ha.same hwhole ho hunseen fun o c => hstored _ o c, ha.confirmedPaid hvoid⟩
  have hspec := interrupted_spec cfg gateway ho hunseen hstops
  unfold completes
  cases hfind : stops.find? (fun p => 2 ≤ p.2) with
  | none =>
      rw [hfind] at hspec
      have hfinal : Handled gateway dto o s (delivered cfg gateway dto stops w s) := by
        unfold delivered
        rw [hspec]
        exact handled_alone ho hunseen hw.1 hw.2
      exact iff_of_true (safe _ hfinal) rfl
  | some p =>
      rw [hfind] at hspec
      rcases hspec with ⟨hbefore, e, hrecorded⟩ | ⟨hafter, hhandled⟩
      · have hfinal : delivered cfg gateway dto stops w s = interrupted cfg gateway dto stops s :=
          alone_inert (Or.inr hrecorded.seen)
        refine iff_of_false (fun hsafe => ?_) (by simpa using hbefore)
        have hsame := hsafe.1
        rw [hfinal] at hsame
        exact hrecorded.differs hwhole hunseen hsame
      · have hfinal : delivered cfg gateway dto stops w s = interrupted cfg gateway dto stops s :=
          alone_inert (Or.inr hhandled.seen)
        refine iff_of_true ?_ (by simpa using hafter)
        unfold SafelyDelivered
        rw [hfinal]
        exact safe _ hhandled

end redelivery

/-- Only a payment changes the event an order names. -/
theorem OrderStep.confirmation {cfg : Settings} {time : ℕ → Instant} {c : Call} {o o' : Order}
    (h : OrderStep cfg time c o o') :
    o'.paymentConfirmationId = o.paymentConfirmationId ∨
      ∃ order e transactionId, c = .settle order e transactionId ∧
        o'.paymentConfirmationId = some e := by
  cases h with
  | settle => exact Or.inr ⟨_, _, _, rfl, rfl⟩
  | route hstatus hedge =>
      rename_i order source transportCompanyId deliveryFee actor invoiceId n
      obtain ⟨priceBreakdown, finalPrice, heq⟩ := Order.awaiting_eq cfg o order.id source
        transportCompanyId deliveryFee actor invoiceId (time n) (time (n + 1)) (time (n + 2))
        (time (n + 3))
      rw [heq]
      exact Or.inl rfl
  | assign hstatus =>
      rename_i order a driver truck tank client n
      obtain ⟨clientSummary, ineligible, reason, heq⟩ :=
        Order.assigned_eq o a driver truck tank client (time n)
      rw [heq]
      exact Or.inl rfl
  | _ => exact Or.inl rfl

theorem commit_confirmationsStored {cfg : Settings} {ev : Event Doc Call.Reply} {since : Db}
    (hev : ev.Sound (machine cfg)) (hholds : (evolution cfg since).Holds ev)
    (hbefore : ConfirmationsStored ev.before) : ConfirmationsStored ev.after := by
  intro id o c ho hc
  have kept : ∀ o₁, ev.before.order id = some o₁ → o₁.paymentConfirmationId = some c →
      (ev.after.paymentEvent c).isSome = true := by
    intro o₁ ho₁ hc₁
    obtain ⟨x, hx⟩ := Option.isSome_iff_exists.mp (hbefore id o₁ c ho₁ hc₁)
    obtain ⟨x', hx', -⟩ := hholds.before_after.events c x hx
    exact Option.isSome_iff_exists.mpr ⟨x', hx'⟩
  rcases order_cases hev hholds.older hholds.pre id with ⟨-, heq⟩ |
    ⟨o₁, o₂, hid, -, hbefore₁, hafter, -, hstep⟩ | ⟨fields, userId, -, -, hafter⟩
  · exact kept o (heq.symm.trans ho) hc
  · cases ho.symm.trans hafter
    rcases hstep.confirmation with hsame | ⟨order, e, transactionId, hlabel, he⟩
    · exact kept o₁ hbefore₁ (hsame.symm.trans hc)
    · obtain rfl : e = c := Option.some.inj (he.symm.trans hc)
      have hpre := hholds.pre
      rw [hlabel] at hpre
      obtain ⟨-, x, hx, -⟩ := hpre
      obtain ⟨x', hx', -⟩ := (hholds.base_before.trans hholds.before_after).events e x hx
      exact Option.isSome_iff_exists.mpr ⟨x', hx'⟩
  · cases ho.symm.trans hafter
    cases hc

theorem reachable_confirmations {cfg : Settings} {log : List (Event Doc Call.Reply)}
    {s : Sys Doc Call.Reply Refusal Answer}
    (h : Run (machine cfg) Store.empty (fun _ => True) log s) :
    VoidCancelled s.store ∧ ConfirmationsStored s.store :=
  (db_invariant (I := fun s => VoidCancelled s ∧ ConfirmationsStored s) consistent_empty
    ⟨fun i x hx => (by cases hx), fun id o c ho => (by cases ho)⟩
    (fun ev hev _ hholds _ hbefore => ⟨commit_voidCancelled hev hholds hbefore.1,
      commit_confirmationsStored hev hholds hbefore.2⟩) h).1

/-- In every reachable state and however often its handling is interrupted, a signed
webhook is delivered safely exactly when the first handling to get past its read
completes, unless there was nothing to do. -/
theorem redelivery_safe_iff {cfg : Settings} {log : List (Event Doc Call.Reply)}
    {s : Sys Doc Call.Reply Refusal Answer} (h : Run (machine cfg) Store.empty (fun _ => True) log s)
    {gateway : PaymentGateway} {dto : PaymentWebhook} {stops : List (World × ℕ)} {w w' : World}
    (hstops : ∀ p ∈ stops, (∀ n, p.1.answer n = true) ∧ ∀ n, (p.1.env n).Fresh s.store.docs)
    (hw : (∀ n, w.answer n = true) ∧ ∀ n, (w.env n).Fresh s.store.docs)
    (hw' : (∀ n, w'.answer n = true) ∧ ∀ n, (w'.env n).Fresh s.store.docs) :
    SafelyDelivered cfg gateway dto stops w w' s.store ↔
      ∀ o, s.store.order dto.orderId = some o → ¬ Seen s.store.docs dto.transactionId →
        completes s.store.docs o dto stops = true := by
  obtain ⟨hvoid, hstored⟩ := reachable_confirmations h
  have inert : s.store.order dto.orderId = none ∨ Seen s.store.docs dto.transactionId →
      SafelyDelivered cfg gateway dto stops w w' s.store := by
    intro hinert
    unfold SafelyDelivered
    rw [delivered_inert hinert, delivered_inert hinert]
    exact ⟨.refl dto s.store, fun e x hnone hx => absurd (hnone.symm.trans hx) (by simp)⟩
  cases ho : s.store.order dto.orderId with
  | none => exact iff_of_true (inert (Or.inl ho)) fun o ho' => (by cases ho')
  | some o =>
      by_cases hseen : Seen s.store.docs dto.transactionId
      · exact iff_of_true (inert (Or.inr hseen)) fun _ _ hunseen => absurd hseen hunseen
      · rw [delivered_safely_iff ho hseen hstops hw hw' hvoid hstored]
        exact ⟨fun hcompletes o' ho' _ => by cases ho'; exact hcompletes,
          fun hall => hall o rfl hseen⟩

/-- A state in which `Sample.payment` is due, with surroundings to handle it in. -/
theorem exists_billed :
    ∃ log s o, Run (machine Sample.cfg) Store.empty (fun _ => True) log s ∧
      s.store.order 100 = some o ∧ ¬ Seen s.store.docs 7 ∧
      ((∀ n, Sample.world.answer n = true) ∧ ∀ n, (Sample.world.env n).Fresh s.store.docs) := by
  obtain ⟨log, s, hrun, htest⟩ := exists_run (machine Sample.cfg) Store.empty (fun _ => True)
    Sample.billed (fun _ s => Sample.awaitsPayment s.store && s.store.docs.keys.all fun
      | .paymentEvent _ => false
      | _ => true) (by decide +kernel)
  obtain ⟨hawaits, hevents⟩ := Bool.and_eq_true_iff.mp htest
  obtain ⟨hlow, o, -, ho, -⟩ := awaitsPayment_spec hawaits
  refine ⟨log, s, o, hrun, ho, ?_, fun _ => rfl, Sample.world_fresh hlow⟩
  rintro ⟨e, x, hx, -⟩
  have hkey : Key.paymentEvent e ∈ s.store.docs.keys :=
    AList.mem_keys.mp (AList.lookup_isSome.mp (Option.isSome_iff_exists.mpr ⟨x, hx⟩))
  exact absurd (List.all_eq_true.mp hevents _ hkey) (by simp)

theorem redelivery_safe_iff_billed :
    ∃ log s, Run (machine Sample.cfg) Store.empty (fun _ => True) log s ∧
      (SafelyDelivered Sample.cfg .sadad Sample.payment [(Sample.world, 1), (Sample.world, 3)]
        Sample.world Sample.world s.store ↔
      ∀ o, s.store.order 100 = some o → ¬ Seen s.store.docs 7 →
        completes s.store.docs o Sample.payment [(Sample.world, 1), (Sample.world, 3)] = true) := by
  obtain ⟨log, s, o, hrun, -, -, hworld⟩ := exists_billed
  refine ⟨log, s, hrun, redelivery_safe_iff hrun (fun p hp => ?_) hworld hworld⟩
  simp only [List.mem_cons, List.not_mem_nil, or_false] at hp
  rcases hp with rfl | rfl <;> exact hworld

/-- A handling that stops once the event is recorded leaves it confirmed, and the
repeated webhook a duplicate: the order stays unpaid. -/
theorem redelivery_unsafe :
    ∃ log s, Run (machine Sample.cfg) Store.empty (fun _ => True) log s ∧
      ¬ SafelyDelivered Sample.cfg .sadad Sample.payment [(Sample.world, 2)] Sample.world
        Sample.world s.store := by
  obtain ⟨log, s, o, hrun, ho, hunseen, hworld⟩ := exists_billed
  obtain ⟨hvoid, hstored⟩ := reachable_confirmations hrun
  refine ⟨log, s, hrun, fun hsafe => ?_⟩
  have hcompletes : completes s.store.docs o Sample.payment [(Sample.world, 2)] = true :=
    (delivered_safely_iff ho hunseen (fun p hp => by rw [List.mem_singleton.mp hp]; exact hworld)
      hworld hworld hvoid hstored).mp hsafe
  have hsteps := handlingSteps_le s.store.docs o Sample.payment
  simp [completes] at hcompletes
  omega

end CiroFuel
