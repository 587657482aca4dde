import CiroFuel.OrderSteps

/-!
# What a call can make of a payment event or of a timeout job

An event is recorded once and later only its outcome is corrected. A job is put
into an empty slot and taken out again; putting one into a full slot does nothing.
-/
namespace CiroFuel
open Snapshot Tx

def PaymentWebhook.invalidEvent (dto : PaymentWebhook) (gateway : PaymentGateway)
    (companyId : Id) : PaymentEvent where
  gatewayTransactionId := dto.transactionId
  gateway := gateway
  orderId := dto.orderId
  companyId := companyId
  clientId := none
  amount := dto.amount
  currency := dto.currency
  outcome := .invalidSignature

/-- The tentative event of a signed webhook. -/
def PaymentWebhook.paidEvent (dto : PaymentWebhook) (gateway : PaymentGateway)
    (order : OrderDocument) : PaymentEvent where
  gatewayTransactionId := dto.transactionId
  gateway := gateway
  orderId := order.id
  companyId := order.fuelCompanyId
  clientId := some order.clientId
  amount := dto.amount
  currency := dto.currency
  outcome := .confirmed

variable {cfg : Settings} {env : Env} {v w : View Doc}

theorem createPaymentEvent_ok {event : PaymentEvent} {r : Id}
    (h : (createPaymentEvent event).run env v = .ok (r, w)) :
    v.find (Key.paymentEvent r) = none ∧ v.docs.fits (Key.paymentEvent r) event = true ∧
      w.find (Key.paymentEvent r) = some event ∧
      ∀ e, e ≠ r → w.find (Key.paymentEvent e) = v.find (Key.paymentEvent e) := by
  obtain ⟨id, u, hid, h⟩ := bind_ok h
  obtain ⟨-, rfl⟩ := freshId_ok hid
  obtain ⟨_, u, hinsert, h⟩ := bind_ok h
  obtain ⟨rfl, rfl⟩ := pure_ok h
  obtain ⟨hnone, hfit, rfl⟩ := insert_ok hinsert
  refine ⟨hnone, hfit, View.find_put_self _ _ _, fun e he => ?_⟩
  exact View.find_put_ne _ _ fun hkey => he (Key.paymentEvent.inj hkey)

namespace Call
variable {c : Call} {r : c.Reply}

theorem recordPaid_event {gateway : PaymentGateway} {dto : PaymentWebhook} {order : OrderDocument}
    {r : Id} (h : ((recordPaid gateway dto order).body cfg).run env v = .ok (r, w)) :
    v.find (Key.paymentEvent r) = none ∧
      w.find (Key.paymentEvent r) = some (dto.paidEvent gateway order) := by
  obtain ⟨hnone, -, hw, -⟩ := createPaymentEvent_ok h
  exact ⟨hnone, hw⟩

/-- What a call can have made of an event that was there. -/
theorem body_event (h : (c.body cfg).run env v = .ok (r, w)) {e : Id} {x : PaymentEvent}
    (hx : v.find (Key.paymentEvent e) = some x) :
    ∃ x', w.find (Key.paymentEvent e) = some x' ∧
      (x' = x ∨ ∃ outcome, c = .markOutcome e outcome ∧ x' = { x with outcome := outcome }) := by
  have created : ∀ {event : PaymentEvent} {u : View Doc} {r' : Id},
      (createPaymentEvent event).run env u = .ok (r', w) →
      u.find (Key.paymentEvent e) = some x →
      ∃ x', w.find (Key.paymentEvent e) = some x' ∧
        (x' = x ∨ ∃ outcome, c = .markOutcome e outcome ∧ x' = { x with outcome := outcome }) := by
    intro event u r' hcreate hu
    obtain ⟨hnone, -, -, hothers⟩ := createPaymentEvent_ok hcreate
    have hne : e ≠ r' := by
      rintro rfl
      exact absurd (hnone.symm.trans hu) (by simp)
    exact ⟨x, (hothers e hne).trans hu, Or.inl rfl⟩
  cases c with
  | recordInvalid gateway dto =>
      obtain ⟨companyId, u, hid, h⟩ := bind_ok h
      obtain ⟨-, rfl⟩ := freshId_ok hid
      exact created h hx
  | recordPaid gateway dto order => exact created h hx
  | markOutcome e' outcome =>
      by_cases he : e' = e
      · subst he
        rcases updateOne_ok h with ⟨x', hx', -, -, -, rfl⟩ | ⟨-, -, hnone⟩
        · cases hx.symm.trans hx'
          exact ⟨_, View.find_put_self _ _ _, Or.inr ⟨outcome, rfl, rfl⟩⟩
        · exact absurd (hnone x hx) (by simp)
      · exact ⟨x, (body_frame h (by simp [touches, he])).trans hx, Or.inl rfl⟩
  | _ => exact ⟨x, (body_frame (k := Key.paymentEvent e) h rfl).trans hx, Or.inl rfl⟩

/-- A stored job was stored before or has just been scheduled. -/
theorem body_job (h : (c.body cfg).run env v = .ok (r, w)) {id : Id} {job : TimeoutJob}
    (hjob : w.find (Key.timeoutJob id) = some (some job)) :
    v.find (Key.timeoutJob id) = some (some job) ∨
      c = .schedule id ∧ ∃ n, job = ⟨id, env.time n, cfg.paymentWindow⟩ := by
  have untouched : w.find (Key.timeoutJob id) = v.find (Key.timeoutJob id) →
      v.find (Key.timeoutJob id) = some (some job) := fun heq => heq.symm.trans hjob
  cases c with
  | schedule orderId =>
      by_cases hid : orderId = id
      · subst hid
        obtain ⟨t, u, ht, h⟩ := bind_ok h
        obtain ⟨rfl, rfl⟩ := getTime_ok ht
        obtain ⟨-, rfl⟩ := upsert_ok h
        have hslot := Option.some.inj ((View.find_put_self _ _ _).symm.trans hjob)
        rw [View.find_tick] at hslot
        cases hv : v.find (Key.timeoutJob orderId) with
        | none =>
            rw [hv] at hslot
            cases hslot
            exact Or.inr ⟨rfl, _, rfl⟩
        | some slot =>
            rw [hv] at hslot
            cases slot with
            | none =>
                cases hslot
                exact Or.inr ⟨rfl, _, rfl⟩
            | some job' =>
                cases hslot
                exact Or.inl rfl
      · exact Or.inl (untouched (body_frame h (by simp [touches, hid])))
  | unschedule orderId =>
      by_cases hid : orderId = id
      · subst hid
        simp only [body, cancelTimeout] at h
        obtain ⟨-, rfl⟩ := upsert_ok h
        cases (View.find_put_self _ _ _).symm.trans hjob
      · exact Or.inl (untouched (body_frame h (by simp [touches, hid])))
  | finishJob job' =>
      by_cases hid : job'.orderId = id
      · subst hid
        simp only [body] at h
        obtain ⟨-, rfl⟩ := upsert_ok h
        have hslot := Option.some.inj ((View.find_put_self _ _ _).symm.trans hjob)
        cases hv : v.find (Key.timeoutJob job'.orderId) with
        | none => simp [hv] at hslot
        | some slot =>
            rw [hv] at hslot
            simp only [Option.getD_some] at hslot
            split_ifs at hslot
            exact Or.inl (by rw [hslot])
      · exact Or.inl (untouched (body_frame h (by simp [touches, hid])))
  | _ => exact Or.inl (untouched (body_frame (k := Key.timeoutJob id) h rfl))

end Call
end CiroFuel
