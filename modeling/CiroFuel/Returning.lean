import CiroFuel.AccountChecks
import CiroFuel.CreditLimit
import CiroFuel.Snapshot.Alone

/-!
# When transactions return

A body throws where its source does. Where the order has the status the body
expects, the checks of credit and commission pass, the identifiers it draws are
new and no unique index is in the way, it returns; what it has then done is known
from the step lemmas.
-/
namespace CiroFuel
open Snapshot Tx

/-- The client's remaining credit, as it is compared with a price. -/
def availableCredit (d : Docs Doc) (clientId : Id) : ℚ :=
  roundCurrency (creditLimitOf d clientId - outstandingCredit d clientId)

/-! ### Unique indexes -/

theorem payoutEntries_mem {y : AccountMovement} {e : IndexEntry} (h : e ∈ y.payoutEntries) :
    ∃ companyId reference, e = .payoutReference companyId reference := by
  unfold AccountMovement.payoutEntries at h
  split at h
  · exact ⟨_, _, List.mem_singleton.mp h⟩
  · cases h

theorem invoice_fits {d : Docs Doc} {i : Id} {x : Invoice}
    (h : ∀ j y, d.lookup (Key.invoice j) = some y → y.orderId ≠ x.orderId) :
    d.fits (Key.invoice i) x = true := by
  refine Docs.fits_complete fun k y e hy he he' => ?_
  cases List.mem_singleton.mp he
  cases k with
  | invoice j => exact absurd (IndexEntry.invoiceOrderId.inj (List.mem_singleton.mp he')).symm (h j y hy)
  | accountMovement m =>
      obtain ⟨_, _, heq⟩ := payoutEntries_mem he'
      cases heq
  | _ => exact absurd he' (by simp [Indexed.entries])

theorem event_fits {d : Docs Doc} {i : Id} {x : PaymentEvent}
    (h : ∀ j y, d.lookup (Key.paymentEvent j) = some y →
      y.gatewayTransactionId ≠ x.gatewayTransactionId) : d.fits (Key.paymentEvent i) x = true := by
  refine Docs.fits_complete fun k y e hy he he' => ?_
  cases List.mem_singleton.mp he
  cases k with
  | paymentEvent j =>
      exact absurd (IndexEntry.gatewayTransactionId.inj (List.mem_singleton.mp he')).symm (h j y hy)
  | accountMovement m =>
      obtain ⟨_, _, heq⟩ := payoutEntries_mem he'
      cases heq
  | _ => exact absurd he' (by simp [Indexed.entries])

/-! ### Bodies -/

section bodies
variable {cfg : Settings} {env : Env} {v : View Doc}

theorem returns_transition {id : Id} {source target : OrderStatus} {actor : TransitionActor}
    {options : TransitionOptions} {o : Order} (ho : v.find (Key.order id) = some o)
    (hstatus : o.status = source) (hpermits : permits source target options.manualOverride = true)
    (hcoherent : options.coherent = true) :
    Returns env (transition id source target actor options) v := by
  unfold permits at hpermits
  unfold transition
  cases hrule : (transitions source).find? fun r => r.target = target with
  | none => simp [hrule] at hpermits
  | some rule =>
      rw [hrule] at hpermits
      have hoverride : ¬ (rule.requiresManualOverride && !options.manualOverride) = true := by
        intro hboth
        rw [Bool.and_eq_true, Bool.not_eq_true'] at hboth
        simp [hboth.1, hboth.2] at hpermits
      dsimp only
      rw [if_neg hoverride, if_neg (by simp [hcoherent])]
      refine Returns.bind returns_getTime fun t u ht => ?_
      obtain ⟨-, rfl⟩ := getTime_ok ht
      refine Returns.bind (returns_findOneAndUpdate fun _ _ _ => rfl) fun updated u hupdate => ?_
      rcases findOneAndUpdate_ok hupdate with ⟨_, -, -, -, rfl, -⟩ | ⟨-, -, hnone⟩
      · exact returns_pure _
      · exact absurd (hnone o ho) (by simp [hstatus])

theorem returns_createMovement {movement : AccountMovement}
    (hfresh : ∀ n, v.find (Key.accountMovement (env.id n)) = none)
    (hindex : movement.payoutEntries = []) : Returns env (createMovement movement) v := by
  refine Returns.bind returns_freshId fun id u hid => ?_
  obtain ⟨rfl, rfl⟩ := freshId_ok hid
  refine Returns.bind (returns_insert (hfresh _) ?_) fun _ _ _ => returns_pure _
  refine Docs.fits_complete fun k x i hx hi _ => ?_
  change i ∈ movement.payoutEntries at hi
  rw [hindex] at hi
  cases hi

theorem returns_accrueCommission {A : Arithmetic} {order : OrderDocument} {invoice : InvoiceDocument}
    (hfresh : ∀ n, v.find (Key.accountMovement (env.id n)) = none) :
    Returns env (accrueCommission A order invoice) v := by
  refine Returns.bind ⟨_, v, rfl⟩ fun found u hfound => ?_
  obtain ⟨rfl, -⟩ := getCurrentCommissionTerm_ok hfound
  cases found with
  | none => exact returns_pure _
  | some term =>
      dsimp only
      split_ifs with hpos
      · exact returns_pure _
      · exact Returns.bind (returns_createMovement hfresh rfl) fun _ _ _ => returns_pure _

theorem returns_accrueCashback {A : Arithmetic} {invoice : InvoiceDocument}
    (hfresh : ∀ n, v.find (Key.accountMovement (env.id n)) = none) :
    Returns env (accrueCashback A invoice) v := by
  have hcurrent : Returns env getCurrentCashbackProgramme v :=
    Returns.bind returns_scan fun _ _ _ => returns_pure _
  refine Returns.bind hcurrent fun found u hfound => ?_
  obtain ⟨d, u', hscan, hfound⟩ := bind_ok hfound
  obtain ⟨rfl, rfl⟩ := scan_ok hscan
  obtain ⟨-, rfl⟩ := pure_ok hfound
  cases found with
  | none => exact returns_pure _
  | some programme =>
      dsimp only
      split_ifs
      · exact returns_pure _
      · exact Returns.bind (returns_createMovement hfresh rfl) fun _ _ _ => returns_pure _

theorem returns_assertUnderCeiling {companyId : Id}
    (h : netCommissionOwed cfg.arithmetic v.docs companyId ≤ ceilingOf cfg v.docs companyId) :
    Returns env (assertUnderCeiling cfg companyId) v := by
  have hunder := not_lt.mpr h
  simp only [netCommissionOwed, ceilingOf] at hunder
  refine Returns.bind ⟨netCommissionOwed cfg.arithmetic v.docs companyId, v, rfl⟩
    fun balance u hbalance => ?_
  cases hbalance
  refine Returns.bind ⟨ceilingOf cfg v.docs companyId, v, rfl⟩ fun ceiling u hceiling => ?_
  cases hceiling
  rw [if_neg hunder]
  exact returns_pure _

/-- Within credit and under the ceiling, an order without an invoice gets one. -/
theorem returns_issueInvoice {order : OrderDocument} (hv : v.docs.Unique)
    (hcredit : order.paymentMethod = .credit → (v.find (Key.user order.clientId)).isSome = true ∧
      order.finalPrice.getD order.estimatedPrice ≤ availableCredit v.docs order.clientId)
    (hunder : order.paymentMethod = .deferred ∨ order.paymentMethod = .credit →
      netCommissionOwed cfg.arithmetic v.docs order.fuelCompanyId ≤
        ceilingOf cfg v.docs order.fuelCompanyId)
    (hfresh : ∀ n, v.find (Key.invoice (env.id n)) = none ∧
      v.find (Key.accountMovement (env.id n)) = none)
    (hunbilled : ∀ i x, v.find (Key.invoice i) = some x → x.orderId ≠ order.id) :
    Returns env (issueInvoice cfg order) v := by
  have hassert : Returns env
      (assertCredit order (order.finalPrice.getD order.estimatedPrice)) v := by
    by_cases hmethod : order.paymentMethod = .credit
    · obtain ⟨hclient, hle⟩ := hcredit hmethod
      obtain ⟨client, hfind⟩ := Option.isSome_iff_exists.mp hclient
      obtain ⟨w, hw⟩ := (assertCredit_iff hmethod _ hv hfind).mpr hle
      exact ⟨_, w, hw⟩
    · unfold assertCredit
      rw [if_neg hmethod]
      exact returns_pure _
  refine Returns.bind hassert fun _ u hu => ?_
  have hoff : SameOff (fun _ => False) v.docs u.docs := assertCredit_confined _ _ env _ _ _ hu
  have hsame : ∀ k, u.find k = v.find k := fun k => hoff.lookup_eq id
  -- The rest finds what was there before the checks.
  have recorded : ∀ u : View Doc, (∀ k, u.find k = v.find k) → Returns env (do
      let id ← Tx.freshId
      let invoice := Order.invoiceFor order
      Tx.insert (Key.invoice id) invoice
      let _ ← updateOrder order.id (fun _ => true) fun o => { o with invoiceId := some id }
      accrueCommission cfg.arithmetic order (invoice.withId id)
      return invoice.withId id : Action InvoiceDocument) u := by
    intro u hsame
    refine Returns.bind returns_freshId fun id u' hid => ?_
    obtain ⟨rfl, rfl⟩ := freshId_ok hid
    have hfit : u.docs.fits (Key.invoice (env.id u.drawn)) (Order.invoiceFor order) = true :=
      invoice_fits fun j x hx => hunbilled j x ((hsame _).symm.trans hx)
    refine Returns.bind (returns_insert ((hsame _).trans (hfresh _).1) hfit) fun _ u' hinsert => ?_
    obtain ⟨-, -, rfl⟩ := insert_ok hinsert
    refine Returns.bind (returns_findOneAndUpdate fun _ _ _ => rfl) fun _ u' hupdate => ?_
    have hmovements : ∀ n, u'.find (Key.accountMovement (env.id n)) = none := by
      intro n
      rw [(Confined.findOneAndUpdate (S := fun k => k = Key.order order.id) rfl).find_eq hupdate
        (by simp), View.find_put_ne _ _ (by simp)]
      exact (hsame _).trans (hfresh n).2
    exact Returns.bind (returns_accrueCommission hmovements) fun _ _ _ => returns_pure _
  by_cases hterms : order.paymentMethod = .deferred ∨ order.paymentMethod = .credit
  · rw [if_pos (by simpa using hterms)]
    have howed : netCommissionOwed cfg.arithmetic u.docs order.fuelCompanyId =
        netCommissionOwed cfg.arithmetic v.docs order.fuelCompanyId :=
      netCommissionOwed_congr (hoff.collect fun _ _ hfalse => hfalse.elim) _
    have hceiling : ceilingOf cfg u.docs order.fuelCompanyId =
        ceilingOf cfg v.docs order.fuelCompanyId := by
      rw [ceilingOf, ceilingOf, show u.docs.lookup _ = v.docs.lookup _ from hsame _]
    have hpasses : netCommissionOwed cfg.arithmetic u.docs order.fuelCompanyId ≤
        ceilingOf cfg u.docs order.fuelCompanyId := by
      rw [howed, hceiling]
      exact hunder hterms
    refine Returns.bind (returns_assertUnderCeiling hpasses) fun _ u' hu' => recorded u' fun k => ?_
    exact ((assertUnderCeiling_confined (S := fun _ => False) _ _).find_eq hu' id).trans (hsame k)
  · rw [if_neg (by simpa using hterms)]
    exact recorded u hsame

/-- The client's credit and the company's ceiling admit the order at this price. -/
structure Admits (cfg : Settings) (d : Docs Doc) (o : Order) (price : ℚ) : Prop where
  credit : o.paymentMethod = .credit → (d.lookup (Key.user o.clientId)).isSome = true ∧
    price ≤ availableCredit d o.clientId
  ceiling : o.paymentMethod = .deferred ∨ o.paymentMethod = .credit →
    netCommissionOwed cfg.arithmetic d o.fuelCompanyId ≤ ceilingOf cfg d o.fuelCompanyId

/-- They depend on neither orders nor anything else that routing changes. -/
theorem Admits.congr {d e : Docs Doc} {o : Order} {price : ℚ} (h : Admits cfg d o price) {id : Id}
    (hsame : SameOff (fun k => k = Key.order id) d e) : Admits cfg e o price where
  credit := by
    intro hmethod
    rw [hsame.lookup_eq (by simp), availableCredit,
      creditLimitOf_congr (hsame.lookup_eq (by simp)),
      outstandingCredit_congr (fun i => hsame.lookup_eq (by simp)) _]
    exact h.credit hmethod
  ceiling := by
    intro hmethod
    have hmovements : Docs.collect pickAccountMovement e = Docs.collect pickAccountMovement d :=
      hsame.collect (by rintro k x rfl; rfl)
    have howed := netCommissionOwed_congr (A := cfg.arithmetic) hmovements o.fuelCompanyId
    rw [howed, ceilingOf, hsame.lookup_eq (by simp)]
    exact h.ceiling hmethod

/-- The identifiers that the environment generates are in use nowhere. -/
def Snapshot.Env.Fresh (env : Env) (d : Docs Doc) : Prop :=
  ∀ n, d.lookup (Key.invoice (env.id n)) = none ∧ d.lookup (Key.accountMovement (env.id n)) = none ∧
    d.lookup (Key.paymentEvent (env.id n)) = none

def Unbilled (d : Docs Doc) (id : Id) : Prop :=
  ∀ i x, d.lookup (Key.invoice i) = some x → x.orderId ≠ id

theorem returns_awaitClientSettlement {order : OrderDocument} {deliveryFee : ℚ}
    {actor : TransitionActor} (hv : v.docs.Unique)
    (ho : v.find (Key.order order.id) = some order.toOrder) (hstatus : order.status = .routedToTransport)
    (hadmits : Admits cfg v.docs order.toOrder (settlementPrice order deliveryFee))
    (hfresh : env.Fresh v.docs) (hunbilled : Unbilled v.docs order.id) :
    Returns env (awaitClientSettlement cfg order deliveryFee actor) v := by
  refine Returns.bind returns_getTime fun pricedAt u ht => ?_
  obtain ⟨rfl, rfl⟩ := getTime_ok ht
  refine Returns.bind returns_getTime fun now u ht => ?_
  obtain ⟨rfl, rfl⟩ := getTime_ok ht
  refine Returns.bind (returns_transition ho hstatus rfl (by simp [TransitionOptions.coherent]))
    fun awaiting u hawaiting => ?_
  have huniq : u.docs.Unique := run_unique (v := { v with readings := v.readings + 1 + 1 }) hv hawaiting
  have hoff := transition_confined (S := fun k => k = Key.order order.id) rfl _ _ _ _ env _ _ _
    hawaiting
  have hsame : ∀ k, k ≠ Key.order order.id → u.docs.lookup k = v.docs.lookup k := fun k hk =>
    hoff.lookup_eq hk
  obtain ⟨o', _, ho', -, -, rfl, rfl, -⟩ := transition_ok hawaiting
  cases ho.symm.trans ho'
  -- What the invoice depends on is as it was, but for the price.
  obtain ⟨priceBreakdown, heq⟩ := Order.settling_eq cfg order.toOrder order deliveryFee actor
    (env.time v.readings) (env.time (v.readings + 1)) (env.time (v.readings + 1 + 1))
  rw [settledPrice_snd] at heq
  have hmethod := congrArg Order.paymentMethod heq
  have hclient := congrArg Order.clientId heq
  have hcompany := congrArg Order.fuelCompanyId heq
  have hprice := congrArg Order.finalPrice heq
  have hadmits' := hadmits.congr hoff
  refine Returns.bind (returns_issueInvoice huniq (fun hcredit => ?_) (fun hterms => ?_) ?_ ?_)
    fun _ _ _ => returns_pure _
  · obtain ⟨huser, hle⟩ := hadmits'.credit (hmethod.symm.trans hcredit)
    rw [← hclient] at huser hle
    refine ⟨huser, le_trans (le_of_eq ?_) hle⟩
    exact congrArg (fun p => Option.getD p _) hprice
  · have hunder := hadmits'.ceiling (hmethod ▸ hterms)
    rw [← hcompany] at hunder
    exact hunder
  · exact fun n => ⟨(hsame _ (by simp)).trans (hfresh n).1, (hsame _ (by simp)).trans (hfresh n).2.1⟩
  · exact fun i x hx => hunbilled i x ((hsame _ (by simp)).symm.trans hx)

theorem Unbilled.congr {d e : Docs Doc} {id : Id} (h : Unbilled d id)
    (hsame : ∀ i, e.lookup (Key.invoice i) = d.lookup (Key.invoice i)) : Unbilled e id :=
  fun i x hx => h i x ((hsame i).symm.trans hx)

theorem Snapshot.Env.Fresh.congr {d e : Docs Doc} (h : env.Fresh d) {id : Id}
    (hsame : ∀ k, k ≠ Key.order id → e.lookup k = d.lookup k) : env.Fresh e := fun n =>
  ⟨(hsame _ (by simp)).trans (h n).1, (hsame _ (by simp)).trans (h n).2.1,
    (hsame _ (by simp)).trans (h n).2.2⟩

/-- Routing an order that has no invoice yet. -/
theorem returns_routeToTransport {order : OrderDocument} {o : Order} {source : OrderStatus}
    {transportCompanyId : Id} {deliveryFee : ℚ} {actor : TransitionActor} (hv : v.docs.Unique)
    (ho : v.find (Key.order order.id) = some o) (hstatus : o.status = source)
    (hpermits : permits source .routedToTransport false = true)
    (hadmits : Admits cfg v.docs o (settlementPrice (o.withId order.id) deliveryFee))
    (hfresh : env.Fresh v.docs) (hunbilled : Unbilled v.docs order.id) :
    Returns env (routeToTransport cfg order source transportCompanyId deliveryFee actor) v := by
  refine Returns.bind (returns_transition ho hstatus hpermits (by simp [TransitionOptions.coherent]))
    fun routed u hrouted => ?_
  have huniq : u.docs.Unique := run_unique hv hrouted
  have hoff := transition_confined (S := fun k => k = Key.order order.id) rfl _ _ _ _ env _ _ _
    hrouted
  have hsame : ∀ k, k ≠ Key.order order.id → u.docs.lookup k = v.docs.lookup k := fun k hk =>
    hoff.lookup_eq hk
  obtain ⟨o', entry, ho', -, -, rfl, rfl, rfl⟩ := transition_ok hrouted
  cases ho.symm.trans ho'
  have hadmits' := hadmits.congr hoff
  exact returns_awaitClientSettlement huniq (View.find_put_self _ _ _)
    (Order.transitioned_status _ _ _) ⟨hadmits'.credit, hadmits'.ceiling⟩ (hfresh.congr hsame)
    (hunbilled.congr fun i => hsame _ (by simp))

theorem returns_settleInvoiceForOrder {A : Arithmetic} {orderId : Id} {ref : Option ℕ}
    (hv : v.docs.Unique)
    (hinvoice : (findInvoiceOf v.docs orderId).isSome = true)
    (hfresh : ∀ n, v.find (Key.accountMovement (env.id n)) = none) :
    Returns env (settleInvoiceForOrder A orderId ref) v := by
  refine Returns.bind returns_scan fun d u hscan => ?_
  obtain ⟨rfl, rfl⟩ := scan_ok hscan
  obtain ⟨invoice, hfound⟩ := Option.isSome_iff_exists.mp hinvoice
  rw [hfound]
  dsimp only
  unfold applySettlement
  split_ifs
  · exact returns_pure _
  · refine Returns.bind returns_getTime fun t u ht => ?_
    obtain ⟨rfl, rfl⟩ := getTime_ok ht
    have hfit : ∀ x, u.find (Key.invoice invoice.id) = some x →
        u.docs.fits (Key.invoice invoice.id) x = true := fun x hx => Docs.fits_stored hv hx
    refine Returns.bind (returns_findOneAndUpdate fun x hx _ => hfit x hx) fun _ u hupdate => ?_
    refine Returns.bind (returns_accrueCashback fun n => ?_) fun _ _ _ => returns_pure _
    exact ((Confined.findOneAndUpdate (S := fun k => k = Key.invoice invoice.id) rfl).find_eq
      hupdate (by simp)).trans (hfresh n)

/-- The payment of an order that awaits it goes through if the order was billed. -/
theorem returns_confirmPaid {A : Arithmetic} {order : OrderDocument} {o : Order} {eventId : Id}
    {transactionId : ℕ} (hv : v.docs.Unique) (ho : v.find (Key.order order.id) = some o)
    (hstatus : o.status = .pendingPayment)
    (hinvoice : (findInvoiceOf v.docs order.id).isSome = true)
    (hfresh : ∀ n, v.find (Key.accountMovement (env.id n)) = none) :
    Returns env (confirmPaid A order eventId transactionId) v := by
  refine Returns.bind (returns_settleInvoiceForOrder hv hinvoice hfresh) fun _ u hsettle => ?_
  have hsame : u.find (Key.order order.id) = v.find (Key.order order.id) :=
    (settleInvoiceForOrder_confined (S := fun k => k ≠ Key.order order.id) (by simp) (by simp)
      _ _).find_eq hsettle (by simp)
  exact returns_transition (hsame.trans ho) hstatus rfl
    (by simp [TransitionOptions.coherent, OrderField.path])

theorem returns_scheduleTimeout (orderId : Id) : Returns env (scheduleTimeout cfg orderId) v :=
  Returns.bind returns_getTime fun _ _ _ => returns_upsert rfl

theorem returns_cancelTimeout (orderId : Id) : Returns env (cancelTimeout orderId) v :=
  returns_upsert rfl

end bodies

/-! ### Handlers -/

section handlers
variable {cfg : Settings} {w : World} {s s' : Db} {n : ℕ}

@[simp] theorem alone_require {α : Type} (e : Refusal) (a : α) :
    (Handler.require e (some a)).alone (machine cfg) w n s = (.ok a, n, s) := rfl

theorem alone_refuseIf {b : Bool} {e : Refusal} (h : b = false) :
    (Handler.refuseIf b e).alone (machine cfg) w n s = (.ok (), n, s) := by
  subst h
  rfl

theorem alone_sideEffect (h : ∀ n, w.answer n = true) :
    Handler.sideEffect.alone (machine cfg) w n s = (.ok (), n + 1, s) := by
  simp [Handler.sideEffect, Prog.alone, h]

theorem alone_findById {id : Id} {o : Order} (ho : s.order id = some o) :
    (findById id).alone (machine cfg) w n s = (.ok (o.withId id), n + 1, s) := by
  have hfind : s.find (Key.order id) = some o := ho
  unfold findById
  rw [Prog.alone_bind_ok (Prog.alone_find _), hfind, Prog.alone_bind_ok (alone_require _ _)]
  rfl

/-- Queueing leaves everything but the job's slot. -/
theorem alone_enqueue {l : Call} {a : l.Reply} (h : ∀ n, w.answer n = true)
    (hl : (machine cfg).attempt l (w.env (n + 1)) s = .ok (a, s')) :
    (Handler.enqueue l).alone (machine cfg) w n s = (.ok a, n + 3, s') := by
  unfold Handler.enqueue
  rw [Prog.alone_bind_ok (alone_sideEffect h), Prog.alone_bind_ok (Prog.alone_perform_ok hl),
    Prog.alone_bind_ok (alone_sideEffect h)]
  rfl

end handlers

namespace Sample

/-- Everything outside answers, and identifiers start at 1000. -/
def world : World where
  clock n := n
  env n := ⟨fun _ => n, fun i => 1000 + i⟩
  answer _ := true

/-- No invoice, movement or event has an identifier that the world generates. -/
def lowIds (d : Docs Doc) : Bool :=
  d.keys.all fun
    | .invoice id | .accountMovement id | .paymentEvent id => id < 1000
    | _ => true

theorem world_fresh {d : Docs Doc} (h : lowIds d = true) (n : ℕ) : (world.env n).Fresh d := by
  have hlow := List.all_eq_true.mp h
  intro m
  refine ⟨?_, ?_, ?_⟩ <;> refine AList.lookup_eq_none.mpr fun hk => ?_
  all_goals
    have hid := hlow _ hk
    simp [world] at hid

end Sample
end CiroFuel
