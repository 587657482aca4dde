import CiroFuel.Billed
import CiroFuel.PriceLaws
import CiroFuel.Snapshot.History

/-!
# Price overrides

An administrator may approve an order at a price of their own. Routing adds the
haul to it, unless the order has an itemised quote: then it prices the order
again from the quote, and the approved price is gone.
-/
namespace CiroFuel
open Snapshot

/-- The order that an approval gives a price of its own. -/
def Call.overrides : Call → Option (Id × ℚ)
  | .approve order _ (some finalPrice) => some (order.id, finalPrice)
  | _ => none

/-- The order that is routed, and the fee of its haul. -/
def Call.hauls : Call → Option (Id × ℚ)
  | .route order _ _ deliveryFee _ => some (order.id, deliveryFee)
  | _ => none

theorem Call.overrides_eq {c : Call} {id : Id} {finalPrice : ℚ}
    (h : c.overrides = some (id, finalPrice)) :
    ∃ order actor, c = .approve order actor (some finalPrice) ∧ order.id = id := by
  cases c with
  | approve order actor price =>
      cases price with
      | none => cases h
      | some price =>
          cases h
          exact ⟨order, actor, rfl, rfl⟩
  | _ => cases h

theorem Call.hauls_eq {c : Call} {id : Id} {deliveryFee : ℚ} (h : c.hauls = some (id, deliveryFee)) :
    ∃ order source transportCompanyId actor,
      c = .route order source transportCompanyId deliveryFee actor ∧ order.id = id := by
  cases c with
  | route order source transportCompanyId fee actor =>
      cases h
      exact ⟨order, source, transportCompanyId, actor, rfl, rfl⟩
  | _ => cases h

/-- The order and its invoice are at the approved price and the haul, and the invoice has
the items of the order when they add up to that. -/
def OverrideStands (s : Db) (id : Id) (finalPrice deliveryFee : ℚ) : Prop :=
  ∃ o i x, s.order id = some o ∧ o.invoiceId = some i ∧ s.invoice i = some x ∧
    o.finalPrice = some (roundCurrency (finalPrice + deliveryFee)) ∧
    x.amount = roundCurrency (finalPrice + deliveryFee) ∧
    ∀ b, x.priceBreakdown = some b ↔ o.priceBreakdown = some b ∧ b.total = x.amount

/-- The order was not quoted, or at what makes the approved price with the haul. -/
def Order.QuotedAt (o : Order) (finalPrice deliveryFee : ℚ) : Prop :=
  ∀ quoted, o.priceBreakdown = some quoted →
    (derivePriceBreakdown quoted.unitPrice o.quantityLiters (some deliveryFee)
      quoted.serviceFeePercent quoted.taxRatePercent 0).total =
    roundCurrency (finalPrice + deliveryFee)

/-! ### What routing makes of the price -/

/-- A quoted order is charged what the quote makes with the haul, any other the approved
price and the haul. -/
theorem settledPrice_approved {o : Order} {finalPrice : ℚ} (hprice : o.finalPrice = some finalPrice)
    (id : Id) (deliveryFee : ℚ) (pricedAt : Instant) :
    (settledPrice (o.withId id) deliveryFee pricedAt).2 = roundCurrency (finalPrice + deliveryFee) ↔
      o.QuotedAt finalPrice deliveryFee := by
  have hdocument : (o.withId id).priceBreakdown = o.priceBreakdown := rfl
  unfold settledPrice Order.QuotedAt
  rw [hdocument]
  cases o.priceBreakdown with
  | none =>
      have happroved : (o.withId id).finalPrice = some finalPrice := hprice
      refine iff_of_true ?_ (fun quoted hquoted => by cases hquoted)
      simp only [happroved, Option.getD_some]
  | some quoted =>
      constructor
      · intro htotal quoted' hquoted'
        cases hquoted'
        exact htotal
      · intro hquotes
        exact hquotes quoted rfl

/-! ### Approved prices until routing -/

/-- An order that was approved at a price keeps it until it has an invoice. -/
def ApprovedAt (log : List (Event Doc Call.Reply)) (s : Db) : Prop :=
  ∀ ev ∈ log, ∀ id finalPrice, ev.label.overrides = some (id, finalPrice) →
    ∃ o, s.order id = some o ∧ o.status ≠ .pendingApproval ∧
      (o.invoiceId = none → o.finalPrice = some finalPrice)

theorem OrderStep.approved_price {cfg : Settings} {time : ℕ → Instant} {c : Call} {o o' : Order}
    (h : OrderStep cfg time c o o') {finalPrice : ℚ} (hstatus : o.status ≠ .pendingApproval)
    (hprice : o.invoiceId = none → o.finalPrice = some finalPrice) :
    o'.status ≠ .pendingApproval ∧ (o'.invoiceId = none → o'.finalPrice = some finalPrice) := by
  obtain ⟨es, -, htrail⟩ := h.trail
  refine ⟨htrail.closed not_pendingApproval hstatus, fun hunbilled => ?_⟩
  by_cases hroute : ∃ order source transportCompanyId deliveryFee actor,
      c = .route order source transportCompanyId deliveryFee actor
  · obtain ⟨order, source, transportCompanyId, deliveryFee, actor, rfl⟩ := hroute
    cases h
    cases hunbilled
  · have hother : ∀ order source transportCompanyId deliveryFee actor,
        c ≠ .route order source transportCompanyId deliveryFee actor := by
      intro order source transportCompanyId deliveryFee actor hc
      exact hroute ⟨order, source, transportCompanyId, deliveryFee, actor, hc⟩
    rw [(h.price hstatus hother).1]
    apply hprice
    rcases h.invoiceId with hsame | hroutes
    · exact hsame ▸ hunbilled
    · exact absurd hroutes hroute

section runs
variable {cfg : Settings} {init : Db} {log : List (Event Doc Call.Reply)}
variable {s : Sys Doc Call.Reply Refusal Answer} {ev : Event Doc Call.Reply}

theorem commit_approvedAt (hev : ev.Sound (machine cfg)) (hholds : (evolution cfg init).Holds ev)
    (h : ApprovedAt log ev.before) : ApprovedAt (ev :: log) ev.after := by
  intro ev₁ hmem id finalPrice happrove
  rcases List.mem_cons.mp hmem with rfl | hmem
  · obtain ⟨order, actor, hlabel, rfl⟩ := Call.overrides_eq happrove
    have hid : ev₁.label.subject = some order.id := by rw [hlabel]; rfl
    obtain ⟨o, o', -, -, hafter, -, hstep⟩ := subject_step hev hholds.older hholds.pre hid
    rw [hlabel] at hstep
    cases hstep
    exact ⟨_, hafter, by simp, fun _ => rfl⟩
  · obtain ⟨o, ho, hstatus, hprice⟩ := h ev₁ hmem id finalPrice happrove
    rcases order_cases hev hholds.older hholds.pre id with ⟨-, hsame⟩ |
      ⟨o₁, o', -, -, hbefore, hafter, -, hstep⟩ | ⟨_, _, -, hnone, -⟩
    · exact ⟨o, hsame.trans ho, hstatus, hprice⟩
    · cases hbefore.symm.trans ho
      obtain ⟨hstatus', hprice'⟩ := hstep.approved_price hstatus hprice
      exact ⟨o', hafter, hstatus', hprice'⟩
    · exact absurd (hnone.symm.trans ho) (by simp)

theorem approved_until_billed (hinit : Consistent cfg init)
    (h : Run (machine cfg) init (fun _ => True) log s) : ApprovedAt log s.store := by
  refine Run.logged (J := ApprovedAt) ?_ ?_ (disciplined hinit h).2
  · intro ev hmem
    cases hmem
  · exact fun log ev hev hP hbefore => commit_approvedAt hev hP.2 hbefore

/-- What a committed routing leaves of an order and its invoice. -/
theorem route_leaves {since : Db} (hev : ev.Sound (machine cfg))
    (hholds : (evolution cfg since).Holds ev) {id : Id} {deliveryFee : ℚ}
    (hroute : ev.label.hauls = some (id, deliveryFee)) :
    ∃ o i o' pricedAt, ev.before.order id = some o ∧ o.invoiceId = none ∧
      ev.after.order id = some o' ∧ o'.invoiceId = some i ∧
      o'.finalPrice = some (settledPrice (o.withId id) deliveryFee pricedAt).2 ∧
      ev.after.invoice i = some (Order.invoiceFor (o'.withId id)) := by
  obtain ⟨order, source, transportCompanyId, actor, hlabel, rfl⟩ := Call.hauls_eq hroute
  have hid : ev.label.subject = some order.id := by rw [hlabel]; rfl
  obtain ⟨o, o', hbase, hbefore, hafter, hview, -⟩ := subject_step hev hholds.older hholds.pre hid
  have hunbilled := route_unbilled hev hholds.inv_base.1 hlabel hbase
  obtain ⟨r, hran⟩ := ran_as hev hlabel
  obtain ⟨o₁, i, n, hbase₁, -, -, hview₁, hnone, -, hself, -⟩ := routeToTransport_ok hran
  cases hbase.symm.trans hbase₁
  cases hview.symm.trans hview₁
  have hinvoice : ev.view.find (Key.invoice i) ≠ ev.base.find (Key.invoice i) := by
    intro hsame
    exact absurd (hself.symm.trans (hsame.trans hnone)) (by simp)
  exact ⟨o, i, _, _, hbefore, hunbilled, hafter, rfl, Order.awaiting_priced ..,
    (hev.written hholds.older hinvoice).2.trans hself⟩

/-- In every run an override stands after routing just if the order was not quoted, or
at what makes the approved price anyway. -/
theorem override_stands_iff (hinit : Consistent cfg init)
    (h : Run (machine cfg) init (fun _ => True) (ev :: log) s) {id : Id}
    {finalPrice deliveryFee : ℚ} (hroute : ev.label.hauls = some (id, deliveryFee))
    (happrove : ∃ ev₁ ∈ log, ev₁.label.overrides = some (id, finalPrice)) :
    OverrideStands ev.after id finalPrice deliveryFee ↔
      ∃ o, ev.before.order id = some o ∧ o.QuotedAt finalPrice deliveryFee := by
  obtain ⟨hev, -, s', hrun, hstore⟩ := h.uncons
  obtain ⟨-, ⟨-, hholds⟩, -⟩ := (disciplined hinit h).2.uncons
  obtain ⟨o, i, o', pricedAt, hbefore, hunbilled, hafter, hi, hprice, hinvoice⟩ :=
    route_leaves hev hholds hroute
  have happroved : o.finalPrice = some finalPrice := by
    obtain ⟨ev₁, hmem, hlabel⟩ := happrove
    obtain ⟨o₁, ho₁, -, hprice₁⟩ := approved_until_billed hinit hrun ev₁ hmem _ _ hlabel
    rw [hstore] at ho₁
    cases ho₁.symm.trans hbefore
    exact hprice₁ hunbilled
  have hsettled := settledPrice_approved happroved id deliveryFee pricedAt
  constructor
  · rintro ⟨o₂, i₂, x, ho₂, -, -, hstands, -⟩
    cases ho₂.symm.trans hafter
    exact ⟨o, hbefore, hsettled.mp (Option.some.inj (hprice.symm.trans hstands))⟩
  · rintro ⟨o₂, ho₂, hquoted⟩
    cases ho₂.symm.trans hbefore
    have hstands := hprice.trans (congrArg some (hsettled.mpr hquoted))
    have hamount : (Order.invoiceFor (o'.withId id)).amount =
        roundCurrency (finalPrice + deliveryFee) := by
      change (o'.finalPrice).getD o'.estimatedPrice = _
      rw [hstands, Option.getD_some]
    refine ⟨o', i, _, hafter, hi, hinvoice, hstands, hamount, fun b => ?_⟩
    change o'.priceBreakdown.filter _ = some b ↔ _
    rw [Option.filter_eq_some_iff, decide_eq_true_eq]
    exact Iff.rfl

end runs

/-- A direct order of 1000 litres at 2, approved at the given price and routed. The quote
makes 2422.50 without the haul and 2472.50 with it. -/
def Sample.overridden (finalPrice : ℚ) : List (Act Request) :=
  opening ++ serve (Request.create client (order .direct)) 10 6 100 ++
    serve (Request.approve fuelAdmin 100 (some finalPrice) none) 11 10 200

theorem override_stands_iff_quoted :
    ∃ log s ev, Run (machine Sample.cfg) Store.empty (fun _ => True) (ev :: log) s ∧
      (∃ ev₁ ∈ log, ev₁.label.overrides = some (100, 4845 / 2)) ∧
      (OverrideStands ev.after 100 (4845 / 2) 50 ↔
        ∃ o, ev.before.order 100 = some o ∧ o.QuotedAt (4845 / 2) 50) := by
  obtain ⟨all, s, hrun, htest⟩ := exists_run (machine Sample.cfg) Store.empty (fun _ => True)
    (Sample.overridden (4845 / 2))
    (fun all _ => all.head?.any (fun ev => ev.label.hauls = some (100, 50)) &&
      all.tail.any fun ev => ev.label.overrides = some (100, 4845 / 2)) (by decide +kernel)
  cases all with
  | nil => cases htest
  | cons ev log =>
      simp only [List.head?_cons, Option.any_some, List.tail_cons, Bool.and_eq_true,
        decide_eq_true_eq, List.any_eq_true] at htest
      obtain ⟨hroute, happrove⟩ := htest
      exact ⟨log, s, ev, hrun, happrove,
        override_stands_iff consistent_empty hrun hroute happrove⟩

theorem override_stands_replaced :
    ¬ ∀ (log : List (Event Doc Call.Reply)) (ev : Event Doc Call.Reply)
      (s : Sys Doc Call.Reply Refusal Answer) (id : Id) (finalPrice deliveryFee : ℚ),
      Run (machine Sample.cfg) Store.empty (fun _ => True) (ev :: log) s →
      ev.label.hauls = some (id, deliveryFee) →
      (∃ ev₁ ∈ log, ev₁.label.overrides = some (id, finalPrice)) →
      OverrideStands ev.after id finalPrice deliveryFee := by
  intro hclaim
  obtain ⟨all, s, hrun, htest⟩ := exists_run (machine Sample.cfg) Store.empty (fun _ => True)
    (Sample.overridden 3000)
    (fun all s => all.head?.any (fun ev => ev.label.hauls = some (100, 50)) &&
      all.tail.any (fun ev => ev.label.overrides = some (100, 3000)) &&
      (s.store.order 100).any fun o => o.finalPrice = some (4945 / 2)) (by decide +kernel)
  cases all with
  | nil => cases htest
  | cons ev log =>
      simp only [List.head?_cons, Option.any_some, List.tail_cons, Bool.and_eq_true,
        decide_eq_true_eq, List.any_eq_true] at htest
      obtain ⟨⟨hroute, happrove⟩, hprice⟩ := htest
      obtain ⟨o, i, x, ho, -, -, hstands, -⟩ := hclaim log ev s 100 3000 50 hrun hroute happrove
      rw [hrun.leaves] at hprice
      change (ev.after.order 100).any _ = true at hprice
      rw [ho, Option.any_some, decide_eq_true_eq, hstands] at hprice
      exact absurd hprice (by decide +kernel)

end CiroFuel
