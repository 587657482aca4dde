import CiroFuel.Candidates
import CiroFuel.ClientLists
import CiroFuel.Snapshot.Totals
import Mathlib.Algebra.BigOperators.Ring.Finset

/-!
# Figures

What the dashboards count: orders by status, and what was delivered in a period. Each
figure is a query of its own, and the queries of one dashboard read at different moments.
The figures of a period that is over do not change any more; and six counts taken while
orders move are off by no more than the orders that moved.
-/
namespace CiroFuel
open Snapshot Tx

/-! ### The queries -/

/-- A period of time, its ends included. -/
structure Period where
  from_ : Instant
  to_ : Instant

def Period.includes (period : Period) (t : Instant) : Bool := period.from_ ≤ t && t ≤ period.to_

/-- Who asks: the operator, a fuel company, or one of its transport companies. -/
inductive Viewer where
  | operator
  | fuelCompany (id : Id)
  | transportCompany (fuelCompanyId id : Id)

def Viewer.sees (o : Order) : Viewer → Bool
  | .operator => true
  | .fuelCompany id => decide (o.fuelCompanyId = id)
  | .transportCompany fuelCompanyId id =>
      decide (o.fuelCompanyId = fuelCompanyId) && decide (o.transportCompanyId = some id)

def countOrders (viewer : Viewer) (p : Id × Order → Bool) (d : Docs Doc) : ℕ :=
  ((Docs.collect pickOrder d).filter fun o => viewer.sees o.2 && p o).length

def Order.deliveredIn (period : Period) (o : Order) : Bool :=
  o.status = .delivered && o.deliveredAt.any period.includes

def completedInPeriod (viewer : Viewer) (period : Period) (d : Docs Doc) : ℕ :=
  countOrders viewer (fun o => o.2.deliveredIn period) d

structure OutstandingSummary where
  amount : ℚ
  count : ℕ
deriving DecidableEq

/-- The unpaid invoices of a payment method. -/
def outstandingSummary (method : PaymentMethod) (sees : Invoice → Bool) (d : Docs Doc) :
    OutstandingSummary :=
  let outstanding := (Docs.collect pickInvoice d).filter fun x =>
    sees x.2 && decide (x.2.method = method ∧ x.2.state = .issued)
  { amount := roundCurrency (outstanding.map (·.2.amount)).sum, count := outstanding.length }

def Viewer.billed (x : Invoice) : Viewer → Bool
  | .operator => true
  | .fuelCompany id => decide (x.fuelCompanyId = id)
  | .transportCompany fuelCompanyId id =>
      decide (x.fuelCompanyId = fuelCompanyId) && decide (x.transportCompanyId = some id)

def getOutstandingSettlementsSummary (viewer : Viewer) : Docs Doc → OutstandingSummary :=
  outstandingSummary .deferred viewer.billed

def getCreditOutstandingSummary (viewer : Viewer) : Docs Doc → OutstandingSummary :=
  outstandingSummary .credit viewer.billed

/-- What each of the queries of a dashboard reads. -/
structure SummaryReads where
  waiting : Docs Doc
  inProgress : Docs Doc
  completed : Docs Doc
  users : Docs Doc
  invoices : Docs Doc
  /-- The owning company of each station. -/
  stations : List Id

structure OrderSummary where
  awaitingAssignment : ℕ
  inProgress : ℕ
  completedInPeriod : ℕ
  driversOnDuty : ℕ
  outstandingSettlements : OutstandingSummary

/-- The dashboard of a transport company. -/
def getSummary (fuelCompanyId companyId : Id) (period : Period) (reads : SummaryReads) :
    OrderSummary where
  awaitingAssignment := countOrders (.transportCompany fuelCompanyId companyId)
    (fun o => decide (o.2.status = .routedToTransport)) reads.waiting
  inProgress := countOrders (.transportCompany fuelCompanyId companyId)
    (fun o => (ORDER_STATUS_BUCKETS .inProgress).contains o.2.status) reads.inProgress
  completedInPeriod :=
    completedInPeriod (.transportCompany fuelCompanyId companyId) period reads.completed
  driversOnDuty := ((Docs.collect pickUser reads.users).filter fun u =>
    u.2.companyId = some companyId && u.2.role = .driver && u.2.isOnline).length
  outstandingSettlements :=
    getOutstandingSettlementsSummary (.transportCompany fuelCompanyId companyId) reads.invoices

structure FuelCompanySummary where
  pendingApproval : ℕ
  inProgress : ℕ
  completedInPeriod : ℕ
  stationOwnersCount : ℕ
  stationsCount : ℕ
  creditOutstanding : OutstandingSummary

def getFuelCompanySummary (companyId : Id) (period : Period) (reads : SummaryReads) :
    FuelCompanySummary where
  pendingApproval := countOrders (.fuelCompany companyId)
    (fun o => decide (o.2.status = .pendingApproval)) reads.waiting
  inProgress := countOrders (.fuelCompany companyId)
    (fun o => (ORDER_STATUS_BUCKETS .inProgress).contains o.2.status) reads.inProgress
  completedInPeriod := completedInPeriod (.fuelCompany companyId) period reads.completed
  stationOwnersCount := ((Docs.collect pickUser reads.users).filter fun u =>
    u.2.companyId = some companyId && u.2.role = .client).length
  stationsCount := reads.stations.count companyId
  creditOutstanding := getCreditOutstandingSummary (.fuelCompany companyId) reads.invoices

def allBuckets : List OrderStatusBucket :=
  [.new, .inProgress, .completed, .rejected, .cancelled, .needsAttention]

/-- Orders of a bucket that were created in the period. -/
def countBucket (createdAt : Id → Instant) (period : Period) (bucket : OrderStatusBucket)
    (d : Docs Doc) : ℕ :=
  countOrders .operator (fun o => (ORDER_STATUS_BUCKETS bucket).contains o.2.status &&
    period.includes (createdAt o.1)) d

structure PlatformSummary where
  buckets : OrderStatusBucket → ℕ
  total : ℕ

def getPlatformSummary (createdAt : Id → Instant) (period : Period)
    (reads : OrderStatusBucket → Docs Doc) : PlatformSummary :=
  let counts := fun bucket => countBucket createdAt period bucket (reads bucket)
  { buckets := counts, total := (allBuckets.map counts).sum }

structure DeliveredTotals where
  orderValue : ℚ
  litresMoved : ℚ
deriving DecidableEq

def sumDeliveredTotals (period : Period) (d : Docs Doc) : DeliveredTotals :=
  let delivered := (Docs.collect pickOrder d).filter fun o => o.2.deliveredIn period
  { orderValue := (delivered.map fun o => o.2.finalPrice.getD o.2.estimatedPrice).sum
    litresMoved := (delivered.map (·.2.quantityLiters)).sum }

/-- What a driver delivered since the start of the day. -/
def deliveriesSince (driverId : Id) (startOfDay : Instant) (d : Docs Doc) : ℕ :=
  countOrders .operator (fun o => decide (o.2.driverId = some driverId) &&
    decide (o.2.status = .delivered) && o.2.deliveredAt.any fun t => startOfDay ≤ t) d

/-! ### Deliveries stay as they are -/

/-- What the figures read of a delivered order. -/
structure Order.SameDelivery (o o' : Order) : Prop where
  status : o'.status = o.status
  deliveredAt : o'.deliveredAt = o.deliveredAt
  finalPrice : o'.finalPrice = o.finalPrice
  estimatedPrice : o'.estimatedPrice = o.estimatedPrice
  quantityLiters : o'.quantityLiters = o.quantityLiters
  fuelCompanyId : o'.fuelCompanyId = o.fuelCompanyId
  transportCompanyId : o'.transportCompanyId = o.transportCompanyId
  driverId : o'.driverId = o.driverId

def Order.DeliveredBy (o : Order) (t : Instant) : Prop :=
  o.status = .delivered ∧ ∃ at_ ≤ t, o.deliveredAt = some at_

section deliveries
variable {cfg : Settings} {time : ℕ → Instant} {c : Call} {o o' : Order} {t : Instant}

theorem Order.SameDelivery.refl (o : Order) : o.SameDelivery o :=
  ⟨rfl, rfl, rfl, rfl, rfl, rfl, rfl, rfl⟩

theorem Order.SameDelivery.trans {a b c : Order} (hab : a.SameDelivery b)
    (hbc : b.SameDelivery c) : a.SameDelivery c where
  status := hbc.status.trans hab.status
  deliveredAt := hbc.deliveredAt.trans hab.deliveredAt
  finalPrice := hbc.finalPrice.trans hab.finalPrice
  estimatedPrice := hbc.estimatedPrice.trans hab.estimatedPrice
  quantityLiters := hbc.quantityLiters.trans hab.quantityLiters
  fuelCompanyId := hbc.fuelCompanyId.trans hab.fuelCompanyId
  transportCompanyId := hbc.transportCompanyId.trans hab.transportCompanyId
  driverId := hbc.driverId.trans hab.driverId

theorem Order.SameDelivery.deliveredBy (h : o.SameDelivery o') :
    o'.DeliveredBy t ↔ o.DeliveredBy t := by
  rw [Order.DeliveredBy, Order.DeliveredBy, h.status, h.deliveredAt]

/-- A delivered order stays so. -/
theorem OrderStep.sameDelivery (h : OrderStep cfg time c o o') (hdelivered : o.status = .delivered) :
    o.SameDelivery o' := by
  cases h with
  | reassign => exact ⟨rfl, rfl, rfl, rfl, rfl, rfl, rfl, rfl⟩
  | attempt => exact ⟨rfl, rfl, rfl, rfl, rfl, rfl, rfl, rfl⟩
  | confirmInvoice => exact ⟨rfl, rfl, rfl, rfl, rfl, rfl, rfl, rfl⟩
  | replaceInvoice => exact ⟨rfl, rfl, rfl, rfl, rfl, rfl, rfl, rfl⟩
  | depart _ _ hstatus => cases hdelivered.symm.trans hstatus
  | route hstatus hedge =>
      rw [← hstatus, hdelivered] at hedge
      cases hedge
  | cancel hstatus hedge =>
      rw [← hstatus, hdelivered] at hedge
      cases hedge
  | forceComplete hstatus hedge =>
      rw [← hstatus, hdelivered] at hedge
      cases hedge
  | _ hstatus => cases hdelivered.symm.trans hstatus

/-- An order that is not delivered yet is delivered by the clock of the call. -/
theorem OrderStep.delivery (h : OrderStep cfg time c o o') (hlate : ∀ n, t < time n) :
    (o.status = .delivered ∧ o.SameDelivery o') ∨
      (o.status ≠ .delivered ∧ ¬ o'.DeliveredBy t) := by
  by_cases hdelivered : o.status = .delivered
  · exact .inl ⟨hdelivered, h.sameDelivery hdelivered⟩
  · refine .inr ⟨hdelivered, ?_⟩
    rintro ⟨hstatus', at_, hby, hat⟩
    have late : ∀ {source : OrderStatus} {actor : TransitionActor} {options : TransitionOptions}
        {n : ℕ}, (o.moved source .delivered actor options (time n)).deliveredAt ≠ some at_ := by
      intro source actor options n heq
      simp only [Order.moved, Order.transitioned_deliveredAt, historyEntry_target, if_true,
        historyEntry_at] at heq
      have := hlate n
      rw [Option.some.inj heq] at this
      exact absurd hby (not_le.mpr this)
    cases h with
    | reassign => exact hdelivered hstatus'
    | attempt => exact hdelivered hstatus'
    | confirmInvoice => exact hdelivered hstatus'
    | replaceInvoice => exact hdelivered hstatus'
    | complete => exact late hat
    | forceComplete => exact late hat
    | route hstatus hedge =>
        rename_i order source transportCompanyId deliveryFee actor invoiceId n
        obtain ⟨priceBreakdown, finalPrice, heq⟩ := Order.awaiting_eq cfg o order.id source
          transportCompanyId deliveryFee actor invoiceId (time n) (time (n + 1)) (time (n + 2))
          (time (n + 3))
        rw [heq] at hstatus'
        cases hstatus'
    | _ => cases (Order.moved_status ..).symm.trans hstatus'

/-- The deliveries up to `t` are the same, and of no order more. -/
structure DeliveriesKept (t : Instant) (a b : Db) : Prop where
  stored : ∀ id o, a.order id = some o → ∃ o', b.order id = some o' ∧
    (o.status = .delivered ∧ o.SameDelivery o' ∨ o.status ≠ .delivered ∧ ¬ o'.DeliveredBy t)
  new : ∀ id o', a.order id = none → b.order id = some o' → ¬ o'.DeliveredBy t

theorem DeliveriesKept.refl (t : Instant) (s : Db) : DeliveriesKept t s s where
  stored id o ho := by
    refine ⟨o, ho, ?_⟩
    by_cases hdelivered : o.status = .delivered
    · exact .inl ⟨hdelivered, .refl o⟩
    · exact .inr ⟨hdelivered, fun h => hdelivered h.1⟩
  new id o' hnone ho' := by cases hnone.symm.trans ho'

theorem DeliveriesKept.trans {a b c : Db} (hab : DeliveriesKept t a b) (hbc : DeliveriesKept t b c) :
    DeliveriesKept t a c where
  stored id o ho := by
    obtain ⟨o', ho', hkept⟩ := hab.stored id o ho
    obtain ⟨o'', ho'', hkept'⟩ := hbc.stored id o' ho'
    refine ⟨o'', ho'', ?_⟩
    rcases hkept with ⟨hdelivered, hsame⟩ | ⟨hnot, hlate⟩
    · rcases hkept' with ⟨-, hsame'⟩ | ⟨hnot', -⟩
      · exact .inl ⟨hdelivered, hsame.trans hsame'⟩
      · exact absurd (hsame.status.trans hdelivered) hnot'
    · refine .inr ⟨hnot, ?_⟩
      rcases hkept' with ⟨-, hsame'⟩ | ⟨-, hlate'⟩
      · rwa [hsame'.deliveredBy]
      · exact hlate'
  new id o'' hnone ho'' := by
    cases ho' : b.order id with
    | none => exact hbc.new id o'' ho' ho''
    | some o' =>
        have hlate := hab.new id o' hnone ho'
        obtain ⟨o₂, ho₂, hkept⟩ := hbc.stored id o' ho'
        obtain rfl := Option.some.inj (ho''.symm.trans ho₂)
        rcases hkept with ⟨-, hsame⟩ | ⟨-, hlate'⟩
        · rwa [hsame.deliveredBy]
        · exact hlate'

theorem commit_deliveries {since : Db} {ev : Event Doc Call.Reply} (hev : ev.Sound (machine cfg))
    (hholds : (evolution cfg since).Holds ev) (hlate : t < ev.began) :
    DeliveriesKept t ev.before ev.after := by
  have hclock : ∀ n, t < ev.env.time n := fun n => hlate.trans_le (hev.clock.2 n).1
  refine ⟨fun id o ho => ?_, fun id o' hnone ho' => ?_⟩
  all_goals
    rcases order_cases hev hholds.older hholds.pre id with ⟨-, heq⟩ |
      ⟨o₁, o₂, -, -, hbefore, hafter, -, hmove⟩ | ⟨fields, userId, -, hbefore, hafter⟩
  · rw [heq]
    exact (DeliveriesKept.refl t ev.before).stored id o ho
  · obtain rfl := Option.some.inj (ho.symm.trans hbefore)
    exact ⟨o₂, hafter, hmove.delivery hclock⟩
  · cases ho.symm.trans hbefore
  · cases ho'.symm.trans (heq.trans hnone)
  · cases hnone.symm.trans hbefore
  · obtain rfl := Option.some.inj (ho'.symm.trans hafter)
    intro hby
    cases hby.1

/-- Every delivery is still there. -/
def DeliveriesStay (a b : Db) : Prop :=
  ∀ id o, a.order id = some o → o.status = .delivered →
    ∃ o', b.order id = some o' ∧ o.SameDelivery o'

theorem DeliveriesStay.trans {a b c : Db} (hab : DeliveriesStay a b) (hbc : DeliveriesStay b c) :
    DeliveriesStay a c := by
  intro id o ho hdelivered
  obtain ⟨o', ho', hsame⟩ := hab id o ho hdelivered
  obtain ⟨o'', ho'', hsame'⟩ := hbc id o' ho' (hsame.status.trans hdelivered)
  exact ⟨o'', ho'', hsame.trans hsame'⟩

theorem commit_stays {since : Db} {ev : Event Doc Call.Reply} (hev : ev.Sound (machine cfg))
    (hholds : (evolution cfg since).Holds ev) : DeliveriesStay ev.before ev.after := by
  intro id o ho hdelivered
  rcases order_cases hev hholds.older hholds.pre id with ⟨-, heq⟩ |
    ⟨o₁, o₂, -, -, hbefore, hafter, -, hmove⟩ | ⟨fields, userId, -, hbefore, hafter⟩
  · exact ⟨o, heq.trans ho, .refl o⟩
  · obtain rfl := Option.some.inj (ho.symm.trans hbefore)
    exact ⟨o₂, hafter, hmove.sameDelivery hdelivered⟩
  · cases ho.symm.trans hbefore

end deliveries

/-! ### A period that is over -/

section figures
variable {M : Type} [AddCommMonoid M]

/-- A figure of the orders that were delivered in a period. -/
def figureWeight (p : Order → Bool) (f : Order → M) : (k : Key) → Doc k → M := fun k x =>
  ((pickOrder k x).filter fun o => p o.2).elim 0 fun o => f o.2

theorem figureWeight_order {p : Order → Bool} {f : Order → M} {d : Docs Doc} {id : Id} {o : Order}
    (ho : d.lookup (Key.order id) = some o) :
    d.weight (figureWeight p f) (.order id) = if p o = true then f o else 0 := by
  rw [Docs.weight_some ho, figureWeight, pickOrder, Option.filter]
  split_ifs <;> rfl

theorem figureWeight_other {p : Order → Bool} {f : Order → M} {d : Docs Doc} {k : Key}
    (h : ∀ id, k ≠ Key.order id) : d.weight (figureWeight p f) k = 0 := by
  unfold Docs.weight
  cases k with
  | order id => exact absurd rfl (h id)
  | _ => cases d.lookup _ <;> rfl

theorem sum_figure (p : Order → Bool) (f : Order → M) (d : Docs Doc) :
    (((Docs.collect pickOrder d).filter fun o => p o.2).map fun o => f o.2).sum =
      d.total (figureWeight p f) :=
  Docs.sum_selected pickOrder (fun o => p o.2) fun o => f o.2

/-- A figure of deliveries only, and of what stays as it is of them. -/
structure OfDeliveries (period : Period) (p : Order → Bool) (f : Order → M) : Prop where
  delivered : ∀ o, p o = true → o.deliveredIn period = true
  same : ∀ o o', o.SameDelivery o' → p o' = p o ∧ f o' = f o

theorem deliveredIn_iff {period : Period} {o : Order} : o.deliveredIn period = true ↔
    o.status = .delivered ∧ ∃ t, o.deliveredAt = some t ∧ period.from_ ≤ t ∧ t ≤ period.to_ := by
  simp [Order.deliveredIn, Period.includes, Option.any_eq_true]

theorem OfDeliveries.total_eq {period : Period} {p : Order → Bool} {f : Order → M} {a b : Db}
    (h : OfDeliveries period p f) (hkept : DeliveriesKept period.to_ a b) :
    b.docs.total (figureWeight p f) = a.docs.total (figureWeight p f) := by
  have hby : ∀ o, p o = true → o.DeliveredBy period.to_ := by
    intro o ho
    obtain ⟨hstatus, t, ht, -, hle⟩ := deliveredIn_iff.mp (h.delivered o ho)
    exact ⟨hstatus, t, hle, ht⟩
  refine Docs.total_congr fun k => ?_
  cases k with
  | order id =>
      cases ha : a.docs.lookup (Key.order id) with
      | none =>
          rw [Docs.weight_none ha]
          cases hb : b.docs.lookup (Key.order id) with
          | none => exact Docs.weight_none hb
          | some o' =>
              rw [figureWeight_order hb, if_neg fun hp => hkept.new id o' ha hb (hby o' hp)]
      | some o =>
          obtain ⟨o', hb, hcases⟩ := hkept.stored id o ha
          rw [figureWeight_order ha, figureWeight_order hb]
          rcases hcases with ⟨-, hsame⟩ | ⟨hnot, hlate⟩
          · rw [(h.same o o' hsame).1, (h.same o o' hsame).2]
          · rw [if_neg fun hp => hlate (hby o' hp), if_neg fun hp => hnot (hby o hp).1]
  | _ => rw [figureWeight_other (by simp), figureWeight_other (by simp)]

end figures

theorem deliveredIn_same {period : Period} {o o' : Order} (h : o.SameDelivery o') :
    o'.deliveredIn period = o.deliveredIn period := by
  rw [Order.deliveredIn, Order.deliveredIn, h.status, h.deliveredAt]

theorem sees_same {viewer : Viewer} {o o' : Order} (h : o.SameDelivery o') :
    viewer.sees o' = viewer.sees o := by
  cases viewer <;> simp [Viewer.sees, h.fuelCompanyId, h.transportCompanyId]

theorem sumDeliveredTotals_kept {period : Period} {a b : Db}
    (h : DeliveriesKept period.to_ a b) :
    sumDeliveredTotals period b.docs = sumDeliveredTotals period a.docs := by
  have hvalue : OfDeliveries period (·.deliveredIn period)
      fun o => o.finalPrice.getD o.estimatedPrice :=
    ⟨fun _ ho => ho, fun _ _ hsame =>
      ⟨deliveredIn_same hsame, by rw [hsame.finalPrice, hsame.estimatedPrice]⟩⟩
  have hlitres : OfDeliveries period (·.deliveredIn period) (·.quantityLiters) :=
    ⟨fun _ ho => ho, fun _ _ hsame => ⟨deliveredIn_same hsame, hsame.quantityLiters⟩⟩
  simp only [sumDeliveredTotals, DeliveredTotals.mk.injEq]
  constructor
  · rw [sum_figure (·.deliveredIn period) fun o => o.finalPrice.getD o.estimatedPrice,
      sum_figure (·.deliveredIn period) fun o => o.finalPrice.getD o.estimatedPrice,
      hvalue.total_eq h]
  · rw [sum_figure (·.deliveredIn period) (·.quantityLiters),
      sum_figure (·.deliveredIn period) (·.quantityLiters), hlitres.total_eq h]

theorem completedInPeriod_kept {viewer : Viewer} {period : Period} {a b : Db}
    (h : DeliveriesKept period.to_ a b) :
    completedInPeriod viewer period b.docs = completedInPeriod viewer period a.docs := by
  have hfigure : OfDeliveries period (fun o => viewer.sees o && o.deliveredIn period)
      fun _ => (1 : ℕ) := by
    refine ⟨fun o ho => (Bool.and_eq_true_iff.mp ho).2, fun o o' hsame => ⟨?_, rfl⟩⟩
    rw [deliveredIn_same hsame, sees_same hsame]
  have hcount : ∀ d : Docs Doc, completedInPeriod viewer period d =
      d.total (figureWeight (fun o => viewer.sees o && o.deliveredIn period) fun _ => 1) := by
    intro d
    rw [← sum_figure, completedInPeriod, countOrders]
    simp
  rw [hcount, hcount, hfigure.total_eq h]

/-- Once a period is over, and every transaction that still commits began after its end,
what was delivered in it is counted the same ever after, for everyone who asks. -/
theorem closed_period {cfg : Settings} {P : Event Doc Call.Reply → Prop} {init : Db}
    {later earlier : List (Event Doc Call.Reply)} {s : Sys Doc Call.Reply Refusal Answer}
    (hinit : Consistent cfg init) (h : Run (machine cfg) init P (later ++ earlier) s)
    (period : Period) (hover : ∀ ev ∈ later, period.to_ < ev.began) :
    sumDeliveredTotals period s.store.docs =
        sumDeliveredTotals period (leaves init earlier).docs ∧
      (∀ viewer, completedInPeriod viewer period s.store.docs =
        completedInPeriod viewer period (leaves init earlier).docs) ∧
      ∀ fuelCompanyId companyId reads reads', reads.completed = s.store.docs →
        reads'.completed = (leaves init earlier).docs →
        (getSummary fuelCompanyId companyId period reads).completedInPeriod =
            (getSummary fuelCompanyId companyId period reads').completedInPeriod ∧
          (getFuelCompanySummary companyId period reads).completedInPeriod =
            (getFuelCompanySummary companyId period reads').completedInPeriod := by
  obtain ⟨-, hrun⟩ := db_invariant (I := fun _ => True) hinit trivial
    (fun _ _ _ _ _ _ => trivial) h
  have hkept : DeliveriesKept period.to_ (leaves init earlier) s.store := by
    refine hrun.since (J := fun s' => DeliveriesKept period.to_ (leaves init earlier) s')
      (.refl _ _) fun ev hmem hev hP hbefore => ?_
    exact hbefore.trans (commit_deliveries hev hP.2.1 (hover ev hmem))
  have hcompleted : ∀ viewer, completedInPeriod viewer period s.store.docs =
      completedInPeriod viewer period (leaves init earlier).docs :=
    fun viewer => completedInPeriod_kept hkept
  refine ⟨sumDeliveredTotals_kept hkept, hcompleted, ?_⟩
  intro fuelCompanyId companyId reads reads' h h'
  simp only [getSummary, getFuelCompanySummary, h, h', hcompleted, and_self]

/-! ### The deliveries of a day -/

/-- The delivery counts towards what the driver delivered since then. -/
def Order.deliveredSince (driverId : Id) (startOfDay : Instant) (o : Order) : Bool :=
  decide (o.driverId = some driverId) && decide (o.status = .delivered) &&
    o.deliveredAt.any fun t => startOfDay ≤ t

theorem deliveriesSince_eq (driverId : Id) (startOfDay : Instant) (d : Docs Doc) :
    deliveriesSince driverId startOfDay d =
      d.total (figureWeight (·.deliveredSince driverId startOfDay) fun _ => 1) := by
  rw [← sum_figure, deliveriesSince, countOrders]
  simp [Viewer.sees, Order.deliveredSince]

theorem deliveriesSince_mono {a b : Db} (h : DeliveriesStay a b) (driverId : Id)
    (startOfDay : Instant) : deliveriesSince driverId startOfDay a.docs ≤
      deliveriesSince driverId startOfDay b.docs := by
  rw [deliveriesSince_eq, deliveriesSince_eq]
  refine Docs.total_le_total fun k => ?_
  cases k with
  | order id =>
      cases ha : a.docs.lookup (Key.order id) with
      | none =>
          rw [Docs.weight_none ha]
          exact Nat.zero_le _
      | some o =>
          rw [figureWeight_order ha]
          split_ifs with hsince
          · have hdelivered : o.status = .delivered := by
              simp only [Order.deliveredSince, Bool.and_eq_true, decide_eq_true_eq] at hsince
              exact hsince.1.2
            obtain ⟨o', hb, hsame⟩ := h id o ha hdelivered
            rw [figureWeight_order hb, Order.deliveredSince, hsame.driverId, hsame.status,
              hsame.deliveredAt]
            exact (if_pos hsince).ge
          · exact Nat.zero_le _
  | _ => rw [figureWeight_other (by simp), figureWeight_other (by simp)]

/-- What a driver is shown to have delivered since the start of the day never goes down. -/
theorem deliveries_only_grow {cfg : Settings} {P : Event Doc Call.Reply → Prop} {init : Db}
    {later earlier : List (Event Doc Call.Reply)} {s : Sys Doc Call.Reply Refusal Answer}
    (hinit : Consistent cfg init) (h : Run (machine cfg) init P (later ++ earlier) s)
    (driverId : Id) (startOfDay : Instant) :
    deliveriesSince driverId startOfDay (leaves init earlier).docs ≤
      deliveriesSince driverId startOfDay s.store.docs := by
  obtain ⟨-, hrun⟩ := db_invariant (I := fun _ => True) hinit trivial
    (fun _ _ _ _ _ _ => trivial) h
  have hstay : DeliveriesStay (leaves init earlier) s.store := by
    refine hrun.since (J := fun s' => DeliveriesStay (leaves init earlier) s')
      (fun id o ho _ => ⟨o, ho, .refl o⟩) fun ev hmem hev hP hbefore => ?_
    exact hbefore.trans (commit_stays hev hP.2.1)
  exact deliveriesSince_mono hstay driverId startOfDay

/-! ### Counts of different moments -/

/-- The bucket of a status, as the client shows it. -/
def bucketForStatus (status : OrderStatus) : Option OrderStatusBucket :=
  allBuckets.find? fun bucket => (ORDER_STATUS_BUCKETS bucket).contains status

theorem contains_iff (bucket : OrderStatusBucket) (status : OrderStatus) :
    (ORDER_STATUS_BUCKETS bucket).contains status = true ↔ bucketForStatus status = some bucket := by
  cases bucket <;> cases status <;> decide

theorem mem_allBuckets (bucket : OrderStatusBucket) : bucket ∈ allBuckets := by
  cases bucket <;> decide

/-- The bucket of an order, if it is there. -/
def bucketAt (d : Docs Doc) (id : Id) : Option OrderStatusBucket :=
  (d.lookup (Key.order id)).bind fun o : Order => bucketForStatus o.status

section moments
variable {cfg : Settings} {P : Event Doc Call.Reply → Prop} {init : Db}
variable {log : List (Event Doc Call.Reply)} {s : Sys Doc Call.Reply Refusal Answer}

theorem progress_between {later earlier : List (Event Doc Call.Reply)}
    (hinit : Consistent cfg init) (h : Run (machine cfg) init P (later ++ earlier) s) :
    Progress (leaves init earlier) s.store := by
  obtain ⟨-, hrun⟩ := db_invariant (I := fun _ => True) hinit trivial
    (fun _ _ _ _ _ _ => trivial) h
  refine hrun.since (J := Progress (leaves init earlier)) (.refl _) fun ev _ _ hP hbefore => ?_
  exact hbefore.trans hP.2.1.before_after

/-- Of two moments of a run, the state at the later has grown out of that at the earlier. -/
theorem progress_drop (hinit : Consistent cfg init) (h : Run (machine cfg) init P log s) {i j : ℕ}
    (hij : i ≤ j) : Progress (leaves init (log.drop j)) (leaves init (log.drop i)) := by
  rw [← List.take_append_drop i log] at h
  obtain ⟨s', hrun⟩ := h.cut
  have hlater : log.drop i = (log.drop i).take (j - i) ++ log.drop j := by
    conv_lhs => rw [← List.take_append_drop (j - i) (log.drop i)]
    rw [List.drop_drop, Nat.add_sub_cancel' hij]
  rw [← hrun.leaves]
  rw [hlater] at hrun
  exact progress_between hinit hrun

/-- No edge leaves the three statuses. -/
theorem permits_final {status : OrderStatus} {bucket : OrderStatusBucket}
    (hfinal : bucket = .completed ∨ bucket = .rejected ∨ bucket = .cancelled)
    (hbucket : bucketForStatus status = some bucket) (target : OrderStatus) (override : Bool) :
    permits status target override = false := by
  have hnone : transitions status = [] := by
    rcases hfinal with rfl | rfl | rfl <;> cases status <;> first | rfl | cases hbucket
  rw [permits, hnone]
  rfl

/-- An order that is delivered, rejected or cancelled stays in its bucket. -/
theorem bucketAt_final {a b : Db} (h : Progress a b) {id : Id} {bucket : OrderStatusBucket}
    (hfinal : bucket = .completed ∨ bucket = .rejected ∨ bucket = .cancelled)
    (ha : bucketAt a.docs id = some bucket) : bucketAt b.docs id = some bucket := by
  obtain ⟨o, ho, hbucket⟩ := Option.bind_eq_some_iff.mp ha
  obtain ⟨o', ho', hevolves⟩ := h.orders id o ho
  have hstatus : o'.status = o.status := by
    refine hevolves.closed (S := (· = o.status)) ?_ rfl
    rintro x y override rfl hedge
    cases (permits_final hfinal hbucket y override).symm.trans hedge
  refine Option.bind_eq_some_iff.mpr ⟨o', ho', ?_⟩
  rw [hstatus]
  exact hbucket

end moments

/-- In how many of six buckets an order is counted, that is in the bucket `at_ b` when the
bucket `b` is. -/
def tally (at_ : OrderStatusBucket → Option OrderStatusBucket) : ℕ :=
  (allBuckets.map fun bucket => if at_ bucket = some bucket then 1 else 0).sum

theorem tally_const {at_ : OrderStatusBucket → Option OrderStatusBucket}
    {bucket : OrderStatusBucket} (h : ∀ b, at_ b = some bucket) : tally at_ = 1 := by
  simp only [tally, h]
  cases bucket <;> decide

def IsFinal (bucket : OrderStatusBucket) : Prop :=
  bucket = .completed ∨ bucket = .rejected ∨ bucket = .cancelled

/-- Of the three that are final only one can count it. -/
theorem tally_le_four {at_ : OrderStatusBucket → Option OrderStatusBucket}
    (h : ∀ b b', IsFinal b → IsFinal b' → at_ b = some b → at_ b' = some b' → b = b') :
    tally at_ ≤ 4 := by
  have hcr := h .completed .rejected (.inl rfl) (.inr (.inl rfl))
  have hcc := h .completed .cancelled (.inl rfl) (.inr (.inr rfl))
  have hrc := h .rejected .cancelled (.inr (.inl rfl)) (.inr (.inr rfl))
  have hone : ∀ b, (if at_ b = some b then 1 else 0) ≤ 1 := by
    intro b
    split_ifs <;> decide
  have hfinal : (if at_ .completed = some .completed then 1 else 0) +
      (if at_ .rejected = some .rejected then 1 else 0) +
      (if at_ .cancelled = some .cancelled then 1 else 0) ≤ 1 := by
    by_cases hc : at_ .completed = some .completed
    · have hr : at_ .rejected ≠ some .rejected := fun hr => by cases hcr hc hr
      have hx : at_ .cancelled ≠ some .cancelled := fun hx => by cases hcc hc hx
      simp [hc, hr, hx]
    · by_cases hr : at_ .rejected = some .rejected
      · have hx : at_ .cancelled ≠ some .cancelled := fun hx => by cases hrc hr hx
        simp [hc, hr, hx]
      · rw [if_neg hc, if_neg hr, Nat.zero_add]
        exact hone .cancelled
  have hnew := hone .new
  have hprogress := hone .inProgress
  have hattention := hone .needsAttention
  simp only [tally, allBuckets, List.map_cons, List.map_nil, List.sum_cons, List.sum_nil]
  omega

/-! ### As sums over the orders -/

def countWeight (p : Id × Order → Bool) : (k : Key) → Doc k → ℕ := fun k x =>
  ((pickOrder k x).filter p).elim 0 fun _ => 1

theorem length_eq_total (p : Id × Order → Bool) (d : Docs Doc) :
    ((Docs.collect pickOrder d).filter p).length = d.total (countWeight p) := by
  have hlength : ((Docs.collect pickOrder d).filter p).length =
      (((Docs.collect pickOrder d).filter p).map fun _ => 1).sum := by simp
  exact hlength.trans (Docs.sum_selected pickOrder p fun _ => 1)

theorem countWeight_order {p : Id × Order → Bool} {d : Docs Doc} {id : Id} :
    d.weight (countWeight p) (.order id) =
      if (d.lookup (Key.order id)).any (fun o : Order => p (id, o)) then 1 else 0 := by
  cases ho : d.lookup (Key.order id) with
  | none => exact Docs.weight_none ho
  | some o =>
      rw [Docs.weight_some ho, countWeight, pickOrder, Option.filter, Option.any_some]
      split_ifs <;> rfl

theorem countWeight_other {p : Id × Order → Bool} {d : Docs Doc} {k : Key}
    (h : ∀ id, k ≠ Key.order id) : d.weight (countWeight p) k = 0 := by
  unfold Docs.weight
  cases k with
  | order id => exact absurd rfl (h id)
  | _ => cases d.lookup _ <;> rfl

section platform
variable {createdAt : Id → Instant} {period : Period} {reads : OrderStatusBucket → Docs Doc}

/-- What an order of the period adds to the count of a bucket. -/
def bucketWeight (createdAt : Id → Instant) (period : Period) (bucket : OrderStatusBucket) :
    (k : Key) → Doc k → ℕ :=
  countWeight fun o => (ORDER_STATUS_BUCKETS bucket).contains o.2.status &&
    period.includes (createdAt o.1)

theorem countBucket_eq (bucket : OrderStatusBucket) (d : Docs Doc) :
    countBucket createdAt period bucket d = d.total (bucketWeight createdAt period bucket) := by
  rw [countBucket, countOrders, bucketWeight, ← length_eq_total]
  simp [Viewer.sees]

theorem bucketWeight_order (bucket : OrderStatusBucket) (d : Docs Doc) (id : Id) :
    d.weight (bucketWeight createdAt period bucket) (.order id) =
      if period.includes (createdAt id) = true ∧ bucketAt d id = some bucket then 1 else 0 := by
  rw [bucketWeight, countWeight_order]
  congr 1
  cases ho : d.lookup (Key.order id) with
  | none => simp [bucketAt, ho]
  | some o =>
      simp only [Option.any_some, Bool.and_eq_true, contains_iff, bucketAt, ho, Option.bind_some,
        eq_iff_iff]
      exact and_comm

/-- The order is in the same bucket whenever a count is taken, and at the end. -/
def stays (reads : OrderStatusBucket → Docs Doc) (d : Docs Doc) (id : Id) : Bool :=
  allBuckets.all fun bucket => decide (bucketAt (reads bucket) id = bucketAt d id)

theorem stays_iff {d : Docs Doc} {id : Id} :
    stays reads d id = true ↔ ∀ bucket, bucketAt (reads bucket) id = bucketAt d id := by
  simp only [stays, List.all_eq_true, decide_eq_true_eq]
  exact ⟨fun h bucket => h bucket (mem_allBuckets bucket), fun h bucket _ => h bucket⟩

/-- The orders of the period that stay in their bucket, or that do not. -/
def settledOrders (createdAt : Id → Instant) (period : Period) (reads : OrderStatusBucket → Docs Doc)
    (d : Docs Doc) : ℕ :=
  ((Docs.collect pickOrder d).filter fun o =>
    period.includes (createdAt o.1) && stays reads d o.1).length

def movedOrders (createdAt : Id → Instant) (period : Period) (reads : OrderStatusBucket → Docs Doc)
    (d : Docs Doc) : ℕ :=
  ((Docs.collect pickOrder d).filter fun o =>
    period.includes (createdAt o.1) && !stays reads d o.1).length

end platform

theorem total_eq_tallies {createdAt : Id → Instant} {period : Period}
    {reads : OrderStatusBucket → Docs Doc} {S : Finset Key}
    (hS : ∀ bucket, ∀ k ∈ reads bucket, k ∈ S) :
    (getPlatformSummary createdAt period reads).total =
      ∑ k ∈ S, (allBuckets.map fun bucket =>
        (reads bucket).weight (bucketWeight createdAt period bucket) k).sum := by
  have hcount : ∀ bucket, countBucket createdAt period bucket (reads bucket) =
      ∑ k ∈ S, (reads bucket).weight (bucketWeight createdAt period bucket) k := by
    intro bucket
    rw [countBucket_eq, Docs.total_eq_sum (hS bucket)]
  simp only [getPlatformSummary, hcount, allBuckets, List.map_cons, List.map_nil, List.sum_cons,
    List.sum_nil, Finset.sum_add_distrib, Finset.sum_const_zero]

theorem exists_bucketAt {d : Docs Doc} {id : Id} {o : Order}
    (ho : d.lookup (Key.order id) = some o) : ∃ bucket, bucketAt d id = some bucket := by
  rw [bucketAt, ho, Option.bind_some]
  cases o.status <;> exact ⟨_, rfl⟩

theorem order_tally {createdAt : Id → Instant} {period : Period}
    {reads : OrderStatusBucket → Docs Doc} (id : Id) :
    (allBuckets.map fun bucket =>
      (reads bucket).weight (bucketWeight createdAt period bucket) (.order id)).sum =
      if period.includes (createdAt id) = true then tally fun b => bucketAt (reads b) id else 0 := by
  simp only [bucketWeight_order, tally]
  split_ifs with hperiod <;> simp [hperiod]

/-- What one order adds to the counts, seen from the end. -/
theorem order_counted {createdAt : Id → Instant} {period : Period}
    {reads : OrderStatusBucket → Docs Doc} {d : Docs Doc} {id : Id}
    (hgone : d.lookup (Key.order id) = none → ∀ b, bucketAt (reads b) id = none)
    (hfinal : ∀ b b', IsFinal b → IsFinal b' → bucketAt (reads b) id = some b →
      bucketAt (reads b') id = some b' → b = b') {settled moved : ℕ}
    (hsettled : settled = if (d.lookup (Key.order id)).isSome = true ∧
      period.includes (createdAt id) = true ∧ stays reads d id = true then 1 else 0)
    (hmoved : moved = if (d.lookup (Key.order id)).isSome = true ∧
      period.includes (createdAt id) = true ∧ stays reads d id = false then 1 else 0) :
    settled ≤ (if period.includes (createdAt id) = true then
        tally fun b => bucketAt (reads b) id else 0) ∧
      (if period.includes (createdAt id) = true then tally fun b => bucketAt (reads b) id else 0) ≤
        settled + 4 * moved := by
  by_cases hperiod : period.includes (createdAt id) = true
  · rw [if_pos hperiod]
    cases ho : d.lookup (Key.order id) with
    | none =>
        have hzero : (tally fun b => bucketAt (reads b) id) = 0 := by
          simp only [hgone ho]
          decide
        simp [ho, hzero, hsettled]
    | some o =>
        by_cases hstays : stays reads d id = true
        · have hone : (tally fun b => bucketAt (reads b) id) = 1 := by
            obtain ⟨bucket, hbucket⟩ := exists_bucketAt ho
            exact tally_const fun b => (stays_iff.mp hstays b).trans hbucket
          simp [ho, hperiod, hstays, hone, hsettled]
        · have hfour := tally_le_four hfinal
          simp only [ho, hperiod, Bool.eq_false_of_not_eq_true hstays] at hsettled hmoved
          simp at hsettled hmoved
          omega
  · rw [if_neg hperiod, hsettled]
    simp [hperiod]

/-- One set of keys for the documents at the end and at each of the counts. -/
theorem exists_keys (d : Docs Doc) (reads : OrderStatusBucket → Docs Doc) :
    ∃ S : Finset Key, (∀ k ∈ d, k ∈ S) ∧ ∀ bucket, ∀ k ∈ reads bucket, k ∈ S := by
  refine ⟨(d.keys ++ allBuckets.flatMap fun bucket => (reads bucket).keys).toFinset, ?_, ?_⟩
  · intro k hk
    exact List.mem_toFinset.mpr (List.mem_append_left _ (AList.mem_keys.mp hk))
  · intro bucket k hk
    have hmem : k ∈ allBuckets.flatMap fun bucket => (reads bucket).keys :=
      List.mem_flatMap.mpr ⟨bucket, mem_allBuckets bucket, AList.mem_keys.mp hk⟩
    exact List.mem_toFinset.mpr (List.mem_append_right _ hmem)

/-- Counts of one moment add up to the orders of the period. -/
theorem platform_total_eq (createdAt : Id → Instant) (period : Period) (d : Docs Doc) :
    (getPlatformSummary createdAt period fun _ => d).total =
      countOrders .operator (fun o => period.includes (createdAt o.1)) d := by
  obtain ⟨S, hin, hread⟩ := exists_keys d fun _ => d
  have hcount : countOrders .operator (fun o => period.includes (createdAt o.1)) d =
      d.total (countWeight fun o => period.includes (createdAt o.1)) := by
    rw [countOrders, ← length_eq_total]
    simp [Viewer.sees]
  rw [total_eq_tallies hread, hcount, Docs.total_eq_sum hin]
  refine Finset.sum_congr rfl fun k _ => ?_
  by_cases hk : ∃ id, k = Key.order id
  · obtain ⟨id, rfl⟩ := hk
    rw [order_tally, countWeight_order]
    cases ho : d.lookup (Key.order id) with
    | none =>
        have hnone : bucketAt d id = none := by rw [bucketAt, ho, Option.bind_none]
        have hzero : (tally fun _ => bucketAt d id) = 0 := by
          rw [hnone]
          decide
        rw [hzero, ite_self, Option.any_none, if_neg Bool.false_ne_true]
    | some o =>
        obtain ⟨bucket, hbucket⟩ := exists_bucketAt ho
        rw [tally_const fun _ => hbucket, Option.any_some]
  · have hother : ∀ id, k ≠ Key.order id := fun id heq => hk ⟨id, heq⟩
    have hzero : ∀ bucket, d.weight (bucketWeight createdAt period bucket) k = 0 :=
      fun bucket => countWeight_other hother
    simp [countWeight_other hother, hzero]

section moments
variable {cfg : Settings} {P : Event Doc Call.Reply → Prop} {init : Db}
variable {log : List (Event Doc Call.Reply)} {s : Sys Doc Call.Reply Refusal Answer}

/-- What one document adds to the six counts, seen from the end. -/
theorem key_counted (hinit : Consistent cfg init) (h : Run (machine cfg) init P log s)
    (createdAt : Id → Instant) (period : Period) (reads : OrderStatusBucket → Docs Doc)
    (moment : OrderStatusBucket → ℕ)
    (hreads : ∀ bucket, reads bucket = (leaves init (log.drop (moment bucket))).docs) (k : Key) :
    s.store.docs.weight (countWeight fun o =>
        period.includes (createdAt o.1) && stays reads s.store.docs o.1) k ≤
        (allBuckets.map fun bucket =>
          (reads bucket).weight (bucketWeight createdAt period bucket) k).sum ∧
      (allBuckets.map fun bucket =>
          (reads bucket).weight (bucketWeight createdAt period bucket) k).sum ≤
        s.store.docs.weight (countWeight fun o =>
          period.includes (createdAt o.1) && stays reads s.store.docs o.1) k +
          4 * s.store.docs.weight (countWeight fun o =>
            period.includes (createdAt o.1) && !stays reads s.store.docs o.1) k := by
  by_cases hk : ∃ id, k = Key.order id
  · obtain ⟨id, rfl⟩ := hk
    rw [order_tally]
    refine order_counted (d := s.store.docs) (fun hgone b => ?_) (fun b b' hb hb' hat hat' => ?_)
      ?_ ?_
    · have hend : Progress (leaves init (log.drop (moment b))) s.store := by
        rw [h.leaves]
        exact progress_drop hinit h (Nat.zero_le _)
      rw [hreads b, bucketAt]
      cases ho : (leaves init (log.drop (moment b))).docs.lookup (Key.order id) with
      | none => rfl
      | some o =>
          obtain ⟨o', ho', -⟩ := hend.orders id o ho
          cases hgone.symm.trans ho'
    · rw [hreads] at hat hat'
      rcases le_total (moment b) (moment b') with hle | hle
      · have hlater := bucketAt_final (progress_drop hinit h hle) hb' hat'
        exact Option.some.inj (hat.symm.trans hlater)
      · have hlater := bucketAt_final (progress_drop hinit h hle) hb hat
        exact (Option.some.inj (hat'.symm.trans hlater)).symm
    · rw [countWeight_order]
      congr 1
      cases s.store.docs.lookup (Key.order id) <;> simp
    · rw [countWeight_order]
      congr 1
      cases s.store.docs.lookup (Key.order id) <;> simp
  · have hother : ∀ id, k ≠ Key.order id := fun id heq => hk ⟨id, heq⟩
    have hzero : ∀ bucket, (reads bucket).weight (bucketWeight createdAt period bucket) k = 0 :=
      fun bucket => countWeight_other hother
    simp [countWeight_other hother, hzero]

/-- The six counts of one page, each taken at some moment of a run, in any order. An order
that stays in its bucket until the last of them is counted once; one that does not is
counted four times at most, and may be missed. -/
theorem platform_total_near (hinit : Consistent cfg init) (h : Run (machine cfg) init P log s)
    (createdAt : Id → Instant) (period : Period) (reads : OrderStatusBucket → Docs Doc)
    (moment : OrderStatusBucket → ℕ)
    (hreads : ∀ bucket, reads bucket = (leaves init (log.drop (moment bucket))).docs) :
    settledOrders createdAt period reads s.store.docs ≤
        (getPlatformSummary createdAt period reads).total ∧
      (getPlatformSummary createdAt period reads).total ≤
        settledOrders createdAt period reads s.store.docs +
          4 * movedOrders createdAt period reads s.store.docs := by
  obtain ⟨S, hin, hread⟩ := exists_keys s.store.docs reads
  have hkey := key_counted hinit h createdAt period reads moment hreads
  rw [total_eq_tallies hread, settledOrders, movedOrders, length_eq_total, length_eq_total,
    Docs.total_eq_sum hin, Docs.total_eq_sum hin, Finset.mul_sum, ← Finset.sum_add_distrib]
  exact ⟨Finset.sum_le_sum fun k _ => (hkey k).1, Finset.sum_le_sum fun k _ => (hkey k).2⟩

end moments

namespace Sample

/-- An order that is delivered, and another one a second later. -/
def deliveredThenOrdered : List (Act Request) :=
  paidDelivery ++ serve (.overrideVerification transportAdmin 100 "checked by hand") 14 3 ++
    serve (.forceComplete fuelAdmin 100 "no code") 15 4 ++ [.tick 1000] ++
    serve (.create client (order .direct)) 16 6 400

end Sample

theorem closed_period_ordered : ∃ later earlier s,
    Run (machine Sample.cfg) Store.empty (fun _ => True) (later ++ earlier) s ∧ later ≠ [] ∧
      sumDeliveredTotals ⟨0, 500⟩ s.store.docs = ⟨4945 / 2, 1000⟩ := by
  obtain ⟨log, s, hrun, htest⟩ := exists_run (machine Sample.cfg) Store.empty (fun _ => True)
    Sample.deliveredThenOrdered
    (fun log _ => (!(log.take 1).isEmpty && (log.take 1).all fun ev => decide (500 < ev.began)) &&
      decide (sumDeliveredTotals ⟨0, 500⟩ (leaves Store.empty (log.drop 1)).docs =
        ⟨4945 / 2, 1000⟩)) (by decide +kernel)
  simp only [Bool.and_eq_true, decide_eq_true_eq, List.all_eq_true] at htest
  obtain ⟨⟨hsome, hlate⟩, htotals⟩ := htest
  have hcut : Run (machine Sample.cfg) Store.empty (fun _ => True) (log.take 1 ++ log.drop 1) s := by
    rwa [List.take_append_drop]
  refine ⟨_, _, s, hcut, by simpa using hsome, ?_⟩
  rw [(closed_period consistent_empty hcut ⟨0, 500⟩ hlate).1, htotals]

theorem deliveries_only_grow_delivered : ∃ later earlier s,
    Run (machine Sample.cfg) Store.empty (fun _ => True) (later ++ earlier) s ∧ later ≠ [] ∧
      deliveriesSince 30 0 (leaves Store.empty earlier).docs = 1 ∧
      1 ≤ deliveriesSince 30 0 s.store.docs := by
  obtain ⟨log, s, hrun, htest⟩ := exists_run (machine Sample.cfg) Store.empty (fun _ => True)
    Sample.deliveredThenOrdered
    (fun log _ => !(log.take 1).isEmpty &&
      decide (deliveriesSince 30 0 (leaves Store.empty (log.drop 1)).docs = 1)) (by decide +kernel)
  simp only [Bool.and_eq_true, decide_eq_true_eq] at htest
  have hcut : Run (machine Sample.cfg) Store.empty (fun _ => True) (log.take 1 ++ log.drop 1) s := by
    rwa [List.take_append_drop]
  have hgrow := deliveries_only_grow consistent_empty hcut 30 0
  rw [htest.2] at hgrow
  exact ⟨_, _, s, hcut, by simpa using htest.1, htest.2, hgrow⟩

/-- The orders under way are counted before the delivery, and the rest after it. -/
def Sample.moment : OrderStatusBucket → ℕ
  | .inProgress => 2
  | _ => 0

def Sample.bucketReads (log : List (Event Doc Call.Reply)) (bucket : OrderStatusBucket) : Docs Doc :=
  (leaves Store.empty (log.drop (moment bucket))).docs

theorem platform_total_near_moved : ∃ log s,
    Run (machine Sample.cfg) Store.empty (fun _ => True) log s ∧
      (getPlatformSummary (fun _ => 0) ⟨0, 500⟩ (Sample.bucketReads log)).total = 3 ∧
      3 ≤ settledOrders (fun _ => 0) ⟨0, 500⟩ (Sample.bucketReads log) s.store.docs +
        4 * movedOrders (fun _ => 0) ⟨0, 500⟩ (Sample.bucketReads log) s.store.docs := by
  obtain ⟨log, s, hrun, htest⟩ := exists_run (machine Sample.cfg) Store.empty (fun _ => True)
    Sample.deliveredThenOrdered
    (fun log _ => decide ((getPlatformSummary (fun _ => 0) ⟨0, 500⟩
      (Sample.bucketReads log)).total = 3)) (by decide +kernel)
  have htotal := of_decide_eq_true htest
  refine ⟨log, s, hrun, htotal, ?_⟩
  rw [← htotal]
  exact (platform_total_near consistent_empty hrun (fun _ => 0) ⟨0, 500⟩ (Sample.bucketReads log)
    Sample.moment fun _ => rfl).2

end CiroFuel
