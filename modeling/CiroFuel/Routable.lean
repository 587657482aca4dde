import CiroFuel.Returning

/-!
# Orders that await routing

An order is parked when no transport company was chosen for it. From there the
route endpoint moves it on, if the order has not been routed before: a timeout
takes a routed order back to `approved`, from where it may be parked with its
invoice, and routing it then issues a second one, which the index refuses.
-/
namespace CiroFuel
open Snapshot Tx

/-! ### Where a route call succeeds -/

/-- What the transport company charges for hauling the order, if it is active and
serves the client's region at a rate, and a warehouse supplies the grade. -/
def haulFee (cfg : Settings) (d : Docs Doc) (o : Order) (transportCompanyId : Id) : Option ℚ := do
  let client : User ← d.lookup (Key.user o.clientId)
  let station ← client.station
  let regionCode ← station.regionCode
  let company : Company ← d.lookup (Key.company transportCompanyId)
  guard (company.type = .transport && company.parentFuelCompanyId = some o.fuelCompanyId &&
    company.status = .active && company.servedRegions.contains regionCode)
  let rate ← rateFor company.deliveryRates
    ⟨regionCode, station.governorateCode, o.deliveryLocation⟩
  let (_, _, distanceMeters) ← findNearestSupplying cfg d o.deliveryLocation o.fuelType
  return rate.fee distanceMeters

theorem haulFee_some {cfg : Settings} {d : Docs Doc} {o : Order} {t : Id} {deliveryFee : ℚ}
    (h : haulFee cfg d o t = some deliveryFee) :
    ∃ (client : User) (station : StationInfo) (regionCode : ℕ) (company : Company)
      (rate : DeliveryRate) (nearest : Id × Warehouse × ℚ),
      d.lookup (Key.user o.clientId) = some client ∧ client.station = some station ∧
      station.regionCode = some regionCode ∧ d.lookup (Key.company t) = some company ∧
      t ∈ findServingTransporters d o.fuelCompanyId regionCode ∧
      rateFor company.deliveryRates ⟨regionCode, station.governorateCode, o.deliveryLocation⟩ =
        some rate ∧
      findNearestSupplying cfg d o.deliveryLocation o.fuelType = some nearest ∧
      rate.fee nearest.2.2 = deliveryFee := by
  simp only [haulFee, Option.bind_eq_bind, Option.bind_eq_some_iff, Option.guard_eq_some'] at h
  obtain ⟨client, hclient, station, hstation, regionCode, hregion, company, hcompany, -, hserves,
    rate, hrate, ⟨warehouseId, warehouse, distanceMeters⟩, hnearest, hfee⟩ := h
  refine ⟨client, station, regionCode, company, rate, _, hclient, hstation, hregion, hcompany, ?_,
    hrate, hnearest, Option.some.inj hfee⟩
  refine List.mem_map.mpr ⟨(t, company), List.mem_filter.mpr ⟨?_, hserves⟩, rfl⟩
  exact Docs.mem_collect.mpr ⟨_, _, hcompany, rfl⟩

section route
variable {cfg : Settings} {user : AuthenticatedUser} {id : Id} {o : Order} {w : World} {s : Db}

theorem alone_feeForCompany {t : Id} {company : Company} {target : DeliveryTarget}
    {fuelType : FuelType} {rate : DeliveryRate} {nearest : Id × Warehouse × ℚ} {n : ℕ}
    (hcompany : s.find (Key.company t) = some company)
    (hrate : rateFor company.deliveryRates target = some rate)
    (hnearest : findNearestSupplying cfg s.docs target.coordinates fuelType = some nearest) :
    (feeForCompany cfg t target fuelType).alone (machine cfg) w n s =
      (.ok (rate.fee nearest.2.2), n + 1 + 1, s) := by
  unfold feeForCompany
  rw [Prog.alone_bind_ok (Prog.alone_find _), hcompany, Prog.alone_bind_ok (alone_require _ _)]
  rw [hrate, Prog.alone_bind_ok (alone_require _ _), Prog.alone_bind_ok Prog.alone_scan]
  dsimp only
  rw [hnearest, Prog.alone_bind_ok (alone_require _ _)]
  rfl

theorem alone_resolveTransporter {t : Id} {candidates : List Id} {n : ℕ} (h : t ∈ candidates) :
    (resolveTransporter candidates (some t)).alone (machine cfg) w n s = (.ok (some t), n, s) := by
  unfold resolveTransporter
  rw [Prog.alone_bind_ok (alone_refuseIf (by simpa using h))]
  rfl

theorem routeToTransport_id {order r : OrderDocument} {source : OrderStatus} {t : Id}
    {deliveryFee : ℚ} {actor : TransitionActor} {env : Env} {v v' : View Doc}
    (h : (routeToTransport cfg order source t deliveryFee actor).run env v = .ok (r, v')) :
    r.id = order.id := by
  obtain ⟨routed, u, hrouted, hrest⟩ := bind_ok h
  obtain ⟨pricedAt, u, -, hrest⟩ := bind_ok hrest
  obtain ⟨now, u, -, hrest⟩ := bind_ok hrest
  obtain ⟨awaiting, u, hawaiting, hrest⟩ := bind_ok hrest
  obtain ⟨invoice, u, -, hrest⟩ := bind_ok hrest
  obtain ⟨rfl, -⟩ := pure_ok hrest
  obtain ⟨-, -, -, -, -, -, rfl, -⟩ := transition_ok hawaiting
  obtain ⟨-, -, -, -, -, -, rfl, -⟩ := transition_ok hrouted
  rfl

/-- Queueing the order's timeout leaves the order itself. -/
theorem alone_schedule (cfg : Settings) (n : ℕ) {orderId : Id} {o' : Order}
    (ho : s.order orderId = some o') (hanswer : ∀ n, w.answer n = true) :
    ∃ s', (Handler.enqueue (.schedule orderId)).alone (machine cfg) w n s = (.ok (), n + 3, s') ∧
      s'.order orderId = some o' := by
  obtain ⟨a, v, hran⟩ : Returns (w.env (n + 1)) (scheduleTimeout cfg orderId) (View.start s.docs) :=
    returns_scheduleTimeout orderId
  obtain ⟨s', hattempt, hsame⟩ := Machine.attempt_ok (M := machine cfg) (l := .schedule orderId) hran
  refine ⟨s', alone_enqueue hanswer hattempt, ?_⟩
  exact (hsame _).trans ((Call.body_frame (c := .schedule orderId) (k := Key.order orderId) hran
    rfl).trans ho)

/-- The steps after the routing transaction change no order. -/
theorem alone_afterRouting (cfg : Settings) (n : ℕ) {order : OrderDocument} {o' : Order}
    (ho : s.order order.id = some o') (hanswer : ∀ n, w.answer n = true) :
    ∃ n' s', (do
        Handler.sideEffect
        if order.paymentMethod = .direct then
          Handler.enqueue (.schedule order.id)
        Handler.sideEffect
        let fresh : Option Order ← Prog.find (Key.order order.id)
        return ((fresh.map (·.withId order.id)).getD order, []) :
          Handler (OrderDocument × List Id)).alone (machine cfg) w n s =
      (.ok (o'.withId order.id, []), n', s') ∧ s'.order order.id = some o' := by
  rw [Prog.alone_bind_ok (alone_sideEffect hanswer)]
  have notified : ∀ (s : Db) (n : ℕ), s.order order.id = some o' → (do
        Handler.sideEffect
        let fresh : Option Order ← Prog.find (Key.order order.id)
        return ((fresh.map (·.withId order.id)).getD order, []) :
          Handler (OrderDocument × List Id)).alone (machine cfg) w n s =
      (.ok (o'.withId order.id, []), n + 1 + 1, s) := by
    intro s n ho
    have hfind : s.find (Key.order order.id) = some o' := ho
    rw [Prog.alone_bind_ok (alone_sideEffect hanswer), Prog.alone_bind_ok (Prog.alone_find _), hfind]
    rfl
  by_cases hdirect : order.paymentMethod = .direct
  · rw [if_pos hdirect]
    obtain ⟨s', hschedule, ho'⟩ := alone_schedule cfg (n + 1) ho hanswer
    rw [Prog.alone_bind_ok hschedule]
    exact ⟨_, s', notified s' _ ho', ho'⟩
  · rw [if_neg hdirect]
    exact ⟨_, s, notified s _ ho, ho⟩

/-- Routing by a company that can haul an order not routed before. -/
theorem alone_routeOrder (actor : TransitionActor) (n : ℕ) {t : Id} {deliveryFee : ℚ}
    {source : OrderStatus} (ho : s.order id = some o) (hstatus : o.status = source)
    (hpermits : permits source .routedToTransport false = true)
    (hfee : haulFee cfg s.docs o t = some deliveryFee)
    (hadmits : Admits cfg s.docs o (settlementPrice (o.withId id) deliveryFee))
    (hunbilled : Unbilled s.docs id) (hanswer : ∀ n, w.answer n = true)
    (hfresh : ∀ n, (w.env n).Fresh s.docs) :
    ∃ n' o' s', (routeOrder cfg (o.withId id) actor source (some t)).alone (machine cfg) w n s =
        (.ok (o'.withId id, []), n', s') ∧
      s'.order id = some o' ∧ o'.status = .pendingPayment := by
  obtain ⟨client, station, regionCode, company, rate, nearest, hclient, hstation, hregion,
    hcompany, hserves, hrate, hnearest, rfl⟩ := haulFee_some hfee
  have hclient' : s.find (Key.user (o.withId id).clientId) = some client := hclient
  have hserves' : t ∈ findServingTransporters s.docs (o.withId id).fuelCompanyId regionCode := hserves
  obtain ⟨r, v, hran⟩ : Returns (w.env (n + 4)) (routeToTransport cfg (o.withId id) source t
      (rate.fee nearest.2.2) actor) (View.start s.docs) :=
    returns_routeToTransport s.unique ho hstatus hpermits hadmits (hfresh _) hunbilled
  have hid : r.id = id := routeToTransport_id hran
  obtain ⟨s', hattempt, hsame⟩ := Machine.attempt_ok (M := machine cfg)
    (l := .route (o.withId id) source t (rate.fee nearest.2.2) actor) hran
  obtain ⟨o₁, i, m, -, -, -, hrouted, -⟩ := routeToTransport_ok hran
  have hstored : s'.order r.id = v.find (Key.order (o.withId id).id) := by
    rw [hid]
    exact hsame _
  obtain ⟨n', s'', hafter, ho'⟩ := alone_afterRouting cfg (n + 5) (hstored.trans hrouted) hanswer
  rw [hid] at ho'
  refine ⟨n', _, s'', ?_, ho', by simp [Order.awaiting]⟩
  unfold routeOrder
  rw [Prog.alone_bind_ok (Prog.alone_find _), hclient']
  dsimp only [Option.bind_some]
  rw [hstation, Option.bind_some, hregion, Prog.alone_bind_ok (alone_require _ _),
    Prog.alone_bind_ok Prog.alone_scan, Prog.alone_bind_ok (alone_resolveTransporter hserves')]
  refine (Prog.alone_bind_ok (alone_feeForCompany hcompany hrate hnearest)).trans ?_
  rw [Prog.alone_bind_ok (Prog.alone_perform_ok hattempt), hafter, hid]

theorem route_succeeds {t : Id} {deliveryFee : ℚ} (ho : s.order id = some o)
    (hstatus : o.status = .awaitingRouting) (hfee : haulFee cfg s.docs o t = some deliveryFee)
    (hadmits : Admits cfg s.docs o (settlementPrice (o.withId id) deliveryFee))
    (hunbilled : Unbilled s.docs id) (hanswer : ∀ n, w.answer n = true)
    (hfresh : ∀ n, (w.env n).Fresh s.docs) :
    ∃ n o' s', (route cfg user id (some t)).alone (machine cfg) w 0 s =
        (.ok (.order (o'.withId id)), n, s') ∧
      s'.order id = some o' ∧ o'.status = .pendingPayment := by
  obtain ⟨n', o', s', hrouted, ho', hpending⟩ := alone_routeOrder user.actor 1 ho
    hstatus rfl hfee hadmits hunbilled hanswer hfresh
  refine ⟨n', o', s', ?_, ho', hpending⟩
  unfold route
  rw [Prog.alone_bind_ok (alone_findById ho), Prog.alone_bind_ok (alone_refuseIf (by simp [hstatus]))]
  have hsource : (o.withId id).status = .awaitingRouting := hstatus
  rw [hsource, Prog.alone_bind_ok hrouted, Prog.alone_bind_ok (alone_refuseIf (by simp [hpending]))]
  rfl

/-- Routing an order that has an invoice already never gets past the index. -/
theorem alone_routeOrder_billed {chosen : Option Id} {actor : TransitionActor} {n m : ℕ} {s' : Db}
    {r : OrderDocument × List Id} (hbilled : ¬ Unbilled s.docs id)
    (h : (routeOrder cfg (o.withId id) actor .awaitingRouting chosen).alone (machine cfg) w n s =
      (.ok r, m, s')) : r.1 = o.withId id := by
  unfold routeOrder at h
  obtain ⟨client, n₁, s₁, hclient, h⟩ := Prog.alone_bind_inv h
  cases hclient
  obtain ⟨regionCode, n₁, s₁, hregion, h⟩ := Prog.alone_bind_inv h
  have hs₁ : s₁ = s := (congrArg (·.2.2) hregion).symm.trans (Prog.alone_callFree require_callFree)
  obtain ⟨d, n₂, s₂, hscan, h⟩ := Prog.alone_bind_inv h
  cases hscan
  obtain ⟨resolved, n₂, s₂, hresolved, h⟩ := Prog.alone_bind_inv h
  have hs₂ : s₂ = s₁ :=
    (congrArg (·.2.2) hresolved).symm.trans (Prog.alone_callFree (resolveTransporter_callFree _ _))
  cases resolved with
  | none =>
      dsimp only at h
      rw [if_pos rfl] at h
      obtain ⟨updated, n₃, s₃, hupdated, h⟩ := Prog.alone_bind_inv h
      cases hupdated
      obtain ⟨_, n₃, s₃, -, h⟩ := Prog.alone_bind_inv h
      cases h
      rfl
  | some transportCompanyId =>
      obtain ⟨deliveryFee, n₃, s₃, hfee, h⟩ := Prog.alone_bind_inv h
      have hs₃ : s₃ = s₂ :=
        (congrArg (·.2.2) hfee).symm.trans (Prog.alone_callFree (feeForCompany_callFree _ _ _ _))
      obtain ⟨awaiting, n₄, s₄, hroute, h⟩ := Prog.alone_bind_inv h
      obtain ⟨v, hran⟩ := Prog.alone_perform_inv hroute
      obtain ⟨-, -, -, -, -, -, -, -, hnone, -⟩ := routeToTransport_ok hran
      rw [hs₃, hs₂, hs₁] at hnone
      exact absurd hnone hbilled

/-- So the route endpoint refuses whatever company is named. -/
theorem route_refused {chosen : Option Id} (ho : s.order id = some o)
    (hstatus : o.status = .awaitingRouting) (hbilled : ¬ Unbilled s.docs id) (a : Answer) :
    ((route cfg user id chosen).alone (machine cfg) w 0 s).1 ≠ .ok a := by
  intro hok
  obtain ⟨m, s', h⟩ : ∃ m s', (route cfg user id chosen).alone (machine cfg) w 0 s =
      (.ok a, m, s') := ⟨_, _, Prod.ext hok rfl⟩
  unfold route at h
  rw [Prog.alone_bind_ok (alone_findById ho),
    Prog.alone_bind_ok (alone_refuseIf (by simp [hstatus]))] at h
  obtain ⟨r, n₂, s₂, hrouted, h⟩ := Prog.alone_bind_inv h
  have hsource : (o.withId id).status = .awaitingRouting := hstatus
  rw [hsource] at hrouted
  have hr : r.1 = o.withId id := alone_routeOrder_billed hbilled hrouted
  obtain ⟨_, n₃, s₃, hrefuse, -⟩ := Prog.alone_bind_inv h
  rw [hr] at hrefuse
  simp [Handler.refuseIf, hstatus] at hrefuse

end route

/-! ### Orders that were never routed -/

/-- An order is parked only while it has no invoice. -/
def Call.parksUnbilled (c : Call) (s : Db) : Bool :=
  match c with
  | .awaitRouting order _ => (s.order order.id).all (·.invoiceId.isNone)
  | _ => true

theorem OrderStep.unbilled {cfg : Settings} {time : ℕ → Instant} {c : Call} {o o' : Order}
    (h : OrderStep cfg time c o o')
    (hpark : ∀ order actor, c = .awaitRouting order actor → o.invoiceId = none)
    (ho : o.status = .awaitingRouting → o.invoiceId = none)
    (hstatus : o'.status = .awaitingRouting) : o'.invoiceId = none := by
  cases h with
  | awaitRouting => exact hpark _ _ rfl
  | reassign => exact ho hstatus
  | attempt => exact ho hstatus
  | confirmInvoice => exact ho hstatus
  | replaceInvoice => exact ho hstatus
  | route => simp [Order.awaiting] at hstatus
  | _ => simp at hstatus

/-- No invoice is in the way of the order, and a route call that names a company
able to haul it succeeds wherever credit and ceiling admit the price. -/
def Routable (cfg : Settings) (s : Db) (id : Id) (o : Order) : Prop :=
  Unbilled s.docs id ∧ ∀ (user : AuthenticatedUser) (t : Id) (deliveryFee : ℚ) (w : World),
    haulFee cfg s.docs o t = some deliveryFee →
    Admits cfg s.docs o (settlementPrice (o.withId id) deliveryFee) →
    (∀ n, w.answer n = true) → (∀ n, (w.env n).Fresh s.docs) →
    ∃ n o' s', ((machine cfg).handle (.route user id (some t))).alone (machine cfg) w 0 s =
        (.ok (.order (o'.withId id)), n, s') ∧
      s'.order id = some o' ∧ o'.status = .pendingPayment

/-- In every run that parks orders without an invoice only, no parked order is stuck. -/
theorem awaiting_routable {cfg : Settings} {log : List (Event Doc Call.Reply)}
    {s : Sys Doc Call.Reply Refusal Answer}
    (h : Run (machine cfg) Store.empty (fun ev => ev.label.parksUnbilled ev.before = true) log s)
    {id : Id} {o : Order} (ho : s.store.order id = some o) (hstatus : o.status = .awaitingRouting) :
    Routable cfg s.store id o := by
  obtain ⟨hbilled, -⟩ := orders_invariant
    (I := fun _ o => o.status = .awaitingRouting → o.invoiceId = none) consistent_empty
    (fun id o ho => by cases ho)
    (fun id fields _ => rfl)
    (fun ev id o o' _ hP _ hid hbefore hstep hI => by
      refine hstep.unbilled (fun order actor hlabel => ?_) hI
      rw [hlabel] at hid hP
      cases hid
      simpa [Call.parksUnbilled, hbefore] using hP) h
  have hunbilled : Unbilled s.store.docs id := by
    intro i x hx hid
    obtain ⟨o', ho', hi⟩ := (disciplined consistent_empty h).1.1.orderOf i x hx
    rw [hid] at ho'
    cases ho.symm.trans ho'
    simp [hbilled id o ho hstatus] at hi
  refine ⟨hunbilled, fun user t deliveryFee w hfee hadmits hanswer hfresh => ?_⟩
  exact route_succeeds ho hstatus hfee hadmits hunbilled hanswer hfresh

/-! ### Two transport companies -/

namespace Sample

/-- A second company joins, so that none is chosen for the order. -/
def parked : List (Act Request) :=
  opening ++ serve (.create client (order .direct)) 10 6 100 ++
    serve (.administer (.putCompany 12 transportCompany)) 11 2 ++
    serve (.approve fuelAdmin 100 none none) 12 9

/-- The second company joins when the order has been routed and has timed out. -/
def parkedAgain : List (Act Request) :=
  opening ++ serve (.create client (order .direct)) 10 6 100 ++
    serve (.approve fuelAdmin 100 none none) 11 17 200 ++ [Act.tick 1800000] ++
    serve (.timeout ⟨100, 0, 1800000⟩) 12 5 ++
    serve (.administer (.putCompany 12 transportCompany)) 13 2 ++
    serve (.route fuelAdmin 100 none) 14 6

end Sample

theorem admits_direct {cfg : Settings} {d : Docs Doc} {o : Order} {price : ℚ}
    (h : o.paymentMethod = .direct) : Admits cfg d o price := by
  constructor
  · intro hcredit
    cases h.symm.trans hcredit
  · rintro (hterms | hterms) <;> cases h.symm.trans hterms

theorem awaiting_routable_parked :
    ∃ log s o deliveryFee, Run (machine Sample.cfg) Store.empty
        (fun ev => ev.label.parksUnbilled ev.before = true) log s ∧
      s.store.order 100 = some o ∧ o.status = .awaitingRouting ∧
      haulFee Sample.cfg s.store.docs o 12 = some deliveryFee ∧
      ∃ n o' s', ((machine Sample.cfg).handle (.route Sample.fuelAdmin 100 (some 12))).alone
          (machine Sample.cfg) Sample.world 0 s.store = (.ok (.order (o'.withId 100)), n, s') ∧
        s'.order 100 = some o' ∧ o'.status = .pendingPayment := by
  obtain ⟨log, s, hrun, htest⟩ := exists_run (machine Sample.cfg) Store.empty
    (fun ev => ev.label.parksUnbilled ev.before = true) Sample.parked
    (fun _ s => Sample.lowIds s.store.docs && (s.store.order 100).any fun o =>
      o.status = .awaitingRouting && o.paymentMethod = .direct &&
        (haulFee Sample.cfg s.store.docs o 12).isSome) (by decide +kernel)
  obtain ⟨hlow, htest⟩ := Bool.and_eq_true_iff.mp htest
  obtain ⟨o, ho, htest⟩ := (Option.any_eq_true _ _).mp htest
  simp only [Bool.and_eq_true, decide_eq_true_eq] at htest
  obtain ⟨⟨hstatus, hdirect⟩, hhauls⟩ := htest
  obtain ⟨deliveryFee, hfee⟩ := Option.isSome_iff_exists.mp hhauls
  refine ⟨log, s, o, deliveryFee, hrun, ho, hstatus, hfee, ?_⟩
  exact (awaiting_routable hrun ho hstatus).2 Sample.fuelAdmin 12 deliveryFee Sample.world hfee
    (admits_direct hdirect) (fun _ => rfl) (Sample.world_fresh hlow)

/-- A parked order that has been routed before keeps its invoice, and no route
call, whatever company it names, gets it any further. -/
theorem awaiting_routable_parkedAgain :
    ∃ log s o deliveryFee, Run (machine Sample.cfg) Store.empty (fun _ => True) log s ∧
      s.store.order 100 = some o ∧ o.status = .awaitingRouting ∧
      haulFee Sample.cfg s.store.docs o 12 = some deliveryFee ∧
      Admits Sample.cfg s.store.docs o (settlementPrice (o.withId 100) deliveryFee) ∧
      ¬ Unbilled s.store.docs 100 ∧
      ∀ (user : AuthenticatedUser) (chosen : Option Id) (w : World) (a : Answer),
        (((machine Sample.cfg).handle (.route user 100 chosen)).alone (machine Sample.cfg) w 0
          s.store).1 ≠ .ok a := by
  obtain ⟨log, s, hrun, htest⟩ := exists_run (machine Sample.cfg) Store.empty (fun _ => True)
    Sample.parkedAgain
    (fun _ s => (s.store.order 100).any fun o =>
      o.status = .awaitingRouting && o.paymentMethod = .direct &&
        (haulFee Sample.cfg s.store.docs o 12).isSome &&
        (s.store.invoice 200).any fun x => x.orderId = 100) (by decide +kernel)
  obtain ⟨o, ho, htest⟩ := (Option.any_eq_true _ _).mp htest
  simp only [Bool.and_eq_true, decide_eq_true_eq] at htest
  obtain ⟨⟨⟨hstatus, hdirect⟩, hhauls⟩, hinvoice⟩ := htest
  obtain ⟨deliveryFee, hfee⟩ := Option.isSome_iff_exists.mp hhauls
  obtain ⟨x, hx, horder⟩ := (Option.any_eq_true _ _).mp hinvoice
  have hbilled : ¬ Unbilled s.store.docs 100 := fun h => h 200 x hx (of_decide_eq_true horder)
  refine ⟨log, s, o, deliveryFee, hrun, ho, hstatus, hfee, admits_direct hdirect, hbilled, ?_⟩
  exact fun user chosen w a => route_refused ho hstatus hbilled a

end CiroFuel
