import CiroFuel.Assignments
import CiroFuel.Candidates
import CiroFuel.Returning

/-!
# What is offered is accepted

Three lists stand on the assignment screen: the drivers, the free trucks, and the free tanks
that can carry the order. The assignment asks none of them; it books under filters of its
own. Where nothing else happens in between, the two agree.
-/
namespace CiroFuel
open Snapshot Tx

/-! ### The lists of vehicles -/

/-- The trucks of `findAll` with `availableOnly`. -/
def availableTrucks (companyId : Id) (d : Docs Doc) : List (Id × Truck) :=
  ((Docs.collect pickTruck d).filter fun t => t.2.isOffered companyId).insertionSort
    fun a b => a.2.plateNumber ≤ b.2.plateNumber

def forOrderId (companyId : Id) (quantityLiters : ℚ) (fuelType : FuelType) (d : Docs Doc) :
    List (Id × Tank) :=
  ((Docs.collect pickTank d).filter fun t =>
    t.2.companyId = companyId && t.2.isActive && t.2.activeOrderId.isNone &&
      quantityLiters ≤ t.2.maxCapacityLiters && t.2.fuelTypes.contains fuelType).insertionSort
        fun a b => a.2.code ≤ b.2.code

theorem mem_availableTrucks {companyId id : Id} {t : Truck} {d : Docs Doc} :
    (id, t) ∈ availableTrucks companyId d ↔ d.lookup (Key.truck id) = some t ∧
      t.companyId = companyId ∧ t.isActive = true ∧ t.activeOrderId = none := by
  rw [availableTrucks, (List.perm_insertionSort _ _).mem_iff, List.mem_filter, picks_truck.mem]
  simp only [Truck.isOffered, Bool.and_eq_true, decide_eq_true_eq, Option.isNone_iff_eq_none,
    and_assoc]

theorem mem_forOrderId {companyId id : Id} {quantityLiters : ℚ} {fuelType : FuelType} {t : Tank}
    {d : Docs Doc} : (id, t) ∈ forOrderId companyId quantityLiters fuelType d ↔
      d.lookup (Key.tank id) = some t ∧ t.companyId = companyId ∧ t.isActive = true ∧
        t.activeOrderId = none ∧ quantityLiters ≤ t.maxCapacityLiters ∧ fuelType ∈ t.fuelTypes := by
  rw [forOrderId, (List.perm_insertionSort _ _).mem_iff, List.mem_filter, picks_tank.mem]
  simp only [Bool.and_eq_true, decide_eq_true_eq, Option.isNone_iff_eq_none, and_assoc,
    List.contains_iff_mem]

/-! ### Who is classified how -/

theorem classify_offline {u : User} {profile : DriverProfile} {id : Id} {x : Option ℚ} :
    classifyEligibility (u.candidate profile id x) = .offline ↔ u.isOffline = true := by
  unfold classifyEligibility User.candidate User.isOffline
  cases u.isActive <;> cases u.isAvailable <;> cases u.activeOrderId <;> cases u.isOnline <;> simp

/-- Who is listed as eligible or offline can be booked. -/
theorem classify_bookable {u : User} {profile : DriverProfile} {id : Id} {x : Option ℚ} :
    classifyEligibility (u.candidate profile id x) = .eligible ∨
      classifyEligibility (u.candidate profile id x) = .offline ↔
        u.isActive = true ∧ u.isAvailable = true ∧ u.activeOrderId = none := by
  unfold classifyEligibility User.candidate
  cases u.isActive <;> cases u.isAvailable <;> cases u.activeOrderId <;> cases u.isOnline <;> simp

/-! ### When the transaction books -/

/-- No resource of any kind is booked for the order. -/
def Unoccupied (d : Docs Doc) (id : Id) : Prop := ∀ (f : Resource) t, f.booked d t ≠ some id

theorem Resource.booked_of_entry {f : Resource} {d : Docs Doc} {id : Id} {k : Key} {x : Doc k}
    (hx : d.lookup k = some x) (hi : f.entry id ∈ Indexed.entries k x) :
    ∃ t, f.booked d t = some id := by
  have hsome : ∀ {o : Option Id} {e : Id → IndexEntry}, Function.Injective e →
      e id ∈ (o.map e).toList → o = some id := by
    intro o e hinj hmem
    obtain ⟨id', rfl, heq⟩ := Option.map_eq_some_iff.mp (Option.mem_toList.mp hmem)
    rw [hinj heq]
  cases k with
  | user t =>
      cases f with
      | driver =>
          refine ⟨t, Option.bind_eq_some_iff.mpr ⟨x, hx, ?_⟩⟩
          exact hsome (fun _ _ h => IndexEntry.userActiveOrderId.inj h) hi
      | _ => simp [Indexed.entries, Resource.entry] at hi
  | truck t =>
      cases f with
      | truck =>
          refine ⟨t, Option.bind_eq_some_iff.mpr ⟨x, hx, ?_⟩⟩
          exact hsome (fun _ _ h => IndexEntry.truckActiveOrderId.inj h) hi
      | _ => simp [Indexed.entries, Resource.entry] at hi
  | tank t =>
      cases f with
      | tank =>
          refine ⟨t, Option.bind_eq_some_iff.mpr ⟨x, hx, ?_⟩⟩
          exact hsome (fun _ _ h => IndexEntry.tankActiveOrderId.inj h) hi
      | _ => simp [Indexed.entries, Resource.entry] at hi
  | accountMovement m =>
      change f.entry id ∈ AccountMovement.payoutEntries x at hi
      unfold AccountMovement.payoutEntries at hi
      split at hi <;> cases f <;> simp [Resource.entry] at hi
  | _ => cases f <;> simp [Indexed.entries, Resource.entry] at hi

/-- A resource booked for the order breaks no index if none of its kind is. -/
theorem Resource.fits_free {f : Resource} {d : Docs Doc} {id t : Id}
    (hfree : ∀ t, f.booked d t ≠ some id) {x : Doc (f.key t)}
    (hx : Indexed.entries (f.key t) x = [f.entry id]) : d.fits (f.key t) x = true := by
  refine Docs.fits_complete fun k' x' i hx' hi hi' => ?_
  rw [hx, List.mem_singleton] at hi
  subst hi
  obtain ⟨t', hbooked⟩ := Resource.booked_of_entry hx' hi'
  exact absurd hbooked (hfree t')

/-- What an assignment of the order needs of the documents it books. -/
structure CanBook (d : Docs Doc) (order : OrderDocument) (a : Assignment) : Prop where
  driver : ∃ u : User, d.lookup (Key.user a.driverId) = some u ∧ u.role = .driver ∧
    u.isActive = true ∧ u.isAvailable = true ∧ u.activeOrderId = none
  truck : ∃ t : Truck, d.lookup (Key.truck a.truckId) = some t ∧ t.isActive = true ∧
    t.activeOrderId = none
  tank : ∃ t : Tank, d.lookup (Key.tank a.tankId) = some t ∧ t.isActive = true ∧
    t.activeOrderId = none ∧ order.quantityLiters ≤ t.maxCapacityLiters ∧
      order.fuelType ∈ t.fuelTypes

section bodies
variable {env : Env} {v w : View Doc}

/-- An update whose filter the document passes. -/
theorem update_some {k : Key} {filter : Doc k → Bool} {update : Doc k → Doc k} {x : Doc k}
    (hx : v.find k = some x) (hfilter : filter x = true) (hfits : v.docs.fits k (update x) = true) :
    (Tx.findOneAndUpdate k filter update : Action _).run env v =
      .ok (some (update x), v.put k (update x)) := by
  have hlookup : v.docs.lookup k = some x := hx
  simp [Tx.findOneAndUpdate, Tx.run, hlookup, hfilter, hfits]

theorem Resource.free_put {f : Resource} {id : Id} (hfree : ∀ t, f.booked v.docs t ≠ some id)
    {k : Key} {x : Doc k} (hother : ∀ t, f.key t ≠ k) (t : Id) :
    f.booked (v.put k x).docs t ≠ some id := by
  rw [Resource.booked_congr (View.find_put_ne v x (hother t))]
  exact hfree t

theorem returns_of_run {α β : Type} {tx : Action α} {f : α → Action β} {r : α}
    (h : tx.run env v = .ok (r, w)) (hf : Returns env (f r) w) : Returns env (tx >>= f) v := by
  refine Returns.bind ⟨r, w, h⟩ fun r' w' h' => ?_
  obtain ⟨rfl, rfl⟩ := Prod.mk.inj (Except.ok.inj (h.symm.trans h'))
  exact hf

theorem assertTankFits_run {tank : Tank} {order : OrderDocument}
    (hcapacity : order.quantityLiters ≤ tank.maxCapacityLiters)
    (hgrade : order.fuelType ∈ tank.fuelTypes) :
    (assertTankFits tank order).run env v = .ok ((), v) := by
  unfold assertTankFits
  rw [if_neg (not_lt.mpr hcapacity), if_neg (by simp [hgrade])]
  rfl

/-- The fields of an assignment are distinct. -/
theorem assignment_coherent (a : Assignment) (driver : User) (truck : Truck) (tank : Tank)
    (client : Option User) :
    ({ extraSet := assignmentFields a driver truck tank client } : TransitionOptions).coherent =
      true := by
  unfold TransitionOptions.coherent assignmentFields
  cases client <;> cases a.ineligibleReason <;> rfl

theorem returns_assignDriver {order : OrderDocument} {a : Assignment} {o : Order}
    (ho : v.find (Key.order order.id) = some o) (hstatus : o.status = .routedToTransport)
    (hfree : Unoccupied v.docs order.id) (hbook : CanBook v.docs order a) :
    Returns env (assignDriver order a) v := by
  obtain ⟨u, hu, hrole, hactive, havailable, hidle⟩ := hbook.driver
  obtain ⟨t, ht, htactive, htidle⟩ := hbook.truck
  obtain ⟨k, hk, hkactive, hkidle, hcapacity, hgrade⟩ := hbook.tank
  unfold assignDriver
  refine returns_of_run (update_some hu (by simp [hrole, hactive, havailable, hidle])
    (Resource.fits_free (f := .driver) (hfree .driver) rfl)) ?_
  have htruck := Resource.free_put (f := .truck) (hfree .truck) (k := .user a.driverId)
    (x := { u with isAvailable := false, activeOrderId := some order.id })
    fun t => by simp [Resource.key]
  refine returns_of_run (update_some ((View.find_put_ne v _ (by simp)).trans ht)
    (by simp [htactive, htidle]) (Resource.fits_free (f := .truck) htruck rfl)) ?_
  have htank := Resource.free_put (f := .tank) (Resource.free_put (f := .tank) (hfree .tank)
    (k := .user a.driverId) (x := { u with isAvailable := false, activeOrderId := some order.id })
    fun t => by simp [Resource.key]) (k := .truck a.truckId)
    (x := { t with activeOrderId := some order.id }) fun t => by simp [Resource.key]
  refine returns_of_run (update_some ((View.find_put_ne _ _ (by simp)).trans
    ((View.find_put_ne v _ (by simp)).trans hk)) (by simp [hkactive, hkidle])
    (Resource.fits_free (f := .tank) htank rfl)) ?_
  refine returns_of_run (assertTankFits_run hcapacity hgrade) ?_
  refine Returns.bind ⟨_, _, rfl⟩ fun client u' hclient => ?_
  obtain ⟨-, rfl⟩ := find_ok hclient
  refine returns_transition (o := o) ?_ hstatus rfl (assignment_coherent ..)
  rw [View.find_put_ne _ _ (by simp), View.find_put_ne _ _ (by simp),
    View.find_put_ne _ _ (by simp)]
  exact ho

/-- The document an update has changed passed its filter. -/
theorem filtered_ok {k : Key} {filter : Doc k → Bool} {update : Doc k → Doc k} {x : Doc k}
    (h : (Tx.findOneAndUpdate k filter update : Action _).run env v = .ok (some x, w)) :
    ∃ x₀, v.find k = some x₀ ∧ filter x₀ = true ∧ x = update x₀ ∧ w = v.put k x := by
  rcases findOneAndUpdate_ok h with ⟨x₀, hx₀, hfilter, -, hx, hw⟩ | ⟨hnone, -, -⟩
  · obtain rfl := Option.some.inj hx
    exact ⟨x₀, hx₀, hfilter, rfl, hw⟩
  · cases hnone

theorem canBook_of_ok {order r : OrderDocument} {a : Assignment}
    (h : (assignDriver order a).run env v = .ok (r, w)) : CanBook v.docs order a := by
  obtain ⟨driver, u₁, hdriver, h⟩ := bind_ok h
  cases driver with
  | none => exact (throw_ok h).elim
  | some driver =>
      obtain ⟨truck, u₂, htruck, h⟩ := bind_ok h
      cases truck with
      | none => exact (throw_ok h).elim
      | some truck =>
          obtain ⟨tank, u₃, htank, h⟩ := bind_ok h
          cases tank with
          | none => exact (throw_ok h).elim
          | some tank =>
              obtain ⟨_, u₄, hfits, -⟩ := bind_ok h
              obtain ⟨hcapacity, hgrade, -⟩ := assertTankFits_ok hfits
              obtain ⟨u, hu, hudriver, -, rfl⟩ := filtered_ok hdriver
              obtain ⟨t, ht, htfree, -, rfl⟩ := filtered_ok htruck
              obtain ⟨k, hk, hkfree, rfl, -⟩ := filtered_ok htank
              rw [View.find_put_ne _ _ (by simp)] at ht
              rw [View.find_put_ne _ _ (by simp), View.find_put_ne _ _ (by simp)] at hk
              simp only [Bool.and_eq_true, decide_eq_true_eq, Option.isNone_iff_eq_none] at hudriver
              simp only [Bool.and_eq_true, Option.isNone_iff_eq_none] at htfree hkfree
              exact ⟨⟨u, hu, hudriver.1.1.1, hudriver.1.1.2, hudriver.1.2, hudriver.2⟩,
                ⟨t, ht, htfree⟩, ⟨k, hk, hkfree.1, hkfree.2, hcapacity, hgrade⟩⟩

end bodies

/-! ### The request -/

section alone
variable {cfg : Settings} {w : World} {s : Db}

/-- What the handler makes of the request once it has found a warehouse. -/
def assignment (driverId truckId tankId : Id) (reason : Option String) (offline : Bool)
    (warehouseId : Id) (warehouse : Warehouse) : Assignment where
  driverId := driverId
  truckId := truckId
  tankId := tankId
  warehouseId := warehouseId
  warehouse := ⟨warehouse.name, warehouse.addressText, warehouse.location⟩
  ineligibleReason := if offline then some reason else none

theorem alone_refused {α : Type} {b : Bool} {e : Refusal} {f : Unit → Handler α} {n : ℕ}
    (h : b = true) : ((Handler.refuseIf b e >>= f).alone (machine cfg) w n s).1 =
      .error (.thrown e) := by
  subst h
  exact Prog.alone_bind_error rfl

theorem alone_assign {orderId driverId truckId tankId : Id} {reason : Option String} {o : Order}
    {warehouseId : Id} {warehouse : Warehouse} {distance : ℚ} (ho : s.order orderId = some o)
    (hstatus : o.status = .routedToTransport)
    (hwarehouse : findNearestSupplying cfg s.docs o.deliveryLocation o.fuelType =
      some (warehouseId, warehouse, distance))
    (hfree : Unoccupied s.docs orderId) (hanswer : ∀ n, w.answer n = true) :
    (((assign cfg orderId driverId truckId tankId reason).alone (machine cfg) w 0 s).1 =
        .ok (.assigned driverId)) ↔
      ((s.user driverId).any (·.isOffline) = true → trim (reason.getD "") ≠ "") ∧
        CanBook s.docs (o.withId orderId) (assignment driverId truckId tankId reason
          ((s.user driverId).any (·.isOffline)) warehouseId warehouse) := by
  have huser : s.find (Key.user driverId) = s.user driverId := rfl
  unfold assign
  rw [Prog.alone_bind_ok (alone_findById ho), Prog.alone_bind_ok (alone_refuseIf (by simp [hstatus])),
    Prog.alone_bind_ok (Prog.alone_find _), huser]
  dsimp only
  cases hreason : (s.user driverId).any (·.isOffline) && decide (trim (reason.getD "") = "") with
  | true =>
      rw [alone_refused rfl]
      rw [Bool.and_eq_true, decide_eq_true_eq] at hreason
      exact iff_of_false (fun h => by cases h) fun h => h.1 hreason.1 hreason.2
  | false =>
      have hgiven : (s.user driverId).any (·.isOffline) = true → trim (reason.getD "") ≠ "" := by
        intro hoffline hblank
        rw [hoffline, hblank] at hreason
        cases hreason
      rw [and_iff_right hgiven, Prog.alone_bind_ok (alone_refuseIf rfl),
        Prog.alone_bind_ok Prog.alone_scan]
      simp only [Order.withId_toOrder, hwarehouse]
      rw [Prog.alone_bind_ok (alone_require _ _)]
      cases hbody : ((machine cfg).body (.assign (o.withId orderId) (assignment driverId truckId
          tankId reason ((s.user driverId).any (·.isOffline)) warehouseId warehouse))).run (w.env 3)
            (View.start s.docs) with
      | ok r =>
          obtain ⟨s', hattempt, -⟩ := Machine.attempt_ok hbody
          refine iff_of_true ?_ (canBook_of_ok hbody)
          refine (congrArg Prod.fst (Prog.alone_bind_ok (Prog.alone_attempt_ok hattempt))).trans ?_
          exact congrArg Prod.fst (Prog.alone_bind_ok (alone_sideEffect hanswer))
      | error e =>
          have hattempt := Machine.attempt_error hbody
          refine iff_of_false (fun h => ?_) fun hbook => ?_
          · have herror := (congrArg Prod.fst
              (Prog.alone_bind_ok (Prog.alone_attempt_error hattempt))).symm.trans h
            cases e with
            | thrown e => cases e <;> cases herror
            | _ => cases herror
          · have ho' : (View.start s.docs).find (Key.order (o.withId orderId).id) = some o := ho
            obtain ⟨r, v, hran⟩ := returns_assignDriver ho' hstatus hfree hbook
            cases hbody.symm.trans hran

end alone

/-! ### In every state of a run -/

/-- In no state is anything booked for an order that waits for a driver. -/
theorem awaiting_unoccupied {cfg : Settings} {P : Event Doc Call.Reply → Prop}
    {log : List (Event Doc Call.Reply)} {s : Sys Doc Call.Reply Refusal Answer}
    (h : Run (machine cfg) Store.empty P log s) {id : Id} {o : Order}
    (ho : s.store.order id = some o) (hstatus : o.status = .routedToTransport) :
    Unoccupied s.store.docs id := by
  intro f t hbooked
  obtain ⟨hassigned, -⟩ := db_invariant
    (I := fun s => ∀ t id, f.booked s.docs t = some id →
      ∃ o, s.order id = some o ∧ o.status ∈ assignedStatuses)
    consistent_empty (fun _ _ h => by cases h)
    (fun ev hev _ hholds _ hbefore => commit_assigned hev hholds.older hholds.pre hbefore) h
  obtain ⟨o', ho', hstatus'⟩ := hassigned t id hbooked
  cases ho.symm.trans ho'
  simp [hstatus, assignedStatuses, activeStatuses] at hstatus'

/-- The scope of the company's administrator, within which the assignment books. -/
structure InScope (s : Db) (companyId driverId truckId tankId : Id) : Prop where
  driver : ∀ u, s.user driverId = some u → u.companyId = some companyId
  truck : ∀ t, s.truck truckId = some t → t.companyId = companyId
  tank : ∀ t, s.tank tankId = some t → t.companyId = companyId

/-- The row of a driver in the list offers the driver, where need be for a reason. -/
def Candidate.Offers (c : Candidate) (reason : Option String) : Prop :=
  c.eligibility = .eligible ∨ c.eligibility = .offline ∧ trim (reason.getD "") ≠ ""

/-- A list read in one state offers the idle drivers of the company. -/
theorem exists_offer {distance : GeoPoint → GeoPoint → ℚ} {createdAt : Id → Instant}
    {fuelCompanyId companyId orderId driverId : Id} {reads : CandidateReads} {cs : List Candidate}
    {d : Docs Doc}
    (hreads : reads.located = d ∧ reads.neverLocated = d)
    (hlist : getCandidates distance createdAt fuelCompanyId companyId orderId reads = .ok cs)
    (reason : Option String) :
    (∃ c ∈ cs, c.id = driverId ∧ c.Offers reason) ↔
      ∃ u : User, d.lookup (Key.user driverId) = some u ∧ u.DrivesFor companyId ∧
        (u.isActive = true ∧ u.isAvailable = true ∧ u.activeOrderId = none) ∧
          (u.isOffline = true → trim (reason.getD "") ≠ "") := by
  obtain ⟨order, -, -, -, rfl⟩ := getCandidates_ok hlist
  rw [hreads.1, hreads.2]
  constructor
  · rintro ⟨c, hc, rfl, hoffers⟩
    obtain ⟨c, hmem, rfl⟩ := List.mem_map.mp ((List.perm_insertionSort _ _).mem_iff.mp hc)
    obtain ⟨u, x, hu, hdrives, hcandidate⟩ : ∃ u x, d.lookup (Key.user c.id) = some u ∧
        u.DrivesFor companyId ∧ c = u.candidate (reads.profile c.id) c.id x := by
      rcases mem_findCandidates.mp hmem with ⟨u, _, hu, hdrives, -, hc⟩ | ⟨u, hu, hdrives, -, hc⟩
      · exact ⟨u, _, hu, hdrives, hc⟩
      · exact ⟨u, _, hu, hdrives, hc⟩
    have hclass : (annotate createdAt fuelCompanyId companyId reads c).eligibility =
        classifyEligibility (u.candidate (reads.profile c.id) c.id x) :=
      congrArg classifyEligibility hcandidate
    rw [Candidate.Offers, hclass] at hoffers
    refine ⟨u, hu, hdrives, ?_, fun hoffline => ?_⟩
    · exact classify_bookable.mp (hoffers.imp id And.left)
    · rcases hoffers with heligible | hreason
      · cases heligible.symm.trans (classify_offline.mpr hoffline)
      · exact hreason.2
  · rintro ⟨u, hu, hdrives, hidle, hreason⟩
    have hrow : u.candidate (reads.profile driverId) driverId
        (u.location.map (distance order.deliveryLocation)) ∈
        findCandidates (distance order.deliveryLocation) reads.profile companyId d d := by
      refine mem_findCandidates.mpr ?_
      cases hlocation : u.location with
      | some location => exact .inl ⟨u, location, hu, hdrives, hlocation, rfl⟩
      | none => exact .inr ⟨u, hu, hdrives, hlocation, rfl⟩
    refine ⟨_, (List.perm_insertionSort _ _).mem_iff.mpr (List.mem_map_of_mem hrow), rfl, ?_⟩
    rcases classify_bookable.mpr hidle with heligible | hoffline
    · exact .inl heligible
    · exact .inr ⟨hoffline, hreason (classify_offline.mp hoffline)⟩

/-- In every state of every run, the assignment of a waiting order succeeds with exactly the
drivers, trucks and tanks that the three lists offer for it. -/
theorem offered_iff_accepted {cfg : Settings} {P : Event Doc Call.Reply → Prop}
    {log : List (Event Doc Call.Reply)} {s : Sys Doc Call.Reply Refusal Answer}
    (h : Run (machine cfg) Store.empty P log s) {orderId : Id} {o : Order}
    (ho : s.store.order orderId = some o)
    (hwarehouse : findNearestSupplying cfg s.store.docs o.deliveryLocation o.fuelType ≠ none)
    {distance : GeoPoint → GeoPoint → ℚ} {createdAt : Id → Instant} {fuelCompanyId companyId : Id}
    {reads : CandidateReads} {cs : List Candidate} (hreads : reads.order = s.store.docs ∧
      reads.located = s.store.docs ∧ reads.neverLocated = s.store.docs)
    (hlist : getCandidates distance createdAt fuelCompanyId companyId orderId reads = .ok cs)
    {driverId truckId tankId : Id} (hscope : InScope s.store companyId driverId truckId tankId)
    {w : World} (hanswer : ∀ n, w.answer n = true) (user : AuthenticatedUser)
    (reason : Option String) :
    (((machine cfg).handle (.assign user orderId driverId truckId tankId reason)).alone (machine cfg)
        w 0 s.store).1 = .ok (.assigned driverId) ↔
      (∃ c ∈ cs, c.id = driverId ∧ c.Offers reason) ∧
      truckId ∈ (availableTrucks companyId s.store.docs).map Prod.fst ∧
      tankId ∈ (forOrderId companyId o.quantityLiters o.fuelType s.store.docs).map Prod.fst := by
  obtain ⟨order, horder, -, hstatus, -⟩ := getCandidates_ok hlist
  rw [hreads.1] at horder
  obtain rfl := Option.some.inj (horder.symm.trans ho)
  obtain ⟨⟨warehouseId, warehouse, metres⟩, hnearest⟩ := Option.ne_none_iff_exists'.mp hwarehouse
  refine (alone_assign ho hstatus hnearest (awaiting_unoccupied h ho hstatus) hanswer).trans ?_
  rw [exists_offer hreads.2 hlist, List.mem_map, List.mem_map]
  constructor
  · rintro ⟨hreason, ⟨u, hu, hrole, hidle⟩, ⟨t, ht, htidle⟩, ⟨k, hk, hkactive, hkidle⟩⟩
    have huser : s.store.user driverId = some u := hu
    rw [huser, Option.any_some] at hreason
    exact ⟨⟨u, hu, ⟨hrole, hscope.driver u hu⟩, hidle, hreason⟩,
      ⟨(truckId, t), mem_availableTrucks.mpr ⟨ht, hscope.truck t ht, htidle⟩, rfl⟩,
      ⟨(tankId, k), mem_forOrderId.mpr ⟨hk, hscope.tank k hk, hkactive, hkidle⟩, rfl⟩⟩
  · rintro ⟨⟨u, hu, hdrives, hidle, hreason⟩, ⟨⟨_, t⟩, ht, rfl⟩, ⟨⟨_, k⟩, hk, rfl⟩⟩
    have huser : s.store.user driverId = some u := hu
    obtain ⟨ht, -, htidle⟩ := mem_availableTrucks.mp ht
    obtain ⟨hk, -, hkidle⟩ := mem_forOrderId.mp hk
    rw [huser, Option.any_some]
    exact ⟨hreason, ⟨u, hu, hdrives.1, hidle⟩, ⟨t, ht, htidle⟩, ⟨k, hk, hkidle⟩⟩

namespace Sample

def assigns (s : Db) : Bool :=
  (((machine cfg).handle (.assign transportAdmin 100 30 40 50 none)).alone (machine cfg) world 0
    s).1 matches .ok (.assigned 30)

def inScope (s : Db) : Bool :=
  ((s.user 30).all fun u => u.companyId = some 11) && ((s.truck 40).all fun t => t.companyId = 11) &&
    (s.tank 50).all fun t => t.companyId = 11

theorem inScope_spec {s : Db} (h : inScope s = true) : InScope s 11 30 40 50 := by
  simp only [inScope, Bool.and_eq_true, Option.all_eq_true, decide_eq_true_eq] at h
  exact ⟨h.1.1, h.1.2, h.2⟩

theorem assigns_spec {s : Db} (h : assigns s = true) :
    (((machine cfg).handle (.assign transportAdmin 100 30 40 50 none)).alone (machine cfg) world 0
      s).1 = .ok (.assigned 30) := by
  unfold assigns at h
  split at h
  · assumption
  · cases h

end Sample

/-- The assignment goes through, so the driver was offered. -/
theorem offered_iff_accepted_awaitingDriver :
    ∃ log s cs, Run (machine Sample.cfg) Store.empty (fun _ => True) log s ∧
      Sample.candidates s.store.docs s.store.docs = .ok cs ∧ ∃ c ∈ cs, c.id = 30 ∧ c.Offers none := by
  obtain ⟨log, s, hrun, htest⟩ := exists_run (machine Sample.cfg) Store.empty (fun _ => True)
    Sample.awaitingDriver
    (fun _ s => (Sample.candidates s.store.docs s.store.docs).isOk && Sample.assigns s.store &&
      Sample.inScope s.store && (s.store.order 100).any fun o =>
        (findNearestSupplying Sample.cfg s.store.docs o.deliveryLocation o.fuelType).isSome)
    (by decide +kernel)
  simp only [Bool.and_eq_true] at htest
  obtain ⟨⟨⟨hok, hassigns⟩, hscope⟩, htest⟩ := htest
  obtain ⟨o, ho, hwarehouse⟩ := (Option.any_eq_true _ _).mp htest
  cases hcs : Sample.candidates s.store.docs s.store.docs with
  | error e => simp [hcs, Except.isOk, Except.toBool] at hok
  | ok cs =>
      have hoffered := (offered_iff_accepted hrun ho (Option.isSome_iff_ne_none.mp hwarehouse)
        ⟨rfl, rfl, rfl⟩ hcs (Sample.inScope_spec hscope) (fun _ => rfl) Sample.transportAdmin
          none).mp (Sample.assigns_spec hassigns)
      exact ⟨log, s, cs, hrun, hcs, hoffered.1⟩

end CiroFuel
