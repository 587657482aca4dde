import CiroFuel.Occupation
import CiroFuel.AccountSteps
import CiroFuel.Snapshot.History
import Mathlib.Data.List.Sort

/-!
# The candidates for an order

The assignment screen lists every driver of the transport company, with a note of who can
be picked, nearest first. The list is read in two queries, since a query by distance passes
over whoever has no position; a driver who reports the first position between the two is in
neither.
-/
namespace CiroFuel
open Snapshot Tx

/-! ### Reading one collection -/

/-- The documents that `pick` selects are those under the keys `key`. -/
def Picks {α : Type} (key : Id → Key) (up : (id : Id) → α → Doc (key id))
    (pick : (k : Key) → Doc k → Option (Id × α)) : Prop :=
  ∀ k x id a, pick k x = some (id, a) ↔ (⟨k, x⟩ : Sigma Doc) = ⟨key id, up id a⟩

section picks
variable {α : Type} {key : Id → Key} {up : (id : Id) → α → Doc (key id)}
  {pick : (k : Key) → Doc k → Option (Id × α)} {d : Docs Doc}

theorem Picks.mem (h : Picks key up pick) {id : Id} {a : α} :
    (id, a) ∈ Docs.collect pick d ↔ d.lookup (key id) = some (up id a) := by
  rw [Docs.mem_collect]
  constructor
  · rintro ⟨k, x, hx, hpick⟩
    cases (h k x id a).mp hpick
    exact hx
  · intro hx
    exact ⟨key id, up id a, hx, (h _ _ _ _).mpr rfl⟩

theorem Picks.nodup (h : Picks key up pick) : ((Docs.collect pick d).map Prod.fst).Nodup := by
  rw [Docs.collect, List.Nodup, List.pairwise_map, List.pairwise_filterMap]
  refine d.nodupKeys.pairwise_ne.imp ?_
  rintro ⟨k, x⟩ ⟨k', x'⟩ hne ⟨id, a⟩ hpick ⟨id', a'⟩ hpick' hids
  cases (h k x id a).mp hpick
  cases (h k' x' id' a').mp hpick'
  exact hne (congrArg key hids)

/-- `findOne` by `_id` and something else. -/
theorem Picks.find_iff (h : Picks key up pick) {id t : Id} {a : α} {p : α → Bool} :
    (Docs.collect pick d).find? (fun x => x.1 = id && p x.2) = some (t, a) ↔
      t = id ∧ (t, a) ∈ Docs.collect pick d ∧ p a = true := by
  constructor
  · intro hfind
    have hp := List.find?_some hfind
    rw [Bool.and_eq_true, decide_eq_true_eq] at hp
    exact ⟨hp.1, List.mem_of_find?_eq_some hfind, hp.2⟩
  · rintro ⟨rfl, hmem, hp⟩
    cases hfind : (Docs.collect pick d).find? fun x => x.1 = t && p x.2 with
    | none => exact absurd (List.find?_eq_none.mp hfind (t, a) hmem) (by simp [hp])
    | some x =>
        have hx := List.find?_some hfind
        rw [Bool.and_eq_true, decide_eq_true_eq] at hx
        rw [List.inj_on_of_nodup_map h.nodup (List.mem_of_find?_eq_some hfind) hmem hx.1]

end picks

def pickUser : (k : Key) → Doc k → Option (Id × User)
  | .user id, (u : User) => some (id, u)
  | _, _ => none

def pickTruck : (k : Key) → Doc k → Option (Id × Truck)
  | .truck id, (t : Truck) => some (id, t)
  | _, _ => none

def pickTank : (k : Key) → Doc k → Option (Id × Tank)
  | .tank id, (t : Tank) => some (id, t)
  | _, _ => none

theorem picks_user : Picks Key.user (fun _ u => u) pickUser := by
  intro k x id a
  cases k <;> simp [pickUser]

theorem picks_truck : Picks Key.truck (fun _ t => t) pickTruck := by
  intro k x id a
  cases k <;> simp [pickTruck]

theorem picks_tank : Picks Key.tank (fun _ t => t) pickTank := by
  intro k x id a
  cases k <;> simp [pickTank]

theorem picks_order : Picks Key.order (fun _ o => o) pickOrder := by
  intro k x id a
  cases k <;> simp [pickOrder]

/-! ### The list -/

inductive DriverEligibility where
  | eligible | busy | offline | inactive
deriving DecidableEq, Repr

/-- What a query reads of a driver besides. -/
structure DriverProfile where
  lastSeenAt : Option Instant := none
  ratingAverage : Option ℚ := none
  ratingCount : Option ℕ := none

/-- What the screen is told of a driver. -/
structure DriverCandidate extends DriverProfile where
  id : Id
  companyId : Option Id
  fullName : String
  phone : String
  isActive : Bool
  isOnline : Bool
  isAvailable : Bool
  activeOrderId : Option Id
  distanceMeters : Option ℚ

def User.candidate (u : User) (profile : DriverProfile) (id : Id) (distanceMeters : Option ℚ) :
    DriverCandidate where
  toDriverProfile := profile
  id := id
  companyId := u.companyId
  fullName := u.fullName
  phone := u.phone
  isActive := u.isActive
  isOnline := u.isOnline
  isAvailable := u.isAvailable
  activeOrderId := u.activeOrderId
  distanceMeters := distanceMeters

/-- A driver can be busy and offline at once; only an offline driver can still be picked, so
busy is told first. -/
def classifyEligibility (driver : DriverCandidate) : DriverEligibility :=
  if driver.isActive = false then .inactive
  else if driver.isAvailable = false ∨ driver.activeOrderId.isSome then .busy
  else if driver.isOnline = false then .offline
  else .eligible

/-- A document of the company, as the scope of its administrator has it. -/
def drivers (d : Docs Doc) (companyId : Id) : List (Id × User) :=
  (Docs.collect pickUser d).filter fun u => u.2.role = .driver && u.2.companyId = some companyId

/-- `$geoNear`, with the distance as the database computes it. It passes over documents
without the field it sorts by. -/
def located (distance : GeoPoint → ℚ) (companyId : Id) (d : Docs Doc) : List (ℚ × Id × User) :=
  ((drivers d companyId).filterMap fun u =>
    u.2.location.map fun location => (distance location, u)).insertionSort fun a b => a.1 ≤ b.1

def neverLocated (companyId : Id) (d : Docs Doc) : List (Id × User) :=
  (drivers d companyId).filter fun u => u.2.location.isNone

/-- The two queries read at `d` and at `d'`. -/
def findCandidates (distance : GeoPoint → ℚ) (profile : Id → DriverProfile) (companyId : Id)
    (d d' : Docs Doc) : List DriverCandidate :=
  (located distance companyId d).map
      (fun u => u.2.2.candidate (profile u.2.1) u.2.1 (some u.1)) ++
    (neverLocated companyId d').map fun u => u.2.candidate (profile u.1) u.1 none

/-- The order is one that the company carries for the fuel company it belongs to. -/
def Order.carriedBy (o : Order) (fuelCompanyId companyId : Id) : Bool :=
  o.fuelCompanyId = fuelCompanyId && o.transportCompanyId = some companyId

/-- The orders of the company that the driver was given with a truck. -/
def operatedOrders (fuelCompanyId companyId driverId : Id) (d : Docs Doc) : List (Id × Order) :=
  (Docs.collect pickOrder d).filter fun o =>
    o.2.carriedBy fuelCompanyId companyId && o.2.driverId = some driverId && o.2.truckId.isSome

/-- The vehicle is the company's, in service and free. -/
def Truck.isOffered (t : Truck) (companyId : Id) : Bool :=
  t.companyId = companyId && t.isActive && t.activeOrderId.isNone

/-- The truck the driver had last, by the times at which orders were created; `d` and `d'` are
the states in which the two queries read. -/
def getSuggestedTruck (createdAt : Id → Instant) (fuelCompanyId companyId driverId : Id)
    (d d' : Docs Doc) : Option (Id × Truck) :=
  let newest := ((operatedOrders fuelCompanyId companyId driverId d).insertionSort fun a b =>
    createdAt b.1 ≤ createdAt a.1).head?
  match newest.bind (·.2.truckId) with
  | none => none
  | some truckId =>
      (Docs.collect pickTruck d').find? fun t => t.1 = truckId && t.2.isOffered companyId

structure Candidate extends DriverCandidate where
  eligibility : DriverEligibility
  suggestedTruck : Option (Id × Truck)

def Candidate.rank (c : Candidate) : ℕ := if c.eligibility = .eligible then 0 else 1

/-- The states in which the queries behind one list read. -/
structure CandidateReads where
  order : Docs Doc
  located : Docs Doc
  neverLocated : Docs Doc
  profile : Id → DriverProfile
  history : Id → Docs Doc
  trucks : Id → Docs Doc

def annotate (createdAt : Id → Instant) (fuelCompanyId companyId : Id) (reads : CandidateReads)
    (c : DriverCandidate) : Candidate where
  toDriverCandidate := c
  eligibility := classifyEligibility c
  suggestedTruck := getSuggestedTruck createdAt fuelCompanyId companyId c.id (reads.history c.id)
    (reads.trucks c.id)

inductive CandidatesRefusal where
  | orderNotFound
  | notAwaitingAssignment (orderId : Id)
deriving DecidableEq, Repr

def getCandidates (distance : GeoPoint → GeoPoint → ℚ) (createdAt : Id → Instant)
    (fuelCompanyId companyId orderId : Id) (reads : CandidateReads) :
    Except CandidatesRefusal (List Candidate) :=
  match reads.order.lookup (Key.order orderId) with
  | none => .error .orderNotFound
  | some (order : Order) =>
      if order.carriedBy fuelCompanyId companyId = false then .error .orderNotFound
      else if order.status ≠ .routedToTransport then .error (.notAwaitingAssignment orderId)
      else
        .ok (((findCandidates (distance order.deliveryLocation) reads.profile companyId
          reads.located reads.neverLocated).map
            (annotate createdAt fuelCompanyId companyId reads)).insertionSort
              fun a b => a.rank ≤ b.rank)

/-! ### Sorting by rank -/

section rank
variable {α : Type} {rank : α → ℕ} {R : α → α → Prop}

/-- The lower rank first, and equals in the order `R`. -/
def ByRank (rank : α → ℕ) (R : α → α → Prop) (a b : α) : Prop :=
  rank a < rank b ∨ rank a = rank b ∧ R a b

theorem pairwise_orderedInsert {a : α} {l : List α} (hl : l.Pairwise (ByRank rank R))
    (ha : ∀ b ∈ l, R a b) : (l.orderedInsert (fun a b => rank a ≤ rank b) a).Pairwise
      (ByRank rank R) := by
  induction l with
  | nil => exact List.pairwise_singleton _ _
  | cons b l ih =>
      obtain ⟨hb, hrest⟩ := List.pairwise_cons.mp hl
      rw [List.orderedInsert_cons]
      split_ifs with hle
      · refine List.pairwise_cons.mpr ⟨fun c hc => ?_, hl⟩
        have hbc : rank b ≤ rank c := by
          rcases List.mem_cons.mp hc with rfl | hc
          · exact le_refl _
          · rcases hb c hc with hlt | ⟨heq, -⟩
            · exact hlt.le
            · exact heq.le
        rcases (hle.trans hbc).lt_or_eq with hlt | heq
        · exact .inl hlt
        · exact .inr ⟨heq, ha c hc⟩
      · refine List.pairwise_cons.mpr ⟨fun c hc => ?_, ih hrest fun c hc => ha c (.tail _ hc)⟩
        rcases (List.mem_orderedInsert _).mp hc with rfl | hc
        · exact .inl (not_le.mp hle)
        · exact hb c hc

/-- The sort is stable: what was in order stays so within a rank. -/
theorem pairwise_insertionSort {l : List α} (hl : l.Pairwise R) :
    (l.insertionSort fun a b => rank a ≤ rank b).Pairwise (ByRank rank R) := by
  induction l with
  | nil => exact List.Pairwise.nil
  | cons a l ih =>
      obtain ⟨ha, hrest⟩ := List.pairwise_cons.mp hl
      refine pairwise_orderedInsert (ih hrest) fun b hb => ha b ?_
      exact (List.perm_insertionSort _ l).mem_iff.mp hb

end rank

/-! ### Who is listed -/

section listed
variable {distance : GeoPoint → ℚ} {createdAt : Id → Instant} {companyId : Id} {d d' : Docs Doc}
  {profile : Id → DriverProfile}

/-- The user is a driver of the company. -/
def User.DrivesFor (u : User) (companyId : Id) : Prop :=
  u.role = .driver ∧ u.companyId = some companyId

theorem mem_drivers {id : Id} {u : User} : (id, u) ∈ drivers d companyId ↔
    d.lookup (Key.user id) = some u ∧ u.DrivesFor companyId := by
  rw [drivers, List.mem_filter, picks_user.mem, Bool.and_eq_true, decide_eq_true_eq,
    decide_eq_true_eq, User.DrivesFor]

theorem drivers_nodup : ((drivers d companyId).map Prod.fst).Nodup :=
  picks_user.nodup.sublist (List.filter_sublist.map _)

theorem mem_located {x : ℚ} {id : Id} {u : User} : (x, id, u) ∈ located distance companyId d ↔
    (d.lookup (Key.user id) = some u ∧ u.DrivesFor companyId) ∧
      ∃ location, u.location = some location ∧ distance location = x := by
  rw [located, (List.perm_insertionSort _ _).mem_iff, List.mem_filterMap]
  constructor
  · rintro ⟨⟨id', u'⟩, hu, hmap⟩
    obtain ⟨location, hlocation, heq⟩ := Option.map_eq_some_iff.mp hmap
    cases heq
    exact ⟨mem_drivers.mp hu, location, hlocation, rfl⟩
  · rintro ⟨hu, location, hlocation, rfl⟩
    refine ⟨(id, u), mem_drivers.mpr hu, ?_⟩
    simp [hlocation]

theorem located_nodup : ((located distance companyId d).map (·.2.1)).Nodup := by
  have hperm := List.perm_insertionSort (fun a b : ℚ × Id × User => a.1 ≤ b.1)
    ((drivers d companyId).filterMap fun u =>
      u.2.location.map fun location => (distance location, u))
  refine (hperm.map _).nodup_iff.mpr ?_
  have hdrivers : (drivers d companyId).Pairwise fun a b => a.1 ≠ b.1 :=
    List.pairwise_map.mp drivers_nodup
  rw [List.Nodup, List.pairwise_map, List.pairwise_filterMap]
  refine hdrivers.imp ?_
  rintro a b hne x hx y hy
  obtain ⟨_, -, rfl⟩ := Option.map_eq_some_iff.mp hx
  obtain ⟨_, -, rfl⟩ := Option.map_eq_some_iff.mp hy
  exact hne

theorem mem_neverLocated {id : Id} {u : User} : (id, u) ∈ neverLocated companyId d ↔
    (d.lookup (Key.user id) = some u ∧ u.DrivesFor companyId) ∧ u.location = none := by
  rw [neverLocated, List.mem_filter, mem_drivers, Option.isNone_iff_eq_none]

/-- The one with a position first, and of two of them the nearer. -/
def DriverCandidate.Nearer (a b : DriverCandidate) : Prop :=
  ∀ x, b.distanceMeters = some x → ∃ y, a.distanceMeters = some y ∧ y ≤ x

theorem findCandidates_nearer :
    (findCandidates distance profile companyId d d').Pairwise DriverCandidate.Nearer := by
  rw [findCandidates, List.pairwise_append]
  refine ⟨?_, ?_, ?_⟩
  · refine List.pairwise_map.mpr ((List.pairwise_insertionSort _ _).imp ?_)
    intro a b hab x hx
    cases hx
    exact ⟨_, rfl, hab⟩
  · refine List.pairwise_map.mpr (List.pairwise_of_forall fun a b x hx => ?_)
    cases hx
  · intro a _ b hb x hx
    obtain ⟨u, -, rfl⟩ := List.mem_map.mp hb
    cases hx

theorem mem_findCandidates {c : DriverCandidate} :
    c ∈ findCandidates distance profile companyId d d' ↔
      (∃ u location, d.lookup (Key.user c.id) = some u ∧ u.DrivesFor companyId ∧
        u.location = some location ∧ c = u.candidate (profile c.id) c.id (some (distance location))) ∨
      ∃ u, d'.lookup (Key.user c.id) = some u ∧ u.DrivesFor companyId ∧ u.location = none ∧
        c = u.candidate (profile c.id) c.id none := by
  rw [findCandidates, List.mem_append, List.mem_map, List.mem_map]
  constructor
  · rintro (⟨⟨x, id, u⟩, hu, rfl⟩ | ⟨⟨id, u⟩, hu, rfl⟩)
    · obtain ⟨⟨hstored, hdrives⟩, location, hlocation, rfl⟩ := mem_located.mp hu
      exact .inl ⟨u, location, hstored, hdrives, hlocation, rfl⟩
    · obtain ⟨⟨hstored, hdrives⟩, hlocation⟩ := mem_neverLocated.mp hu
      exact .inr ⟨u, hstored, hdrives, hlocation, rfl⟩
  · rintro (⟨u, location, hstored, hdrives, hlocation, hc⟩ | ⟨u, hstored, hdrives, hlocation, hc⟩)
    · exact .inl ⟨(_, c.id, u), mem_located.mpr ⟨⟨hstored, hdrives⟩, location, hlocation, rfl⟩,
        hc.symm⟩
    · exact .inr ⟨(c.id, u), mem_neverLocated.mpr ⟨⟨hstored, hdrives⟩, hlocation⟩, hc.symm⟩

end listed

/-! ### What becomes of a user -/

/-- A user keeps role and company, and a position once there is one. -/
structure User.Keeps (u u' : User) : Prop where
  role : u'.role = u.role
  companyId : u'.companyId = u.companyId
  located : u.location ≠ none → u'.location ≠ none

theorem UserStep.keeps {reactivates : Prop} {u u' : User} (h : UserStep reactivates u u') :
    u.Keeps u' := by
  cases h with
  | setOnline online location =>
      refine ⟨rfl, rfl, fun hlocated hnone => hlocated ?_⟩
      exact (Option.or_eq_none_iff.mp hnone).2
  | _ => exact ⟨rfl, rfl, fun h => h⟩

theorem keeps_of_steps {reactivates : Prop} {u u' : User}
    (h : Relation.ReflTransGen (UserStep reactivates) u u') : u.Keeps u' := by
  induction h with
  | refl => exact ⟨rfl, rfl, fun h => h⟩
  | tail _ hstep ih =>
      have hkeeps := hstep.keeps
      exact ⟨hkeeps.role.trans ih.role, hkeeps.companyId.trans ih.companyId,
        fun hlocated => hkeeps.located (ih.located hlocated)⟩

theorem User.Keeps.drives {u u' : User} (h : u.Keeps u') {companyId : Id} :
    u'.DrivesFor companyId ↔ u.DrivesFor companyId := by
  rw [User.DrivesFor, User.DrivesFor, h.role, h.companyId]

section runs
variable {cfg : Settings} {P : Event Doc Call.Reply → Prop} {init : Db}

theorem run_users {later earlier : List (Event Doc Call.Reply)}
    {s : Sys Doc Call.Reply Refusal Answer}
    (h : Run (machine cfg) init P (later ++ earlier) s) :
    UsersStep (fun _ => True) (leaves init earlier).docs s.store.docs := by
  refine h.snapshots.since
    (J := fun s' : Db => UsersStep (fun _ => True) (leaves init earlier).docs s'.docs)
    (Std.Refl.refl _) fun ev _ hev hP hbefore => ?_
  exact IsTrans.trans _ _ _ hbefore ((commit_users hev hP.2).mono fun _ _ => trivial)

end runs

/-! ### The whole list -/

section complete
variable {distance : GeoPoint → GeoPoint → ℚ} {createdAt : Id → Instant}
  {fuelCompanyId companyId orderId : Id}
  {reads : CandidateReads} {cs : List Candidate}

theorem getCandidates_ok
    (h : getCandidates distance createdAt fuelCompanyId companyId orderId reads = .ok cs) :
    ∃ order : Order, reads.order.lookup (Key.order orderId) = some order ∧
      order.carriedBy fuelCompanyId companyId = true ∧ order.status = .routedToTransport ∧
      cs = ((findCandidates (distance order.deliveryLocation) reads.profile companyId
        reads.located reads.neverLocated).map
          (annotate createdAt fuelCompanyId companyId reads)).insertionSort
            fun a b => a.rank ≤ b.rank := by
  unfold getCandidates at h
  split at h
  · cases h
  · rename_i order horder
    split_ifs at h with hcompany hstatus
    have hcarried : order.carriedBy fuelCompanyId companyId = true := by simpa using hcompany
    exact ⟨order, horder, hcarried, not_not.mp hstatus, (Except.ok.inj h).symm⟩

/-- Of the orders the company gave the driver with a truck, one that was created last. -/
structure Newest (createdAt : Id → Instant) (fuelCompanyId companyId driverId : Id) (d : Docs Doc)
    (id : Id) (o : Order) (truckId : Id) : Prop where
  stored : d.lookup (Key.order id) = some o
  company : o.carriedBy fuelCompanyId companyId = true
  driver : o.driverId = some driverId
  truck : o.truckId = some truckId
  newest (id' : Id) (o' : Order) : d.lookup (Key.order id') = some o' →
    o'.carriedBy fuelCompanyId companyId = true → o'.driverId = some driverId → o'.truckId ≠ none →
      createdAt id' ≤ createdAt id

theorem mem_operatedOrders {d : Docs Doc} {driverId id : Id} {o : Order} :
    (id, o) ∈ operatedOrders fuelCompanyId companyId driverId d ↔
      d.lookup (Key.order id) = some o ∧ o.carriedBy fuelCompanyId companyId = true ∧
        o.driverId = some driverId ∧ o.truckId ≠ none := by
  rw [operatedOrders, List.mem_filter, picks_order.mem]
  simp only [Bool.and_eq_true, decide_eq_true_eq, Option.isSome_iff_ne_none, and_assoc]

/-- The truck the driver had last if it can be picked, and otherwise none. -/
def LastTruck (createdAt : Id → Instant) (fuelCompanyId companyId driverId : Id) (d d' : Docs Doc)
    (suggested : Option (Id × Truck)) : Prop :=
  (suggested = none ∧ ∀ (id : Id) (o : Order), d.lookup (Key.order id) = some o →
    o.carriedBy fuelCompanyId companyId = true → o.driverId = some driverId → o.truckId = none) ∨
  ∃ id o truckId, Newest createdAt fuelCompanyId companyId driverId d id o truckId ∧
    ∀ t truck, suggested = some (t, truck) ↔
      t = truckId ∧ d'.lookup (Key.truck t) = some truck ∧ truck.isOffered companyId = true

theorem getSuggestedTruck_last (createdAt : Id → Instant) (fuelCompanyId companyId driverId : Id)
    (d d' : Docs Doc) : LastTruck createdAt fuelCompanyId companyId driverId d d'
      (getSuggestedTruck createdAt fuelCompanyId companyId driverId d d') := by
  unfold getSuggestedTruck
  have hsorted := List.pairwise_insertionSort (fun a b : Id × Order => createdAt b.1 ≤ createdAt a.1)
    (operatedOrders fuelCompanyId companyId driverId d)
  have hmem : ∀ a, a ∈ (operatedOrders fuelCompanyId companyId driverId d).insertionSort
      (fun a b => createdAt b.1 ≤ createdAt a.1) ↔
        a ∈ operatedOrders fuelCompanyId companyId driverId d :=
    fun a => (List.perm_insertionSort _ _).mem_iff
  generalize (operatedOrders fuelCompanyId companyId driverId d).insertionSort
    (fun a b => createdAt b.1 ≤ createdAt a.1) = l at hsorted hmem ⊢
  cases l with
  | nil =>
      refine .inl ⟨rfl, fun id o ho hcompany hdriver => ?_⟩
      by_contra htruck
      exact absurd ((hmem (id, o)).mpr (mem_operatedOrders.mpr ⟨ho, hcompany, hdriver, htruck⟩))
        List.not_mem_nil
  | cons first rest =>
      obtain ⟨id, o⟩ := first
      obtain ⟨ho, hcompany, hdriver, htruck⟩ := mem_operatedOrders.mp
        ((hmem (id, o)).mp List.mem_cons_self)
      obtain ⟨truckId, htruckId⟩ := Option.ne_none_iff_exists'.mp htruck
      refine .inr ⟨id, o, truckId, ⟨ho, hcompany, hdriver, htruckId, ?_⟩, fun t truck => ?_⟩
      · intro id' o' ho' hcompany' hdriver' htruck'
        have hmem' := (hmem (id', o')).mpr
          (mem_operatedOrders.mpr ⟨ho', hcompany', hdriver', htruck'⟩)
        rcases List.mem_cons.mp hmem' with heq | hrest
        · rw [(Prod.mk.inj heq).1]
        · exact (List.pairwise_cons.mp hsorted).1 _ hrest
      · simp only [List.head?_cons, Option.bind_some, htruckId]
        rw [picks_truck.find_iff (p := fun t => t.isOffered companyId), picks_truck.mem]

/-- The one who can be picked first, and of two of them the nearer. -/
def Candidate.Before : Candidate → Candidate → Prop :=
  ByRank Candidate.rank fun a b => a.toDriverCandidate.Nearer b.toDriverCandidate

/-- What a row says is what one of the two queries read of a driver of the company. -/
structure CandidateRow (createdAt : Id → Instant) (fuelCompanyId companyId : Id)
    (reads : CandidateReads) (c : Candidate) : Prop where
  driver : ∃ u : User, (reads.located.lookup (Key.user c.id) = some u ∨
    reads.neverLocated.lookup (Key.user c.id) = some u) ∧ u.DrivesFor companyId ∧
      c.toDriverCandidate = u.candidate (reads.profile c.id) c.id c.distanceMeters
  eligibility : c.eligibility = classifyEligibility c.toDriverCandidate
  suggestedTruck : LastTruck createdAt fuelCompanyId companyId c.id (reads.history c.id)
    (reads.trucks c.id) c.suggestedTruck

theorem candidateRow_annotate {near : GeoPoint → ℚ} {c : DriverCandidate}
    (hc : c ∈ findCandidates near reads.profile companyId reads.located reads.neverLocated) :
    CandidateRow createdAt fuelCompanyId companyId reads
      (annotate createdAt fuelCompanyId companyId reads c) where
  driver := by
    rcases mem_findCandidates.mp hc with ⟨u, location, hu, hdrives, -, heq⟩ |
      ⟨u, hu, hdrives, -, heq⟩
    · exact ⟨u, .inl hu, hdrives, by rw [heq]; rfl⟩
    · exact ⟨u, .inr hu, hdrives, by rw [heq]; rfl⟩
  eligibility := rfl
  suggestedTruck := getSuggestedTruck_last ..

theorem findCandidates_nodup {near : GeoPoint → ℚ}
    (h : UsersStep (fun _ => True) reads.located reads.neverLocated) :
    ((findCandidates near reads.profile companyId reads.located reads.neverLocated).map
      (·.id)).Nodup := by
  have hids : (findCandidates near reads.profile companyId reads.located reads.neverLocated).map
      (·.id) = (located near companyId reads.located).map (·.2.1) ++
        (neverLocated companyId reads.neverLocated).map Prod.fst := by
    simp only [findCandidates, List.map_append, List.map_map]
    rfl
  rw [hids, List.nodup_append]
  refine ⟨located_nodup, drivers_nodup.sublist (List.filter_sublist.map _), ?_⟩
  rintro id hid _ hid' rfl
  obtain ⟨⟨x, id, u⟩, hu, rfl⟩ := List.mem_map.mp hid
  obtain ⟨⟨_, u'⟩, hu', heq⟩ := List.mem_map.mp hid'
  obtain rfl := heq
  obtain ⟨⟨hstored, -⟩, location, hlocation, -⟩ := mem_located.mp hu
  obtain ⟨⟨hstored', -⟩, hnone⟩ := mem_neverLocated.mp hu'
  obtain ⟨u'', hu'', hsteps⟩ := h _ u hstored
  obtain rfl := Option.some.inj (hstored'.symm.trans hu'')
  exact (keeps_of_steps hsteps).located (by simp [hlocation]) hnone

/-- A list of candidates whose two queries read at two moments of a run, in whatever states
the rest was read. No driver is in it twice, whoever can be picked comes first, the nearer
before the farther, and of the company's drivers only one can be missing who reports a first
position between the two. -/
theorem candidates_complete {cfg : Settings} {P : Event Doc Call.Reply → Prop} {init : Db}
    {later earlier : List (Event Doc Call.Reply)} {s : Sys Doc Call.Reply Refusal Answer}
    (h : Run (machine cfg) init P (later ++ earlier) s)
    (hlocated : reads.located = (leaves init earlier).docs)
    (hnever : reads.neverLocated = s.store.docs)
    (hlist : getCandidates distance createdAt fuelCompanyId companyId orderId reads = .ok cs) :
    (cs.map (·.id)).Nodup ∧ cs.Pairwise Candidate.Before ∧
      (∀ c ∈ cs, CandidateRow createdAt fuelCompanyId companyId reads c) ∧
      ∀ (id : Id) (u : User), reads.located.lookup (Key.user id) = some u →
        u.DrivesFor companyId → id ∈ cs.map (·.id) ∨ u.location = none ∧
          ∃ u', s.store.user id = some u' ∧ u'.location ≠ none := by
  obtain ⟨order, -, -, -, rfl⟩ := getCandidates_ok hlist
  have hsteps : UsersStep (fun _ => True) reads.located reads.neverLocated := by
    rw [hlocated, hnever]
    exact run_users h
  have hperm := List.perm_insertionSort (fun a b : Candidate => a.rank ≤ b.rank)
    ((findCandidates (distance order.deliveryLocation) reads.profile companyId reads.located
      reads.neverLocated).map (annotate createdAt fuelCompanyId companyId reads))
  have hids : ∀ l : List DriverCandidate,
      (l.map (annotate createdAt fuelCompanyId companyId reads)).map (·.id) = l.map (·.id) := by
    intro l
    rw [List.map_map]
    rfl
  refine ⟨?_, ?_, fun c hc => ?_, fun id u hu hdrives => ?_⟩
  · refine (hperm.map _).nodup_iff.mpr ?_
    rw [hids]
    exact findCandidates_nodup hsteps
  · exact pairwise_insertionSort (List.pairwise_map.mpr findCandidates_nearer)
  · obtain ⟨c, hmem, rfl⟩ := List.mem_map.mp (hperm.mem_iff.mp hc)
    exact candidateRow_annotate hmem
  · rw [(hperm.map _).mem_iff, hids]
    obtain ⟨u', hu', hkeeps⟩ := hsteps id u hu
    have hdrives' := (keeps_of_steps hkeeps).drives.mpr hdrives
    cases hlocation : u.location with
    | some location =>
        exact .inl (List.mem_map.mpr ⟨u.candidate (reads.profile id) id
            (some (distance order.deliveryLocation location)),
          mem_findCandidates.mpr (.inl ⟨u, location, hu, hdrives, hlocation, rfl⟩), rfl⟩)
    | none =>
        by_cases hfirst : u'.location = none
        · exact .inl (List.mem_map.mpr ⟨u'.candidate (reads.profile id) id none,
            mem_findCandidates.mpr (.inr ⟨u', hu', hdrives', hfirst, rfl⟩), rfl⟩)
        · refine .inr ⟨rfl, u', ?_, hfirst⟩
          rw [hnever] at hu'
          exact hu'

end complete

namespace Sample

/-- A direct order that is paid and has no driver yet. -/
def awaitingDriver : List (Act Request) :=
  opening ++ serve (.create client (order .direct)) 10 6 100 ++
    serve (.approve fuelAdmin 100 none none) 11 17 200 ++
    serve (.webhook .sadad ⟨7, 100, 4945 / 2, .sar, true⟩ true) 12 10 300

/-- The second query by its own state; the lookups read with it. -/
def readsOf (d d' : Docs Doc) : CandidateReads where
  order := d
  located := d
  neverLocated := d'
  profile _ := {}
  history _ := d'
  trucks _ := d'

def candidates (d d' : Docs Doc) : Except CandidatesRefusal (List Candidate) :=
  getCandidates cfg.distanceMeters (fun _ => 0) 10 11 100 (readsOf d d')

/-- A second driver reports a position, and is offline before the second query. -/
def secondDriver : List (Act Request) :=
  awaitingDriver ++ serve (.administer (.addUser 31 .driver (some 11) "Second" "3" none)) 13 2 ++
    serve (.administer (.setOnline 31 true (some ⟨1500, 0⟩))) 14 2 ++
    serve (.administer (.setOnline 31 false none)) 15 2

/-- Of two drivers of the company one has no position, and the other goes offline. -/
def apart (before s : Db) : Bool :=
  (before.user 30).any (fun u => u.role = .driver && u.companyId = some 11) &&
    (before.user 31).any (fun u => u.role = .driver && u.companyId = some 11 && u.isOnline &&
      u.location.isSome) &&
    (s.user 30).all (fun u => u.location.isNone) && (s.user 31).any fun u => !u.isOnline

theorem apart_spec {before s : Db} (h : apart before s = true) :
    (∃ u, before.user 30 = some u ∧ u.DrivesFor 11) ∧
    (∃ u, before.user 31 = some u ∧ u.DrivesFor 11 ∧ u.location ≠ none) ∧
    ∀ u, s.user 30 = some u → u.location = none := by
  simp only [apart, Bool.and_eq_true, Option.any_eq_true, Option.all_eq_true, decide_eq_true_eq,
    Option.isSome_iff_ne_none, Option.isNone_iff_eq_none] at h
  obtain ⟨⟨⟨⟨u, hu, hdrives⟩, v, hv, ⟨hdrives', -⟩, hlocated⟩, hnone⟩, -⟩ := h
  exact ⟨⟨u, hu, hdrives⟩, ⟨v, hv, hdrives', hlocated⟩, hnone⟩

end Sample

/-- The first query finds the second driver, who is offline when the second query finds the
first. -/
theorem candidates_complete_awaitingDriver :
    ∃ later earlier s cs, Run (machine Sample.cfg) Store.empty (fun _ => True) (later ++ earlier) s ∧
      Sample.candidates (leaves Store.empty earlier).docs s.store.docs = .ok cs ∧
      30 ∈ cs.map (·.id) ∧ 31 ∈ cs.map (·.id) := by
  obtain ⟨log, s, hrun, htest⟩ := exists_run (machine Sample.cfg) Store.empty (fun _ => True)
    Sample.secondDriver
    (fun log s =>
      (Sample.candidates (leaves Store.empty (log.drop 1)).docs s.store.docs).isOk &&
        Sample.apart (leaves Store.empty (log.drop 1)) s.store) (by decide +kernel)
  obtain ⟨hok, htest⟩ := Bool.and_eq_true_iff.mp htest
  obtain ⟨⟨u, hu, hdrives⟩, ⟨v, hv, hdrives', hlocated⟩, hnone⟩ := Sample.apart_spec htest
  have hcut : Run (machine Sample.cfg) Store.empty (fun _ => True) (log.take 1 ++ log.drop 1) s := by
    rwa [List.take_append_drop]
  cases hcs : Sample.candidates (leaves Store.empty (log.drop 1)).docs s.store.docs with
  | error e =>
      rw [hcs] at hok
      cases hok
  | ok cs =>
      obtain ⟨-, -, -, hlisted⟩ := candidates_complete hcut rfl rfl hcs
      refine ⟨_, _, s, cs, hcut, hcs, ?_, ?_⟩
      · rcases hlisted 30 u hu hdrives with hmem | ⟨-, u', hu', hmoved⟩
        · exact hmem
        · exact absurd (hnone u' hu') hmoved
      · rcases hlisted 31 v hv hdrives' with hmem | ⟨hmissing, -⟩
        · exact hmem
        · exact absurd hmissing hlocated

end CiroFuel
