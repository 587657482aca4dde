import CiroFuel.Cursors
import CiroFuel.Movement

/-!
# The roster

All drivers of the platform, newest account first, with what each is doing and the truck
each drove last. The list is filtered by the very thing that a row shows, and whoever meets
the filter from the first page to the last is on one of them, connected or not.
-/
namespace CiroFuel.Roster
open Query Cursors Json Movement

inductive DutyState where
  | onDuty
  | offDuty
  | unknown
deriving DecidableEq, Repr

/-- A document of `users`, with what the roster reads of it. -/
structure Member extends Duty where
  id : Id
  role : UserRole
  fullName : String
  phone : String
  isActive : Option Bool := none
  companyId : Option Id := none
  createdAt : ℕ

def dutyStateOf (driver : Duty) : DutyState :=
  if driver.lastSeenAt.isNone then .unknown else if driver.isOnline then .onDuty else .offDuty

/-- A condition on one field of a document. -/
abbrev FieldFilter := Name String × (Member → Bool)

def dutyStateFilter : DutyState → List FieldFilter
  | .unknown => [(.field "lastSeenAt", fun m => m.lastSeenAt.isNone)]
  | .onDuty =>
      [(.field "lastSeenAt", fun m => m.lastSeenAt.isSome), (.field "isOnline", fun m => m.isOnline)]
  | .offDuty =>
      [(.field "lastSeenAt", fun m => m.lastSeenAt.isSome), (.field "isOnline", fun m => !m.isOnline)]

structure DriverRosterFilter where
  isActive : Option Bool := none
  dutyState : Option DutyState := none

def DRIVER_ROSTER_SORT_KEYS : List (SortField String) := [⟨"createdAt", .desc⟩, ⟨"_id", .desc⟩]

def Member.position (m : Member) : Position Numbers := fun f =>
  if f = "createdAt" then m.createdAt else if f = "_id" then m.id else 0

def rosterQuery (filter : DriverRosterFilter) : Conditions String Member :=
  .object ((.field "role", fun m => decide (m.role = .driver)) ::
    ((filter.isActive.map fun active =>
        ((.field "isActive", fun m => decide (m.isActive = some active)) : FieldFilter)).toList ++
      (filter.dutyState.map dutyStateFilter).getD []))

/-! ### What is joined to a page -/

/-- An order, with what the roster reads of it. -/
structure Trip where
  driverId : Option Id
  truckId : Option Id
  createdAt : Instant

/-- The first of each group. -/
def groupFirst (rows : List (Id × Id)) : List (Id × Id) :=
  rows.foldl (fun groups row =>
    if groups.any fun g => g.1 = row.1 then groups else groups ++ [row]) []

/-- The driver and the truck of an order, if the pipeline matches it. -/
def Trip.operated (driverIds : List Id) (trip : Trip) : Option (Id × Id) := do
  let driverId ← trip.driverId
  let truckId ← trip.truckId
  if driverId ∈ driverIds then some (driverId, truckId) else none

def resolveLastOperatedTrucks (driverIds : List Id) (orders : List Trip)
    (trucks : List (Id × String)) : List (Id × Id × String) :=
  let sorted := orders.insertionSort fun a b => b.createdAt ≤ a.createdAt
  let rows := groupFirst (sorted.filterMap (Trip.operated driverIds))
  let plates := trucks.filter fun t => t.1 ∈ rows.map Prod.snd
  rows.filterMap fun row => (plates.lookup row.2).map fun plateNumber => (row.1, row.2, plateNumber)

def resolveCompanyNames (drivers : List Member) (companies : List (Id × String)) :
    List (Id × String) :=
  companies.filter fun c => c.1 ∈ drivers.filterMap (·.companyId)

structure DriverRosterRow where
  driverId : Id
  fullName : String
  phone : String
  isActive : Bool
  dutyState : DutyState
  transportCompany : Option (Id × String)
  lastOperatedTruck : Option (Id × String)

def row (companies : List (Id × String)) (trucks : List (Id × Id × String)) (driver : Member) :
    DriverRosterRow where
  driverId := driver.id
  fullName := driver.fullName
  phone := driver.phone
  isActive := driver.isActive.getD false
  dutyState := dutyStateOf driver.toDuty
  transportCompany := driver.companyId.bind fun companyId =>
    (companies.lookup companyId).map fun name => (companyId, name)
  lastOperatedTruck := trucks.lookup driver.id

/-- What the lookups of a page read. -/
structure Joined where
  companies : List (Id × String)
  orders : List Trip
  trucks : List (Id × String)

def rosterPage (outside : Value → Except String (TextPage Member)) (filter : DriverRosterFilter)
    (cursor : Option JsString) (docs : List Member) : Except String (TextPage Member) :=
  paginateText listSchema DRIVER_ROSTER_SORT_KEYS outside Member.position (.ok .empty) docs
    (rosterQuery filter) cursor DEFAULT_PAGE_SIZE

def rowsOf (joined : Joined) (items : List Member) : List DriverRosterRow :=
  items.map (row (resolveCompanyNames items joined.companies)
    (resolveLastOperatedTrucks (items.map (·.id)) joined.orders joined.trucks))

def list (outside : Value → Except String (TextPage Member)) (filter : DriverRosterFilter)
    (cursor : Option JsString) (docs : List Member) (joined : Joined) :
    Except String (TextPage DriverRosterRow) := do
  let page ← rosterPage outside filter cursor docs
  return { items := rowsOf joined page.items, nextCursor := page.nextCursor }

/-! ### The filter is what a row shows -/

theorem dutyStateFilter_all (state : DutyState) (m : Member) :
    ((dutyStateFilter state).all fun e => e.2 m) = true ↔ dutyStateOf m.toDuty = state := by
  cases hseen : m.lastSeenAt <;> cases honline : m.isOnline <;> cases state <;>
    simp [dutyStateFilter, dutyStateOf, hseen, honline]

/-- What the query asks of a member. -/
structure Admits (filter : DriverRosterFilter) (m : Member) : Prop where
  role : m.role = .driver
  active : ∀ active ∈ filter.isActive, m.isActive = some active
  duty : ∀ state ∈ filter.dutyState, dutyStateOf m.toDuty = state

theorem rosterQuery_holds (filter : DriverRosterFilter) (m : Member) :
    (rosterQuery filter).holds m = true ↔ Admits filter m := by
  have hnames : ((((.field "role", fun m => decide (m.role = .driver)) : FieldFilter) ::
    ((filter.isActive.map fun active =>
        ((.field "isActive", fun m => decide (m.isActive = some active)) : FieldFilter)).toList ++
      (filter.dutyState.map dutyStateFilter).getD [])).map Prod.fst).Nodup := by
    obtain ⟨active, duty⟩ := filter
    cases active <;> rcases duty with _ | _ | _ | _ <;> simp [dutyStateFilter]
  rw [rosterQuery, Conditions.holds_object hnames, List.all_cons, List.all_append,
    Bool.and_eq_true, Bool.and_eq_true, decide_eq_true_eq]
  have hactive : ((filter.isActive.map fun active => ((.field "isActive",
      fun m => decide (m.isActive = some active)) : FieldFilter)).toList.all fun e => e.2 m) = true ↔
      ∀ active ∈ filter.isActive, m.isActive = some active := by
    cases filter.isActive <;> simp
  have hduty : (((filter.dutyState.map dutyStateFilter).getD []).all fun e => e.2 m) = true ↔
      ∀ state ∈ filter.dutyState, dutyStateOf m.toDuty = state := by
    cases filter.dutyState with
    | none => simp
    | some state => simpa using dutyStateFilter_all state m
  rw [hactive, hduty]
  constructor
  · rintro ⟨hrole, hactive, hduty⟩
    exact ⟨hrole, hactive, hduty⟩
  · exact fun h => ⟨h.role, h.active, h.duty⟩

/-! ### The last truck of each -/

section groups
variable {rows : List (Id × Id)} {k : Id}

theorem groupFirst_append (row : Id × Id) : groupFirst (rows ++ [row]) =
    if (groupFirst rows).any fun g => g.1 = row.1 then groupFirst rows
    else groupFirst rows ++ [row] := by
  rw [groupFirst, List.foldl_append]
  rfl

theorem groupFirst_any (k : Id) :
    ((groupFirst rows).any fun g => g.1 = k) = rows.any fun g => g.1 = k := by
  induction rows using List.reverseRecOn with
  | nil => rfl
  | append_singleton rows row ih =>
    rw [groupFirst_append]
    split_ifs with hany
    · rw [ih, List.any_append]
      by_cases hk : row.1 = k
      · subst hk
        rw [ih] at hany
        simp [hany]
      · simp [hk]
    · rw [List.any_append, List.any_append, ih]

theorem groupFirst_find (k : Id) :
    (groupFirst rows).find? (fun g => g.1 = k) = rows.find? fun g => g.1 = k := by
  induction rows using List.reverseRecOn with
  | nil => rfl
  | append_singleton rows row ih =>
    rw [groupFirst_append]
    split_ifs with hany
    · rw [ih, List.find?_append]
      by_cases hk : row.1 = k
      · subst hk
        rw [groupFirst_any] at hany
        have hfound : (rows.find? fun g => decide (g.1 = row.1)).isSome :=
          List.find?_isSome.mpr (List.any_eq_true.mp hany)
        obtain ⟨g, hg⟩ := Option.isSome_iff_exists.mp hfound
        rw [hg]
        rfl
      · simp [hk]
    · rw [List.find?_append, List.find?_append, ih]

theorem groupFirst_nodup (rows : List (Id × Id)) : ((groupFirst rows).map Prod.fst).Nodup := by
  induction rows using List.reverseRecOn with
  | nil => exact List.nodup_nil
  | append_singleton rows row ih =>
    rw [groupFirst_append]
    split_ifs with hany
    · exact ih
    · rw [← List.concat_eq_append, List.map_concat]
      refine ih.concat fun hmem => hany ?_
      obtain ⟨g, hg, hga⟩ := List.mem_map.mp hmem
      exact List.any_eq_true.mpr ⟨g, hg, decide_eq_true hga⟩

end groups

/-- Of the orders of the driver that have a truck, `trip` was created last. -/
structure Newest (orders : List Trip) (driverId : Id) (trip : Trip) (truckId : Id) : Prop where
  mem : trip ∈ orders
  driver : trip.driverId = some driverId
  truck : trip.truckId = some truckId
  newest (other : Trip) : other ∈ orders → other.driverId = some driverId → other.truckId ≠ none →
    other.createdAt ≤ trip.createdAt

/-- The truck, with its plate, of the newest order of the driver, and none if there is no
such order. -/
structure LastOperated (joined : Joined) (driverId : Id) (shown : Option (Id × String)) : Prop where
  last : ∀ truckId plateNumber, shown = some (truckId, plateNumber) →
    joined.trucks.lookup truckId = some plateNumber ∧
      ∃ trip, Newest joined.orders driverId trip truckId
  never : (∀ trip ∈ joined.orders, ∀ t ∈ trip.truckId, joined.trucks.lookup t ≠ none) →
    shown = none → ∀ trip ∈ joined.orders, trip.driverId = some driverId → trip.truckId = none

section trucks
variable {driverIds : List Id} {orders : List Trip} {driverId truckId : Id}

theorem operated_iff {trip : Trip} : trip.operated driverIds = some (driverId, truckId) ↔
    trip.driverId = some driverId ∧ trip.truckId = some truckId ∧ driverId ∈ driverIds := by
  cases hdriver : trip.driverId <;> cases htruck : trip.truckId <;>
    simp [Trip.operated, hdriver, htruck]
  constructor
  · rintro ⟨hmem, rfl, rfl⟩
    exact ⟨rfl, rfl, hmem⟩
  · rintro ⟨rfl, rfl, hmem⟩
    exact ⟨hmem, rfl, rfl⟩

/-- The first match in the sorted orders is of the newest. -/
theorem newest_of_find (hmem : driverId ∈ driverIds)
    (h : ((orders.insertionSort fun a b => b.createdAt ≤ a.createdAt).filterMap
      (Trip.operated driverIds)).find? (fun g => g.1 = driverId) = some (driverId, truckId)) :
    ∃ trip, Newest orders driverId trip truckId := by
  have hsorted := List.pairwise_insertionSort (fun a b : Trip => b.createdAt ≤ a.createdAt) orders
  have hperm := List.perm_insertionSort (fun a b : Trip => b.createdAt ≤ a.createdAt) orders
  generalize orders.insertionSort (fun a b : Trip => b.createdAt ≤ a.createdAt) = sorted
    at h hsorted hperm
  have hfirst : ∃ trip, Newest sorted driverId trip truckId := by
    clear hperm
    induction sorted with
    | nil => cases h
    | cons first rest ih =>
      obtain ⟨hle, hrest⟩ := List.pairwise_cons.mp hsorted
      cases hoperated : first.operated driverIds with
      | none =>
        rw [List.filterMap_cons_none hoperated] at h
        obtain ⟨trip, hnewest⟩ := ih h hrest
        refine ⟨trip, .tail _ hnewest.mem, hnewest.driver, hnewest.truck, fun other ho hd ht => ?_⟩
        rcases List.mem_cons.mp ho with rfl | ho
        · obtain ⟨t, ht⟩ := Option.ne_none_iff_exists'.mp ht
          rw [operated_iff.mpr ⟨hd, ht, hmem⟩] at hoperated
          cases hoperated
        · exact hnewest.newest other ho hd ht
      | some g =>
        rw [List.filterMap_cons_some hoperated, List.find?_cons] at h
        by_cases hg : g.1 = driverId
        · rw [decide_eq_true hg] at h
          obtain rfl := Option.some.inj h
          obtain ⟨hd, ht, -⟩ := operated_iff.mp hoperated
          refine ⟨first, .head _, hd, ht, fun other ho _ _ => ?_⟩
          rcases List.mem_cons.mp ho with rfl | ho
          · exact le_rfl
          · exact hle other ho
        · rw [decide_eq_false hg] at h
          obtain ⟨trip, hnewest⟩ := ih h hrest
          refine ⟨trip, .tail _ hnewest.mem, hnewest.driver, hnewest.truck,
            fun other ho hd ht => ?_⟩
          rcases List.mem_cons.mp ho with rfl | ho
          · obtain ⟨t, ht⟩ := Option.ne_none_iff_exists'.mp ht
            rw [operated_iff.mpr ⟨hd, ht, hmem⟩] at hoperated
            exact absurd (congrArg Prod.fst (Option.some.inj hoperated)).symm hg
          · exact hnewest.newest other ho hd ht
  obtain ⟨trip, hnewest⟩ := hfirst
  exact ⟨trip, hperm.mem_iff.mp hnewest.mem, hnewest.driver, hnewest.truck,
    fun other ho => hnewest.newest other (hperm.mem_iff.mpr ho)⟩

theorem lookup_plated {rows : List (Id × Id)} {plates : List (Id × String)}
    (hrows : (rows.map Prod.fst).Nodup) :
    (rows.filterMap fun row => (plates.lookup row.2).map fun plateNumber =>
      (row.1, row.2, plateNumber)).lookup driverId =
      (rows.find? fun g => g.1 = driverId).bind fun row =>
        (plates.lookup row.2).map fun plateNumber => (row.2, plateNumber) := by
  induction rows with
  | nil => rfl
  | cons row rows ih =>
    obtain ⟨hfirst, hrest⟩ := List.nodup_cons.mp hrows
    by_cases hrow : row.1 = driverId
    · rw [List.find?_cons, decide_eq_true hrow]
      cases hplate : plates.lookup row.2 with
      | some plateNumber => simp [hplate, hrow]
      | none =>
        have hmissing : (rows.find? fun g => decide (g.1 = driverId)) = none := by
          refine List.find?_eq_none.mpr fun g hg hgd => hfirst ?_
          rw [hrow, ← of_decide_eq_true hgd]
          exact List.mem_map_of_mem hg
        simp [hplate, ih hrest, hmissing]
    · rw [List.find?_cons, decide_eq_false hrow]
      cases hplate : plates.lookup row.2 with
      | some plateNumber =>
        simp [hplate, ih hrest, List.lookup_cons, beq_eq_false_iff_ne.mpr (Ne.symm hrow)]
      | none => simp [hplate, ih hrest]

theorem lookup_filter_keys {l : List (Id × String)} {p : Id → Bool} (hp : p truckId = true) :
    (l.filter fun t => p t.1).lookup truckId = l.lookup truckId := by
  induction l with
  | nil => rfl
  | cons t l ih =>
    by_cases ht : t.1 = truckId
    · rw [List.filter_cons_of_pos (by rw [ht]; exact hp), List.lookup_cons, List.lookup_cons, ih]
    · rw [List.filter_cons]
      split_ifs
      · rw [List.lookup_cons, List.lookup_cons, ih]
      · rw [ih, List.lookup_cons, beq_eq_false_iff_ne.mpr (Ne.symm ht)]

theorem lastOperated (joined : Joined) (hmem : driverId ∈ driverIds) :
    LastOperated joined driverId
      ((resolveLastOperatedTrucks driverIds joined.orders joined.trucks).lookup driverId) := by
  unfold resolveLastOperatedTrucks
  dsimp only
  rw [lookup_plated (groupFirst_nodup _), groupFirst_find]
  cases hfind : ((joined.orders.insertionSort fun a b => b.createdAt ≤ a.createdAt).filterMap
      (Trip.operated driverIds)).find? (fun g => g.1 = driverId) with
  | none =>
    refine ⟨fun t plateNumber h => absurd h (by simp), fun _ _ trip htrip hdriver => ?_⟩
    by_contra htruck
    obtain ⟨t, ht⟩ := Option.ne_none_iff_exists'.mp htruck
    have hrow : (driverId, t) ∈ (joined.orders.insertionSort fun a b =>
        b.createdAt ≤ a.createdAt).filterMap (Trip.operated driverIds) :=
      List.mem_filterMap.mpr ⟨trip, (List.perm_insertionSort _ _).mem_iff.mpr htrip,
        operated_iff.mpr ⟨hdriver, ht, hmem⟩⟩
    exact List.find?_eq_none.mp hfind _ hrow (decide_eq_true rfl)
  | some g =>
    have hg : g.1 = driverId := by simpa using List.find?_some hfind
    obtain ⟨d, t⟩ := g
    obtain rfl := hg
    have hgroup : t ∈ (groupFirst ((joined.orders.insertionSort fun a b =>
        b.createdAt ≤ a.createdAt).filterMap (Trip.operated driverIds))).map Prod.snd :=
      List.mem_map_of_mem (List.mem_of_find?_eq_some ((groupFirst_find _).trans hfind))
    obtain ⟨trip, hnewest⟩ := newest_of_find hmem hfind
    rw [Option.bind_some, lookup_filter_keys (p := fun t => decide (t ∈ _)) (decide_eq_true hgroup)]
    refine ⟨fun t' plateNumber h => ?_, fun hstored h => ?_⟩
    · obtain ⟨plate, hplate, heq⟩ := Option.map_eq_some_iff.mp h
      cases heq
      exact ⟨hplate, trip, hnewest⟩
    · exact absurd (Option.map_eq_none_iff.mp h)
        (hstored trip hnewest.mem t (by rw [hnewest.truck]; rfl))

end trucks

/-! ### Following the list -/

section walk
variable {outside : Value → Except String (TextPage Member)} {filter : DriverRosterFilter}
  {snapshots : List (List Member)}

theorem roster_placed {docs : List Member} (h : (docs.map (·.id)).Nodup) :
    Placed DRIVER_ROSTER_SORT_KEYS Member.position docs := by
  refine ⟨h.of_map _, fun x hx y hy hall => List.inj_on_of_nodup_map h hx hy ?_⟩
  exact hall ⟨"_id", .desc⟩ (by simp [DRIVER_ROSTER_SORT_KEYS])

/-- Accounts are told apart by their identifiers, and keep the date of their creation. -/
structure Enrolled (snapshots : List (List Member)) : Prop where
  ids : ∀ docs ∈ snapshots, (docs.map (·.id)).Nodup
  created : ∀ docs ∈ snapshots, ∀ docs' ∈ snapshots, ∀ x ∈ docs, ∀ y ∈ docs', x.id = y.id →
    x.createdAt = y.createdAt
  stored : ∀ docs ∈ snapshots, ∀ m ∈ docs, m.createdAt ≤ 8640000000000000 ∧ m.id < 16 ^ 24

theorem Enrolled.settled {pages : List (PaginatedResponse Member Numbers)} (h : Enrolled snapshots)
    {docs : List Member} (hdocs : docs ∈ snapshots) {m : Member} (hm : m ∈ docs) :
    Settled DRIVER_ROSTER_SORT_KEYS Member.position (·.id) m.id m.position
      (fetches (rosterQuery filter).holds snapshots pages) := by
  intro f hf x hx hxid k hk
  obtain ⟨docs', hdocs', hmatching⟩ := mem_fetches hf
  rw [hmatching] at hx
  simp only [DRIVER_ROSTER_SORT_KEYS, List.mem_cons, List.not_mem_nil, or_false] at hk
  rcases hk with rfl | rfl
  · exact h.created docs' hdocs' docs hdocs x (List.mem_filter.mp hx).1 m hm hxid
  · exact hxid

theorem Enrolled.allStorable (h : Enrolled snapshots) :
    AllStorable listSchema DRIVER_ROSTER_SORT_KEYS Member.position snapshots := by
  intro docs hdocs m hm k hk
  obtain ⟨hcreated, hid⟩ := h.stored docs hdocs m hm
  simp only [DRIVER_ROSTER_SORT_KEYS, List.mem_cons, List.not_mem_nil, or_false] at hk
  rcases hk with rfl | rfl
  · exact (storable_date (by decide) (by decide)).mpr hcreated
  · exact storable_id.mpr hid

/-- Following the roster by the cursors it gives out, whatever drivers and others do
meanwhile. No driver is given twice; at the end every driver has been given who met the
filter all along; and each row meets the filter in what it shows, and names the truck of
the newest order of its driver. -/
theorem roster_complete (outside : Value → Except String (TextPage Member))
    (filter : DriverRosterFilter) (snapshots : List (List Member)) (texts : List (TextPage Member))
    (last : Option JsString)
    (hfollows : TextFollows (rosterPage outside filter) none snapshots texts last)
    (henrolled : Enrolled snapshots) :
    (∀ v, times (·.id) v (texts.flatMap (·.items)) ≤ 1 ∧
      (last = none → (∀ docs ∈ snapshots, ∃ m ∈ docs, m.id = v ∧ Admits filter m) →
        times (·.id) v (texts.flatMap (·.items)) = 1)) ∧
      ∀ page ∈ texts, ∀ joined, ∀ shown ∈ rowsOf joined page.items,
        (∀ state ∈ filter.dutyState, shown.dutyState = state) ∧
        (∀ active ∈ filter.isActive, shown.isActive = active) ∧
          LastOperated joined shown.driverId shown.lastOperatedTruck := by
  have hnames : (DRIVER_ROSTER_SORT_KEYS.map fun k => listSchema.name k.field).Nodup := by decide
  obtain ⟨pages, next, hpages, rfl, rfl⟩ := hfollows.values
    (paginateText_renders hnames henrolled.allStorable) none rfl (by simp)
  have hitems : (pages.map (textPage listSchema DRIVER_ROSTER_SORT_KEYS)).flatMap (·.items) =
      pages.flatMap (·.items) := by
    rw [List.flatMap_map]
    rfl
  have hwalk : Walk DRIVER_ROSTER_SORT_KEYS Member.position none
      (fetches (rosterQuery filter).holds snapshots pages) next :=
    hpages.walk fun _ _ docs hdocs hpage =>
      Paginates.turn hpage (by decide) (roster_placed (henrolled.ids docs hdocs)) (by decide)
  have hdistinct : ∀ f ∈ fetches (rosterQuery filter).holds snapshots pages, f.Distinct (·.id) :=
    fetches_distinct henrolled.ids
  rw [hitems, ← hpages.shown_eq (p := (rosterQuery filter).holds)]
  refine ⟨fun v => ⟨?_, fun hend hthroughout => ?_⟩, fun page hpage joined shown hshown => ?_⟩
  · refine hwalk.times_le_one hdistinct (fun f hf m hm => ?_) v
    obtain ⟨docs, hdocs, hmatching⟩ := mem_fetches hf
    rw [hmatching] at hm
    exact henrolled.settled hdocs (List.mem_filter.mp hm).1
  · obtain rfl : next = none := by simpa using hend
    obtain ⟨docs, hdocs⟩ := hpages.nonempty
    obtain ⟨m, hm, rfl, -⟩ := hthroughout docs hdocs
    refine hwalk.once_of_settled hdistinct (fetches_throughout fun docs' hdocs' => ?_)
      (henrolled.settled hdocs hm)
    obtain ⟨m', hm', hid, hadmits⟩ := hthroughout docs' hdocs'
    exact ⟨m', hm', (rosterQuery_holds filter m').mpr hadmits, hid⟩
  · obtain ⟨values, hvalues, rfl⟩ := List.mem_map.mp hpage
    obtain ⟨m, hm, rfl⟩ := List.mem_map.mp hshown
    have hadmits : Admits filter m := by
      obtain ⟨f, hf, hmf⟩ := hwalk.mem_shown
        (hpages.shown_eq ▸ List.mem_flatMap.mpr ⟨values, hvalues, hm⟩)
      obtain ⟨docs, -, hmatching⟩ := mem_fetches hf
      rw [hmatching] at hmf
      exact (rosterQuery_holds filter m).mp (List.mem_filter.mp hmf).2
    refine ⟨hadmits.duty, fun active hactive => ?_, lastOperated joined (List.mem_map_of_mem hm)⟩
    rw [row, hadmits.active active hactive]
    rfl

end walk

namespace Sample

def driver (i : ℕ) : Member where
  id := i
  role := .driver
  fullName := "A"
  phone := "+966500000001"
  createdAt := i

/-- Drivers 1 to 21, newest last, of whom none has ever connected. -/
def neverConnected : List Member := (List.range 21).map fun i => driver (i + 1)

/-- The same after the newest has connected and one more was created. -/
def connected : List Member :=
  (List.range 20).map (fun i => driver (i + 1)) ++
    [{ driver 21 with
        isOnline := true
        lastSeenAt := some 30 }, driver 22]

theorem enrolled : Enrolled [neverConnected, connected] := by
  constructor
  · decide +kernel
  · decide +kernel
  · decide +kernel

end Sample

/-- Of two pages of drivers who never connected, one connects and one comes in between. -/
theorem roster_complete_neverConnected : ∃ texts,
    TextFollows (rosterPage (fun _ => .error "CastError") { dutyState := some .unknown }) none
      [Sample.neverConnected, Sample.connected] texts none ∧
    times (·.id) 1 (texts.flatMap (·.items)) = 1 := by
  have hfollows : ∃ texts, TextFollows
      (rosterPage (fun _ => .error "CastError") { dutyState := some .unknown }) none
      [Sample.neverConnected, Sample.connected] texts none :=
    exists_textFollows (by decide) Sample.enrolled.allStorable (by decide +kernel)
  obtain ⟨texts, hfollows⟩ := hfollows
  refine ⟨texts, hfollows, ((roster_complete (fun _ => .error "CastError")
    { dutyState := some .unknown } [Sample.neverConnected, Sample.connected] texts none hfollows
    Sample.enrolled).1 1).2 rfl fun docs hdocs => ?_⟩
  have hadmits : Admits { dutyState := some .unknown } (Sample.driver 1) :=
    ⟨rfl, by simp, by rintro _ ⟨⟩; rfl⟩
  simp only [List.mem_cons, List.not_mem_nil, or_false] at hdocs
  rcases hdocs with rfl | rfl
  · exact ⟨Sample.driver 1, .head _, rfl, hadmits⟩
  · exact ⟨Sample.driver 1, .head _, rfl, hadmits⟩

end CiroFuel.Roster
