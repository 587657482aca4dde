import CiroFuel.Scripts
import CiroFuel.Collections
import CiroFuel.Schemas

/-!
# Stations of their own

Each client had one station, kept in the account. A script gives it a document of its own,
and then fills in what refers to it: the station of each order, and the client of each
payment event. Every write is one document, and nothing is written twice, so a run that
was stopped anywhere is completed by the next one.
-/
namespace CiroFuel.StationMigration

/-! ### The database -/

/-- The station in an account. -/
structure EmbeddedStation where
  regionCode : ℕ
  governorateCode : ℕ
  location : GeoPoint
  addressText : Option String := none
  name : Option String := none
deriving DecidableEq

structure UserRecord where
  role : UserRole
  companyId : Option Id := none
  station : Option EmbeddedStation := none
deriving DecidableEq

structure StationRecord where
  companyId : Option Id
  clientId : Id
  name : Option String
  regionCode : ℕ
  governorateCode : ℕ
  location : GeoPoint
  addressText : String
  isDefault : Bool
  isFavourite : Bool
  isActive : Bool
  createdAt : Instant
  updatedAt : Instant
deriving DecidableEq

structure OrderRecord where
  clientId : Id
  stationId : Option Id := none
deriving DecidableEq

structure EventRecord where
  orderId : Id
  clientId : Option Id := none
deriving DecidableEq

structure Database where
  users : Collection Id UserRecord := {}
  stations : Collection Id StationRecord := {}
  orders : Collection Id OrderRecord := {}
  events : Collection Id EventRecord := {}

def Database.clients (db : Database) : List (Id × UserRecord) :=
  db.users.find fun _ u => decide (u.role = .client) && u.station.isSome

def StationRecord.isDefaultOf (clientId : Id) (s : StationRecord) : Bool :=
  decide (s.clientId = clientId) && s.isDefault

def Database.defaultStation (db : Database) (clientId : Id) : Option (Id × StationRecord) :=
  db.stations.findOne fun _ s => s.isDefaultOf clientId

def OrderRecord.lacksStation (o : OrderRecord) : Bool := o.stationId.isNone

def EventRecord.lacksClient (e : EventRecord) : Bool := e.clientId.isNone

/-- The station an order is to be given. -/
def Database.stationFor (db : Database) (o : OrderRecord) : Option Id :=
  (db.defaultStation o.clientId).map Prod.fst

/-- The client a payment event is to be given. -/
def Database.clientFor (db : Database) (e : EventRecord) : Option Id :=
  (db.orders.findOne fun id _ => decide (id = e.orderId)).map fun o => o.2.clientId

inductive Write where
  | insertStation (id : Id) (station : StationRecord)
  | setStation (orderId stationId : Id)
  | setClient (eventId clientId : Id)
deriving DecidableEq

def OrderRecord.setStation (stationId : Id) (o : OrderRecord) : OrderRecord :=
  { o with stationId := some stationId }

def EventRecord.setClient (clientId : Id) (e : EventRecord) : EventRecord :=
  { e with clientId := some clientId }

def Database.apply : Write → Database → Database
  | .insertStation id station, db => { db with stations := db.stations.insert id station }
  | .setStation orderId stationId, db =>
      { db with orders := db.orders.updateOne orderId (OrderRecord.setStation stationId) }
  | .setClient eventId clientId, db =>
      { db with events := db.events.updateOne eventId (EventRecord.setClient clientId) }

/-- The index keeps two stations of a client from being the default. -/
def Database.admits : Write → Database → Bool
  | .insertStation _ station, db =>
      !station.isDefault || (db.defaultStation station.clientId).isNone
  | _, _ => true

/-- A generated value is a new identifier and the time. -/
def storage : Storage Database Write (Id × Instant) where
  apply := Database.apply
  admits := Database.admits
  fresh g db := decide (g.1 ∉ db.stations.keys)

/-! ### The script -/

abbrev Migration := Script Database Write (Id × Instant)

def stationOf (client : Id × UserRecord) (station : EmbeddedStation) (now : Instant) :
    StationRecord where
  companyId := client.2.companyId
  clientId := client.1
  name := station.name
  regionCode := station.regionCode
  governorateCode := station.governorateCode
  location := station.location
  addressText := station.addressText.getD ""
  isDefault := true
  isFavourite := false
  isActive := true
  createdAt := now
  updatedAt := now

/-- The station of a client; whether it was created. -/
def createStation (client : Id × UserRecord) :
    Option (Id × StationRecord) → Option EmbeddedStation → Migration Bool
  | none, some station => do
      let (id, now) ← Script.generate
      Script.perform (.insertStation id (stationOf client station now))
      return true
  | _, _ => return false

def migrateClient (client : Id × UserRecord) : Migration Bool := do
  let alreadyMigrated ← Script.query fun db => db.defaultStation client.1
  createStation client alreadyMigrated client.2.station

def migrateClients : Migration (List Bool) := do
  let clientsNeedingMigration ← Script.query Database.clients
  clientsNeedingMigration.mapM migrateClient

/-- A value that was found is written; whether it was. -/
def fill (write : Id → Write) : Option Id → Migration Bool
  | some id => do
      Script.perform (write id)
      return true
  | none => return false

/-- What is found for a document is written to it. -/
def backfillOne {α : Type} (value : Database → α → Option Id) (write : Id → Id → Write)
    (x : Id × α) : Migration Bool := do
  let found ← Script.query fun db => value db x.2
  fill (write x.1) found

def backfill {α : Type} (missing : Database → List (Id × α)) (value : Database → α → Option Id)
    (write : Id → Id → Write) : Migration (List Bool) := do
  let xs ← Script.query missing
  xs.mapM (backfillOne value write)

def backfillOrders : Migration (List Bool) :=
  backfill (fun db => db.orders.find fun _ o => o.lacksStation) Database.stationFor .setStation

def backfillEvents : Migration (List Bool) :=
  backfill (fun db => db.events.find fun _ e => e.lacksClient) Database.clientFor .setClient

structure Migration005Summary where
  stationsCreated : ℕ
  ordersBackfilled : ℕ
  paymentEventsBackfilled : ℕ
deriving DecidableEq

def summarise (stations : List Bool) (rest : List Bool × List Bool) : Migration005Summary where
  stationsCreated := stations.countP id
  ordersBackfilled := rest.1.countP id
  paymentEventsBackfilled := rest.2.countP id

def migrate005Stations : Migration Migration005Summary := do
  let stations ← migrateClients
  let rest ← Script.both Prod.mk backfillOrders backfillEvents
  return summarise stations rest

theorem migrate005Stations_eq : migrate005Stations =
    Script.both summarise migrateClients (Script.both Prod.mk backfillOrders backfillEvents) := rfl

/-! ### Filling in -/

/-- The writes that fill in what was found. -/
def fills (write : Id → Write) (found : Option Id) : List Write := (found.map write).toList

section fill
variable {α : Type} {db : Database} {ws : List Write}

theorem mem_fills {write : Id → Write} {found : Option Id} {w : Write}
    (h : w ∈ fills write found) : ∃ id, w = write id := by
  obtain ⟨id, -, rfl⟩ := Option.map_eq_some_iff.1 (Option.mem_toList.1 h)
  exact ⟨id, rfl⟩

theorem fill_writes {write : Id → Write} {found : Option Id}
    (hadmits : ∀ id, storage.admits (write id) db = true) :
    (fill write found).Writes storage db ws ↔ ws = fills write found := by
  cases found with
  | none => exact Script.writes_nil
  | some id =>
    constructor
    · rintro ⟨_, -, _, rfl, rfl, -⟩
      rfl
    · rintro rfl
      exact ⟨true, hadmits id, [], rfl, rfl, rfl⟩

theorem fill_stops {write : Id → Write} {found : Option Id}
    (h : (fill write found).Stops storage db ws) : ws <+: fills write found := by
  cases found with
  | none =>
    obtain rfl : ws = [] := h
    exact List.prefix_rfl
  | some id =>
    rcases h with rfl | ⟨-, _, rfl, rfl⟩
    · exact List.nil_prefix
    · exact List.prefix_rfl

/-- Filling in is never refused, and what is found does not depend on what was written. -/
structure Steady (value : Database → α → Option Id) (write : Id → Id → Write) : Prop where
  admits : ∀ k v db, storage.admits (write k v) db = true
  value : ∀ k v db, value (storage.apply (write k v) db) = value db

variable {missing : Database → List (Id × α)} {value : Database → α → Option Id}
variable {write : Id → Id → Write}

/-- What is going to be written. -/
def plan (missing : Database → List (Id × α)) (value : Database → α → Option Id)
    (write : Id → Id → Write) (db : Database) : List Write :=
  (missing db).flatMap fun x => fills (write x.1) (value db x.2)

theorem Steady.apply (hsteady : Steady value write) {s : Database} {k : Id} {found : Option Id}
    {w : Write} (hw : w ∈ fills (write k) found) (h : value s = value db) :
    value (storage.apply w s) = value db := by
  obtain ⟨v, rfl⟩ := mem_fills hw
  rw [hsteady.value, h]

theorem backfillOne_writes (hsteady : Steady value write) (x : Id × α) {s : Database}
    (h : value s = value db) : (backfillOne value write x).Writes storage s ws ↔
      ws = fills (write x.1) (value db x.2) := by
  rw [← h]
  exact fill_writes fun id => hsteady.admits x.1 id s

theorem backfillOne_stops {x : Id × α} {s : Database} (h : value s = value db)
    (hstop : (backfillOne value write x).Stops storage s ws) :
    ws <+: fills (write x.1) (value db x.2) := by
  rw [← h]
  exact fill_stops hstop

theorem backfill_writes (hsteady : Steady value write) :
    (backfill missing value write).Writes storage db ws ↔ ws = plan missing value write db :=
  Script.writes_mapM_known (fun s => value s = value db) (fun _ _ _ => hsteady.apply)
    (fun x _ _ _ => backfillOne_writes hsteady x) rfl

theorem backfill_stops (hsteady : Steady value write)
    (h : (backfill missing value write).Stops storage db ws) :
    ws <+: plan missing value write db :=
  Script.stops_mapM_known (fun s => value s = value db) (fun _ _ _ => hsteady.apply)
    (fun x _ _ _ => backfillOne_writes hsteady x) (fun _ _ _ => backfillOne_stops) rfl h

/-- The plan is made of the gaps of a collection. -/
theorem plan_eq_map (l : List (Id × α)) (found : α → Option Id) (write : Id → Id → Write) :
    (l.flatMap fun x => fills (write x.1) (found x.2)) =
      (l.filterMap fun x => (found x.2).map fun v => (x.1, v)).map fun g => write g.1 g.2 := by
  induction l with
  | nil => rfl
  | cons x l ih =>
    rw [List.flatMap_cons, ih]
    cases hfound : found x.2 <;> simp [fills, hfound]

end fill

section plans
variable {db : Database} {ws : List Write}

theorem steady_orders : Steady Database.stationFor .setStation where
  admits _ _ _ := rfl
  value _ _ _ := rfl

/-- The client of an order is not what is filled in. -/
theorem steady_events : Steady Database.clientFor .setClient where
  admits _ _ _ := rfl
  value _ _ _ := rfl

def orderPlan : Database → List Write :=
  plan (fun db => db.orders.find fun _ o => o.lacksStation) Database.stationFor .setStation

def eventPlan : Database → List Write :=
  plan (fun db => db.events.find fun _ e => e.lacksClient) Database.clientFor .setClient

theorem backfillOrders_writes : backfillOrders.Writes storage db ws ↔ ws = orderPlan db :=
  backfill_writes steady_orders

theorem backfillEvents_writes : backfillEvents.Writes storage db ws ↔ ws = eventPlan db :=
  backfill_writes steady_events

theorem orderPlan_eq (db : Database) : orderPlan db =
    (db.orders.gaps OrderRecord.lacksStation db.stationFor).map fun g => .setStation g.1 g.2 :=
  plan_eq_map _ _ _

theorem eventPlan_eq (db : Database) : eventPlan db =
    (db.events.gaps EventRecord.lacksClient db.clientFor).map fun g => .setClient g.1 g.2 :=
  plan_eq_map _ _ _

theorem orderPlan_rest (db : Database) (w : Write) (rest : List Write)
    (h : orderPlan db = w :: rest) : orderPlan (storage.apply w db) = rest := by
  rw [orderPlan_eq] at h ⊢
  obtain ⟨g, gs, hgaps, rfl, rfl⟩ := List.map_eq_cons_iff.1 h
  have hset : ∀ (v : Id) (o : OrderRecord), (o.setStation v).lacksStation = false := fun _ _ => rfl
  exact congrArg (List.map _) (Collection.gaps_updateOne hset hgaps)

theorem eventPlan_rest (db : Database) (w : Write) (rest : List Write)
    (h : eventPlan db = w :: rest) : eventPlan (storage.apply w db) = rest := by
  rw [eventPlan_eq] at h ⊢
  obtain ⟨g, gs, hgaps, rfl, rfl⟩ := List.map_eq_cons_iff.1 h
  have hset : ∀ (v : Id) (e : EventRecord), (e.setClient v).lacksClient = false := fun _ _ => rfl
  exact congrArg (List.map _) (Collection.gaps_updateOne hset hgaps)

/-- The events play no part in what is written to the orders. -/
theorem orderPlan_after_events (h : ws <+: eventPlan db) :
    orderPlan (storage.after db ws) = orderPlan db := by
  refine Storage.after_induction (P := fun s => orderPlan s = orderPlan db) ?_ rfl
  intro w hw s hs
  have hmem := h.subset hw
  rw [eventPlan_eq] at hmem
  obtain ⟨g, -, rfl⟩ := List.mem_map.1 hmem
  exact hs

theorem orders_filled (db : Database) : storage.after db (orderPlan db) =
    { db with orders := db.orders.filled OrderRecord.lacksStation db.stationFor .setStation } := by
  have hset : ∀ (v : Id) (o : OrderRecord), (o.setStation v).lacksStation = false := fun _ _ => rfl
  rw [orderPlan_eq, ← Collection.foldl_gaps hset]
  generalize db.orders.gaps OrderRecord.lacksStation db.stationFor = gaps
  induction gaps generalizing db with
  | nil => rfl
  | cons g gaps ih => exact ih _

theorem events_filled (db : Database) : storage.after db (eventPlan db) =
    { db with events := db.events.filled EventRecord.lacksClient db.clientFor .setClient } := by
  have hset : ∀ (v : Id) (e : EventRecord), (e.setClient v).lacksClient = false := fun _ _ => rfl
  rw [eventPlan_eq, ← Collection.foldl_gaps hset]
  generalize db.events.gaps EventRecord.lacksClient db.clientFor = gaps
  induction gaps generalizing db with
  | nil => rfl
  | cons g gaps ih => exact ih _

end plans

/-! ### Clients -/

/-- Nothing is to be done for the client. -/
def Settled (client : Id × UserRecord) (db : Database) : Prop :=
  client.2.station = none ∨ (db.defaultStation client.1).isSome

/-- The new station of a client who had none. -/
structure Promotes (db : Database) (client : Id × UserRecord) (new : Id × StationRecord) :
    Prop where
  none_before : db.defaultStation client.1 = none
  fresh : new.1 ∉ db.stations.keys
  copied : ∃ station now, client.2.station = some station ∧ new.2 = stationOf client station now

section client
variable {db : Database} {client : Id × UserRecord} {ws : List Write}

theorem migrateClient_query : (migrateClient client).Writes storage db ws ↔
    (createStation client (db.defaultStation client.1) client.2.station).Writes storage db ws :=
  Script.writes_query

theorem Settled.writes (h : Settled client db) :
    (migrateClient client).Writes storage db ws ↔ ws = [] := by
  rw [migrateClient_query]
  rcases h with h | h
  · rw [h]
    cases db.defaultStation client.1 <;> exact Script.writes_nil
  · obtain ⟨found, hfound⟩ := Option.isSome_iff_exists.1 h
    rw [hfound]
    exact Script.writes_nil

theorem createStation_stops {station : EmbeddedStation}
    (h : (createStation client none (some station)).Stops storage db ws) : ws = [] ∨
      ∃ id now, id ∉ db.stations.keys ∧
        ws = [.insertStation id (stationOf client station now)] := by
  rcases Script.stops_bind.1 h with hstop | ⟨_, _, ⟨id, now⟩, rfl, hdraw, hstop⟩
  · exact Or.inl (Script.stops_generate.1 hstop)
  obtain ⟨rfl, hfresh⟩ := Script.ends_generate.1 hdraw
  have hkey := of_decide_eq_true hfresh
  rcases Script.stops_map.1 hstop with rfl | ⟨-, _, rfl, rfl⟩
  · exact Or.inl rfl
  · exact Or.inr ⟨id, now, hkey, rfl⟩

theorem createStation_writes {station : EmbeddedStation}
    (hnone : db.defaultStation client.1 = none) :
    (createStation client none (some station)).Writes storage db ws ↔
      ∃ id now, id ∉ db.stations.keys ∧
        ws = [.insertStation id (stationOf client station now)] := by
  constructor
  · rintro ⟨_, hends⟩
    obtain ⟨_, _, ⟨id, now⟩, rfl, hdraw, hends⟩ := Script.ends_bind.1 hends
    obtain ⟨rfl, hfresh⟩ := Script.ends_generate.1 hdraw
    obtain ⟨-, _, rfl, rfl, -⟩ := hends
    exact ⟨id, now, of_decide_eq_true hfresh, rfl⟩
  · rintro ⟨id, now, hkey, rfl⟩
    have hadmits : storage.admits (.insertStation id (stationOf client station now)) db = true := by
      change (false || (db.defaultStation client.1).isNone) = true
      rw [hnone]
      rfl
    exact ⟨true, (id, now), decide_eq_true hkey, hadmits, [], rfl, rfl, rfl⟩

/-- A run for a client inserts one station or nothing. -/
theorem migrateClient_writes : (migrateClient client).Writes storage db ws ↔
    Settled client db ∧ ws = [] ∨
      ∃ new, Promotes db client new ∧ ws = [.insertStation new.1 new.2] := by
  by_cases hsettled : Settled client db
  · rw [hsettled.writes]
    constructor
    · exact fun h => Or.inl ⟨hsettled, h⟩
    · rintro (⟨-, h⟩ | ⟨new, ⟨hnone, -, station, now, hstation, -⟩, -⟩)
      · exact h
      · rcases hsettled with h | h
        · rw [hstation] at h
          cases h
        · rw [hnone] at h
          cases h
  · obtain ⟨hstation, hnone⟩ := not_or.1 hsettled
    obtain ⟨station, hstation⟩ := Option.ne_none_iff_exists'.1 hstation
    have hnone := Option.not_isSome_iff_eq_none.1 hnone
    rw [migrateClient_query, hnone, hstation, createStation_writes hnone]
    constructor
    · rintro ⟨id, now, hkey, rfl⟩
      exact Or.inr ⟨(id, stationOf client station now),
        ⟨hnone, hkey, station, now, hstation, rfl⟩, rfl⟩
    · rintro (⟨h, -⟩ | ⟨⟨id, _⟩, ⟨-, hkey, station', now, hstation', rfl⟩, rfl⟩)
      · exact absurd h hsettled
      · obtain rfl := Option.some.inj (hstation.symm.trans hstation')
        exact ⟨id, now, hkey, rfl⟩

/-- One write: a run for a client is stopped at its start or at its end. -/
theorem migrateClient_stops (h : (migrateClient client).Stops storage db ws) :
    ws = [] ∨ (migrateClient client).Writes storage db ws := by
  rw [migrateClient_query]
  have h' := Script.stops_query.1 h
  cases hdefault : db.defaultStation client.1 <;> cases hstation : client.2.station <;>
    rw [hdefault, hstation] at h' <;> try exact Or.inl h'
  rcases createStation_stops h' with h | h
  · exact Or.inl h
  · exact Or.inr ((createStation_writes hdefault).2 h)

theorem Settled.apply (w : Write) (h : Settled client db) :
    Settled client (storage.apply w db) := by
  rcases h with h | h
  · exact Or.inl h
  · right
    cases w with
    | insertStation id station => exact Collection.findOne_insert_isSome h
    | setStation orderId stationId => exact h
    | setClient eventId clientId => exact h

theorem Settled.after (h : Settled client db) : Settled client (storage.after db ws) :=
  Storage.after_induction (fun w _ _ => Settled.apply w) h

theorem settled_of_writes (h : (migrateClient client).Writes storage db ws) :
    Settled client (storage.after db ws) := by
  rcases migrateClient_writes.1 h with ⟨hsettled, rfl⟩ | ⟨⟨id, _⟩, hnew, rfl⟩
  · exact hsettled
  · obtain ⟨station, now, -, rfl⟩ := hnew.copied
    right
    change ((db.stations.insert id _).findOne _).isSome
    rw [Collection.findOne_insert hnew.fresh, Option.isSome_or]
    simp [StationRecord.isDefaultOf, stationOf]

theorem migrateClient_resumes (h : (migrateClient client).Stops storage db ws) :
    (migrateClient client).Resumes storage db ws := by
  rcases migrateClient_stops h with rfl | h
  · exact Script.resumes_nil
  · refine h.resumes (Script.idle_of_writes_nil fun _ h₂ => ?_)
    exact (settled_of_writes h).writes.1 h₂

end client

section clients
variable {db : Database} {ws : List Write}

theorem clients_after (db : Database) (ws : List Write) :
    (storage.after db ws).clients = db.clients := by
  refine Storage.after_induction (P := fun s : Database => s.clients = db.clients)
    (fun w _ s hs => ?_) rfl
  cases w <;> exact hs

theorem migrateClients_resumes (h : migrateClients.Stops storage db ws) :
    migrateClients.Resumes storage db ws := by
  refine Script.Resumes.query (clients_after db ws) ?_
  exact Script.resumes_mapM Settled (fun _ _ => True) (fun _ _ _ hsettled => hsettled.writes.1)
    (fun _ _ _ => settled_of_writes) (fun _ w _ => Settled.apply w) (fun _ _ _ _ _ => trivial)
    (fun _ _ _ hstop _ => migrateClient_resumes hstop) h trivial

theorem migrateClients_idle (h : ∀ client ∈ db.clients, Settled client db) :
    migrateClients.Idle storage db := by
  refine Script.idle_of_writes_nil fun ws hws => ?_
  have hnil : (db.clients.mapM migrateClient).Writes storage db ws ↔
      ws = db.clients.flatMap fun _ => [] :=
    Script.writes_mapM_known (fun s => ∀ client ∈ db.clients, Settled client s)
      (fun _ _ _ hw => absurd hw List.not_mem_nil)
      (fun client hclient _ _ hs => (hs client hclient).writes) h
  rw [hnil.1 hws, List.flatMap_eq_nil_iff]
  exact fun _ _ => rfl

/-- What a run over these clients leaves. -/
structure Promoted (cs : List (Id × UserRecord)) (db db' : Database) : Prop where
  users : db'.users = db.users
  orders : db'.orders = db.orders
  events : db'.events = db.events
  /-- One station each, in the order of the clients, for those who had none. -/
  stations : ∃ new, db'.stations.docs = db.stations.docs ++ new ∧
    (new.map fun n => n.2.clientId).Sublist (cs.map Prod.fst) ∧
    ∀ n ∈ new, ∃ client ∈ cs, db.defaultStation client.1 = none ∧
      ∃ station now, client.2.station = some station ∧ n.2 = stationOf client station now
  settled : ∀ client ∈ cs, Settled client db'

theorem promoted_nil : Promoted [] db db where
  users := rfl
  orders := rfl
  events := rfl
  stations := ⟨[], (List.append_nil _).symm, List.nil_sublist _, by simp⟩
  settled := by simp

/-- A client without a default station after an insert had none before it. -/
theorem defaultStation_before {id clientId : Id} {station : StationRecord}
    (h : (storage.apply (.insertStation id station) db).defaultStation clientId = none) :
    db.defaultStation clientId = none := by
  rw [← Option.not_isSome_iff_eq_none] at h ⊢
  exact fun hsome => h (Collection.findOne_insert_isSome hsome)

theorem promoted_run {cs : List (Id × UserRecord)}
    (h : (cs.mapM migrateClient).Writes storage db ws) : Promoted cs db (storage.after db ws) := by
  induction cs generalizing db ws with
  | nil =>
    obtain rfl := Script.writes_nil.1 h
    exact promoted_nil
  | cons client cs ih =>
    rw [Script.mapM_cons] at h
    obtain ⟨ws₁, ws₂, rfl, h₁, h₂⟩ := Script.writes_both.1 h
    obtain ⟨husers, horders, hevents, ⟨new, hdocs, hids, hcopied⟩, hsettled⟩ := ih h₂
    have hlast : Settled client (storage.after db (ws₁ ++ ws₂)) := by
      rw [Storage.after_append]
      exact (settled_of_writes h₁).after
    rw [← Storage.after_append] at husers horders hevents hdocs hsettled
    rcases migrateClient_writes.1 h₁ with ⟨-, rfl⟩ | ⟨⟨id, _⟩, hnew, rfl⟩
    · refine ⟨husers, horders, hevents, ⟨new, hdocs, hids.cons client.1, fun n hn => ?_⟩, ?_⟩
      · obtain ⟨c, hc, hn⟩ := hcopied n hn
        exact ⟨c, List.mem_cons_of_mem _ hc, hn⟩
      · exact List.forall_mem_cons.2 ⟨hlast, hsettled⟩
    · obtain ⟨station, now, hstation, rfl⟩ := hnew.copied
      refine ⟨husers, horders, hevents,
        ⟨(id, stationOf client station now) :: new, ?_, hids.cons_cons client.1, ?_⟩,
        List.forall_mem_cons.2 ⟨hlast, hsettled⟩⟩
      · have hinsert : (db.stations.insert id (stationOf client station now)).docs =
            db.stations.docs ++ [(id, stationOf client station now)] :=
          Collection.docs_insert hnew.fresh
        refine hdocs.trans ((congrArg (· ++ new) hinsert).trans ?_)
        rw [List.append_assoc, List.singleton_append]
      · refine List.forall_mem_cons.2 ⟨⟨client, List.mem_cons_self, hnew.none_before,
          station, now, hstation, rfl⟩, fun n hn => ?_⟩
        obtain ⟨c, hc, hnone, hn⟩ := hcopied n hn
        exact ⟨c, List.mem_cons_of_mem _ hc, defaultStation_before hnone, hn⟩

theorem migrateClients_promoted (h : migrateClients.Writes storage db ws) :
    Promoted db.clients db (storage.after db ws) := promoted_run h

/-- Once every client has been dealt with, running that part again does nothing. -/
theorem migrateClients_idle_after {ws' : List Write} (h : migrateClients.Writes storage db ws) :
    migrateClients.Idle storage (storage.after (storage.after db ws) ws') := by
  refine migrateClients_idle fun client hclient => ?_
  rw [clients_after, clients_after] at hclient
  exact ((migrateClients_promoted h).settled client hclient).after

end clients

/-! ### The whole script -/

section whole
variable {db db' : Database} {ws : List Write}

theorem backfillOrders_resumes (h : backfillOrders.Stops storage db ws) :
    backfillOrders.Resumes storage db ws :=
  Script.resumes_plan (fun _ _ => backfillOrders_writes) orderPlan_rest
    (backfill_stops steady_orders h)

theorem backfillEvents_resumes (h : backfillEvents.Stops storage db ws) :
    backfillEvents.Resumes storage db ws :=
  Script.resumes_plan (fun _ _ => backfillEvents_writes) eventPlan_rest
    (backfill_stops steady_events h)

theorem events_idle_after (db : Database) :
    backfillEvents.Idle storage (storage.after db (eventPlan db)) :=
  Script.idle_plan (fun _ _ => backfillEvents_writes)
    (Script.plan_after eventPlan_rest (List.append_nil _).symm)

theorem orders_idle_after (db : Database) {ws : List Write}
    (h : ws <+: eventPlan (storage.after db (orderPlan db))) :
    backfillOrders.Idle storage (storage.after (storage.after db (orderPlan db)) ws) := by
  have hnil : orderPlan (storage.after db (orderPlan db)) = [] :=
    Script.plan_after orderPlan_rest (List.append_nil _).symm
  exact Script.idle_plan (fun _ _ => backfillOrders_writes)
    ((orderPlan_after_events h).trans hnil)

/-- Wherever it is stopped, the next run completes it. -/
theorem migrate005_resumes (h : migrate005Stations.Stops storage db ws) :
    migrate005Stations.Resumes storage db ws := by
  rw [migrate005Stations_eq] at h ⊢
  rcases Script.stops_both.1 h with h | ⟨ws₁, rest, rfl, h₁, h⟩
  · exact (migrateClients_resumes h).left
  refine Script.Resumes.right h₁ ?_ ?_
  · rw [Storage.after_append]
    exact migrateClients_idle_after h₁
  rcases Script.stops_both.1 h with h | ⟨ws₂, ws₃, rfl, h₂, h₃⟩
  · exact (backfillOrders_resumes h).left
  · refine Script.Resumes.right h₂ ?_ (backfillEvents_resumes h₃)
    obtain rfl := backfillOrders_writes.1 h₂
    rw [Storage.after_append]
    exact orders_idle_after _ (backfill_stops steady_events h₃)

/-- What the script leaves. -/
structure Migrated (db db' : Database) : Prop where
  users : db'.users = db.users
  /-- The stations that were there are kept, and each new one is the station of a client who
  had none. -/
  stations : ∃ new, db'.stations.docs = db.stations.docs ++ new ∧
    (new.map fun n => n.2.clientId).Sublist (db.clients.map Prod.fst) ∧
    ∀ n ∈ new, ∃ client ∈ db.clients, db.defaultStation client.1 = none ∧
      ∃ station now, client.2.station = some station ∧ n.2 = stationOf client station now
  defaults : ∀ client ∈ db.clients, (db'.defaultStation client.1).isSome
  orders : db'.orders =
    db.orders.filled OrderRecord.lacksStation db'.stationFor OrderRecord.setStation
  events : db'.events =
    db.events.filled EventRecord.lacksClient db'.clientFor EventRecord.setClient

theorem Settled.isSome {client : Id × UserRecord} (hclient : client ∈ db.clients)
    (h : Settled client db') : (db'.defaultStation client.1).isSome := by
  rcases h with h | h
  · have hstation := (Bool.and_eq_true_iff.1 (List.mem_filter.1 hclient).2).2
    rw [h] at hstation
    cases hstation
  · exact h

theorem migrated_of_writes (h : migrate005Stations.Writes storage db ws) :
    Migrated db (storage.after db ws) ∧ migrate005Stations.Idle storage (storage.after db ws) := by
  rw [migrate005Stations_eq] at h ⊢
  obtain ⟨ws₁, _, rfl, h₁, h⟩ := Script.writes_both.1 h
  obtain ⟨ws₂, ws₃, rfl, h₂, h₃⟩ := Script.writes_both.1 h
  obtain rfl := backfillOrders_writes.1 h₂
  obtain rfl := backfillEvents_writes.1 h₃
  rw [Storage.after_append, Storage.after_append]
  have hpromoted := migrateClients_promoted h₁
  generalize hs : storage.after db ws₁ = s at hpromoted ⊢
  have hidle : migrateClients.Idle storage (storage.after (storage.after s (orderPlan s))
      (eventPlan (storage.after s (orderPlan s)))) := by
    rw [← Storage.after_append, ← hs]
    exact migrateClients_idle_after h₁
  refine ⟨?_, hidle.both ((orders_idle_after s List.prefix_rfl).both (events_idle_after _))⟩
  rw [events_filled, orders_filled]
  refine ⟨hpromoted.users, hpromoted.stations, fun client hclient => ?_, ?_, ?_⟩
  · exact (hpromoted.settled client hclient).isSome hclient
  · rw [← hpromoted.orders]
    rfl
  · rw [← hpromoted.events]
    rfl

end whole

/-- However often the script was stopped and run again, at the end the database is one that a
single run may leave: everyone has the stations they had or the one in the account, orders and
events have what they lacked and could be found, and another run changes nothing. -/
theorem migrate005_converges {db db' : Database}
    (h : Script.Attempts storage migrate005Stations db db') :
    (∃ ws, migrate005Stations.Writes storage db ws ∧ storage.after db ws = db') ∧
      Migrated db db' ∧ migrate005Stations.Idle storage db' := by
  obtain ⟨ws, hws, rfl⟩ := h.writes fun _ _ => migrate005_resumes
  exact ⟨⟨ws, hws, rfl⟩, migrated_of_writes hws⟩

def legacyAccount : UserRecord where
  role := .client
  station := some { regionCode := 1, governorateCode := 2, location := ⟨39, 21⟩ }

/-- The second order and the second event refer to what is not there. -/
def legacy : Database where
  users := { docs := [(7, legacyAccount), (8, { role := .driver })] }
  orders := { docs := [(20, { clientId := 7 }), (21, { clientId := 9 })] }
  events := { docs := [(30, { orderId := 20 }), (31, { orderId := 22 })] }

def legacyStation : Write := .insertStation 1
  { companyId := none, clientId := 7, name := none, regionCode := 1, governorateCode := 2,
    location := ⟨39, 21⟩, addressText := "", isDefault := true, isFavourite := false,
    isActive := true, createdAt := 100, updatedAt := 100 }

theorem migrate005_converges_stopped :
    ∃ db', Script.Attempts storage migrate005Stations legacy db' ∧
      Migrated legacy db' ∧ migrate005Stations.Idle storage db' := by
  have hfirst : migrate005Stations.play storage [(1, 100)] legacy =
      some ([legacyStation] ++ [.setStation 20 1, .setClient 30 7], ⟨1, 1, 1⟩) := by
    decide +kernel
  have hagain : migrate005Stations.play storage [] (storage.after legacy [legacyStation]) =
      some ([.setStation 20 1, .setClient 30 7], ⟨0, 1, 1⟩) := by
    decide +kernel
  have hattempts := Script.Attempts.again (Script.play_ends hfirst).stops.of_append
    (Script.Attempts.ends ⟨_, Script.play_ends hagain⟩)
  exact ⟨_, hattempts, (migrate005_converges hattempts).2⟩

end CiroFuel.StationMigration
