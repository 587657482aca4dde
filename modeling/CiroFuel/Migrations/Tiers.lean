import CiroFuel.Collections
import CiroFuel.Schemas
import CiroFuel.Scripts
import Mathlib.Algebra.GroupWithZero.Nat

/-!
# From one tier to two

Once a fuel company drove its own trucks. A script gives each fuel company a
transport company and moves the drivers and the orders to it; it then gives each
client a station and each order that was paid an invoice. It works on documents
as they were written, in which a field may be missing, and passes over a fuel
company that has a transport company.
-/
namespace CiroFuel.TierMigration

/-! ### Data -/

/-- A field as it was written: missing, `null`, or with a value. -/
abbrev Field (α : Type) := Option (Option α)

structure CompanyRecord where
  name : String
  type : Field CompanyType := none
  status : Option CompanyStatus := none
  parentFuelCompanyId : Option Id := none
  servedRegions : Option (List ℕ) := none
  contactEmail : Option String := none
  contactPhone : Option String := none
  migratedFrom : Option Id := none
  createdAt : Option Instant := none
  updatedAt : Option Instant := none
deriving DecidableEq

structure Station where
  regionCode : ℕ
  governorateCode : ℕ
  location : GeoPoint
  addressText : String
deriving DecidableEq

structure UserRecord where
  companyId : Option Id := none
  role : UserRole
  station : Field Station := none
  stationLocation : Option GeoPoint := none
  location : Option GeoPoint := none
deriving DecidableEq

structure OrderRecord where
  companyId : Option Id := none
  fuelCompanyId : Field Id := none
  transportCompanyId : Option Id := none
  clientId : Option Id := none
  assignedDriverId : Option Id := none
  driverId : Option Id := none
  paymentMethod : Option PaymentMethod := none
  deliveryAddressText : Option String := none
  status : OrderStatus
  finalPrice : Option ℚ := none
  estimatedPrice : Option ℚ := none
  invoiceId : Field Id := none
  updatedAt : Option Instant := none
deriving DecidableEq

structure InvoiceRecord where
  orderId : Id
  fuelCompanyId : Option Id
  clientId : Option Id
  amount : Option ℚ
  method : PaymentMethod
  state : InvoiceState
  payerRole : UserRole
  settledAt : Instant
  createdAt : Instant
  updatedAt : Instant
deriving DecidableEq

structure Database where
  companies : Collection Id CompanyRecord := {}
  users : Collection Id UserRecord := {}
  orders : Collection Id OrderRecord := {}
  invoices : Collection Id InvoiceRecord := {}

/-! ### Queries -/

def UserRecord.drivesFor (u : UserRecord) (companyId : Id) : Bool :=
  decide (u.companyId = some companyId) && decide (u.role = .driver)

/-- The order is the company's and has not been moved. -/
def OrderRecord.legacyOf (o : OrderRecord) (companyId : Id) : Bool :=
  decide (o.companyId = some companyId) && o.fuelCompanyId.isNone

def Database.fuelCompanies (db : Database) : List (Id × CompanyRecord) :=
  db.companies.find fun _ c => decide (c.type = some (some .fuel))

def Database.transporters (db : Database) (fuelCompanyId : Id) : List (Id × CompanyRecord) :=
  db.companies.find fun _ c => decide (c.migratedFrom = some fuelCompanyId)

def Database.drivers (db : Database) (companyId : Id) : List (Id × UserRecord) :=
  db.users.find fun _ u => u.drivesFor companyId

def Database.legacyOrders (db : Database) (companyId : Id) : List (Id × OrderRecord) :=
  db.orders.find fun _ o => o.legacyOf companyId

def Database.clients (db : Database) : List (Id × UserRecord) :=
  db.users.find fun _ u => decide (u.role = .client) && u.station.isNone

def Database.paidOrders (db : Database) : List (Id × OrderRecord) :=
  db.orders.find fun _ o =>
    [OrderStatus.inTransit, .unloading, .delivered].contains o.status && o.invoiceId.isNone

def Database.invoicesOf (db : Database) (orderId : Id) : List (Id × InvoiceRecord) :=
  db.invoices.find fun _ i => decide (i.orderId = orderId)

/-! ### Writes -/

inductive Write where
  | tagFuel
  | insertTransporter (id : Id) (company : CompanyRecord)
  | moveDrivers (drivers : List Id) (transportCompanyId : Id)
  | moveOrders (fuelCompanyId transportCompanyId : Id)
  | placeClient (clientId : Id) (station : Station)
  | insertInvoice (id : Id) (invoice : InvoiceRecord)
  | setInvoice (orderId invoiceId : Id)
deriving DecidableEq

def CompanyRecord.tag (c : CompanyRecord) : CompanyRecord :=
  if c.type.isNone then
    { c with
      type := some (some .fuel)
      servedRegions := some [] }
  else c

def UserRecord.place (station : Station) (u : UserRecord) : UserRecord :=
  { u with
    station := some (some station)
    stationLocation := none }

def OrderRecord.move (fuelCompanyId transportCompanyId : Id) (o : OrderRecord) : OrderRecord :=
  if o.legacyOf fuelCompanyId then
    { o with
      fuelCompanyId := some o.companyId
      transportCompanyId := some transportCompanyId
      driverId := o.driverId.or o.assignedDriverId
      paymentMethod := some (o.paymentMethod.getD .direct)
      deliveryAddressText := some (o.deliveryAddressText.getD "")
      companyId := none
      assignedDriverId := none }
  else o

def OrderRecord.setInvoice (invoiceId : Id) (o : OrderRecord) : OrderRecord :=
  { o with invoiceId := some (some invoiceId) }

def Database.apply : Write → Database → Database
  | .tagFuel, db => { db with companies := db.companies.update fun _ c => c.tag }
  | .insertTransporter id company, db => { db with companies := db.companies.insert id company }
  | .moveDrivers drivers transportCompanyId, db =>
      { db with
        users := db.users.update fun id u =>
          if id ∈ drivers then { u with companyId := some transportCompanyId } else u }
  | .moveOrders fuelCompanyId transportCompanyId, db =>
      { db with orders := db.orders.update fun _ o => o.move fuelCompanyId transportCompanyId }
  | .placeClient clientId station, db =>
      { db with users := db.users.updateOne clientId (UserRecord.place station) }
  | .insertInvoice id invoice, db => { db with invoices := db.invoices.insert id invoice }
  | .setInvoice orderId invoiceId, db =>
      { db with orders := db.orders.updateOne orderId (OrderRecord.setInvoice invoiceId) }

/-- The unique indexes: the name of a company, the order of an invoice. -/
def Database.admits : Write → Database → Bool
  | .insertTransporter id company, db =>
      decide (id ∉ db.companies.keys) &&
        db.companies.docs.all fun d => decide (d.2.name ≠ company.name)
  | .insertInvoice id invoice, db =>
      decide (id ∉ db.invoices.keys) &&
        db.invoices.docs.all fun d => decide (d.2.orderId ≠ invoice.orderId)
  | _, _ => true

def Database.identifiers (db : Database) : List Id :=
  db.companies.keys ++ db.users.keys ++ db.orders.keys ++ db.invoices.keys

/-- A generated value is a new identifier and the time. -/
def storage : Storage Database Write (Id × Instant) where
  apply := Database.apply
  admits := Database.admits
  fresh g db := decide (g.1 ∉ db.identifiers)

/-! ### The script -/

/-- `RegionCode.RIYADH` -/
def PROVISIONAL_REGION : ℕ := 0

/-- `GovernorateCode.RIYADH_CITY` -/
def PROVISIONAL_GOVERNORATE : ℕ := 0

abbrev Migration := Script Database Write (Id × Instant)

def transporterOf (fuelCompany : Id × CompanyRecord) (now : Instant) : CompanyRecord where
  name := fuelCompany.2.name ++ " — Transport"
  type := some (some .transport)
  status := some (fuelCompany.2.status.getD .active)
  parentFuelCompanyId := some fuelCompany.1
  servedRegions := some []
  contactEmail := fuelCompany.2.contactEmail
  contactPhone := fuelCompany.2.contactPhone
  migratedFrom := some fuelCompany.1
  createdAt := some now
  updatedAt := some now

/-- What was done for a fuel company. -/
structure Moves where
  transporter : Option Id := none
  drivers : ℕ := 0
  orders : ℕ := 0

/-- Every existing company is a fuel company. -/
def tagCompanies : Migration ℕ := do
  let untyped ← Script.query fun db => db.companies.find fun _ c => c.type.isNone
  Script.perform .tagFuel
  return untyped.length

def reassignDrivers (drivers : List (Id × UserRecord)) (transportCompanyId : Id) :
    Migration Unit :=
  if drivers.isEmpty then return ()
  else Script.perform (.moveDrivers (drivers.map Prod.fst) transportCompanyId)

def reassignOrders (fuelCompanyId transportCompanyId : Id) : Migration ℕ := do
  let orders ← Script.query fun db => db.legacyOrders fuelCompanyId
  Script.perform (.moveOrders fuelCompanyId transportCompanyId)
  return orders.length

def createTransporter (fuelCompany : Id × CompanyRecord) : Migration Moves := do
  let drivers ← Script.query fun db => db.drivers fuelCompany.1
  let (transportCompanyId, now) ← Script.generate
  Script.perform (.insertTransporter transportCompanyId (transporterOf fuelCompany now))
  reassignDrivers drivers transportCompanyId
  let orders ← reassignOrders fuelCompany.1 transportCompanyId
  return { transporter := some transportCompanyId, drivers := drivers.length, orders := orders }

def migrateCompany (fuelCompany : Id × CompanyRecord) : Migration Moves := do
  let existingTransporter ← Script.query fun db => (db.transporters fuelCompany.1).head?
  if existingTransporter.isSome then return {}
  else createTransporter fuelCompany

def migrateCompanies : Migration (List Moves) := do
  let fuelCompanies ← Script.query Database.fuelCompanies
  fuelCompanies.mapM migrateCompany

def stationOf (client : UserRecord) : Station where
  regionCode := PROVISIONAL_REGION
  governorateCode := PROVISIONAL_GOVERNORATE
  location := (client.stationLocation.or client.location).getD ⟨0, 0⟩
  addressText := ""

def migrateClient (client : Id × UserRecord) : Migration Id := do
  Script.perform (.placeClient client.1 (stationOf client.2))
  return client.1

def migrateClients : Migration (List Id) := do
  let clients ← Script.query Database.clients
  clients.mapM migrateClient

def invoiceOf (order : Id × OrderRecord) (now : Instant) : InvoiceRecord where
  orderId := order.1
  fuelCompanyId := order.2.fuelCompanyId.join.or order.2.companyId
  clientId := order.2.clientId
  amount := order.2.finalPrice.or order.2.estimatedPrice
  method := .direct
  state := .settled
  payerRole := .client
  settledAt := order.2.updatedAt.getD now
  createdAt := now
  updatedAt := now

/-- The invoice of an order; whether it was created. -/
def linkInvoice (order : Id × OrderRecord) : Option (Id × InvoiceRecord) → Migration Bool
  | some existingInvoice => do
      Script.perform (.setInvoice order.1 existingInvoice.1)
      return false
  | none => do
      let (invoiceId, now) ← Script.generate
      Script.perform (.insertInvoice invoiceId (invoiceOf order now))
      Script.perform (.setInvoice order.1 invoiceId)
      return true

def issueInvoice (order : Id × OrderRecord) : Migration Bool := do
  let existingInvoice ← Script.query fun db => (db.invoicesOf order.1).head?
  linkInvoice order existingInvoice

def issueInvoices : Migration (List Bool) := do
  let paidOrders ← Script.query Database.paidOrders
  paidOrders.mapM issueInvoice

structure MigrationSummary where
  companiesTaggedFuel : ℕ
  transportersCreated : ℕ
  driversReassigned : ℕ
  ordersMigrated : ℕ
  clientsMigrated : ℕ
  historicalInvoicesCreated : ℕ
  needsRegionReview : List Id
deriving DecidableEq

def summarise (companiesTaggedFuel : ℕ) (moves : List Moves) (clients : List Id)
    (invoices : List Bool) : MigrationSummary where
  companiesTaggedFuel := companiesTaggedFuel
  transportersCreated := moves.countP fun m => m.transporter.isSome
  driversReassigned := (moves.map Moves.drivers).sum
  ordersMigrated := (moves.map Moves.orders).sum
  clientsMigrated := clients.length
  historicalInvoicesCreated := invoices.countP id
  needsRegionReview := moves.filterMap Moves.transporter ++ clients

def migrateMultiTier : Migration MigrationSummary := do
  let companiesTaggedFuel ← tagCompanies
  let moves ← migrateCompanies
  let clients ← migrateClients
  let invoices ← issueInvoices
  return summarise companiesTaggedFuel moves clients invoices

end CiroFuel.TierMigration
