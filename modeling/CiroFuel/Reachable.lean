import CiroFuel.HandlerSafety

/-!
# Invariants of the platform

The rules by which an invariant of single orders, or of the whole database,
passes from one commit to every run. A small platform at the end serves the
modules that exhibit runs.
-/
namespace CiroFuel
open Snapshot

section invariants
variable {cfg : Settings} {P : Event Doc Call.Reply → Prop} {init : Db}
variable {log : List (Event Doc Call.Reply)} {s : Sys Doc Call.Reply Refusal Answer}

/-- An invariant of the database that the platform's commits keep. -/
theorem db_invariant {I : Db → Prop} (hinit : Consistent cfg init) (hstart : I init)
    (keep : ∀ ev, ev.Sound (machine cfg) → P ev → (evolution cfg init).Holds ev →
      I ev.base → I ev.before → I ev.after)
    (h : Run (machine cfg) init P log s) :
    I s.store ∧ Run (machine cfg) init
      (fun ev => P ev ∧ (evolution cfg init).Holds ev ∧ I ev.base ∧ I ev.before) log s := by
  obtain ⟨hs, hrun⟩ := (disciplined hinit h).2.invariant I hstart fun ev hev hP hbase hbefore =>
    keep ev hev hP.1 hP.2 hbase hbefore
  exact ⟨hs, hrun.weaken fun ev _ hev => ⟨hev.1.1, hev.1.2, hev.2.1, hev.2.2.1⟩⟩

/-- An invariant of single orders: creation establishes it and every step keeps it. -/
theorem orders_invariant {I : Id → Order → Prop} (hinit : Consistent cfg init)
    (hstart : ∀ id o, init.order id = some o → I id o)
    (hnew : ∀ id (fields : OrderFields), I id fields.order)
    (hstep : ∀ ev id o o', ev.Sound (machine cfg) → P ev → (evolution cfg init).Holds ev →
      ev.label.subject = some id → ev.before.order id = some o →
      OrderStep cfg ev.env.time ev.label o o' → I id o → I id o')
    (h : Run (machine cfg) init P log s) :
    (∀ id o, s.store.order id = some o → I id o) ∧ Run (machine cfg) init
      (fun ev => P ev ∧ (evolution cfg init).Holds ev ∧
        ∀ id o, ev.before.order id = some o → I id o) log s := by
  have keep : ∀ ev, ev.Sound (machine cfg) → P ev → (evolution cfg init).Holds ev →
      (∀ id o, ev.base.order id = some o → I id o) →
      (∀ id o, ev.before.order id = some o → I id o) →
      ∀ id o, ev.after.order id = some o → I id o := by
    intro ev hev hP hholds _ hbefore id o ho
    rcases order_cases hev hholds.older hholds.pre id with ⟨-, heq⟩ |
      ⟨o₁, o₂, hid, -, hbefore₁, hafter, -, hmove⟩ | ⟨fields, userId, -, -, hafter⟩
    · exact hbefore id o (heq.symm.trans ho)
    · cases ho.symm.trans hafter
      exact hstep ev id o₁ o hev hP hholds hid hbefore₁ hmove (hbefore id o₁ hbefore₁)
    · cases ho.symm.trans hafter
      exact hnew id fields
  obtain ⟨hs, hrun⟩ := db_invariant (I := fun s => ∀ id o, s.order id = some o → I id o)
    hinit hstart keep h
  exact ⟨hs, hrun.weaken fun ev _ hev => ⟨hev.1, hev.2.1, hev.2.2.2⟩⟩

end invariants

/-! ### A small platform

One fuel company, one transport company that serves the client's region, one
warehouse, a client, a driver and two vehicles. Distances are measured on a line. -/
namespace Sample

def cfg : Settings where
  defaultCommissionCeiling := 100000
  distanceMeters a b := max (a.longitude - b.longitude) (b.longitude - a.longitude)

def client : AuthenticatedUser := ⟨20, .client, some 10⟩
def fuelAdmin : AuthenticatedUser := ⟨21, .fuelCompanyAdmin, some 10⟩
def transportAdmin : AuthenticatedUser := ⟨22, .transportCompanyAdmin, some 11⟩
def driver : AuthenticatedUser := ⟨30, .driver, some 11⟩

def fuelCompany : Company where
  type := .fuel
  fuelPrices := [(.diesel, 2)]
  pricingConfig := some ⟨5, 15⟩

def transportCompany : Company where
  type := .transport
  parentFuelCompanyId := some 10
  servedRegions := [1]
  deliveryRates := [⟨1, none, 3, 50⟩]

def warehouse : Warehouse where
  name := "North"
  addressText := "Ring Road"
  location := ⟨0, 0⟩
  fuelTypes := [.diesel]

/-- The next request, handled alone by thread `i` in `n` steps. -/
def serve (q : Request) (i n : ℕ) (firstId : ℕ := 0) : List (Act Request) :=
  .arrive q :: List.replicate n (.step i true firstId)

def edits : List AdminEdit :=
  [.putCompany 10 fuelCompany, .putCompany 11 transportCompany, .putWarehouse 60 warehouse,
    .addUser 20 .client (some 10) "Client" "1" (some ⟨some 1, none, some ⟨1000, 0⟩⟩),
    .addUser 30 .driver (some 11) "Driver" "2" none, .setOnline 30 true none,
    .addTruck 40 11 "T-40", .addTruck 41 11 "T-41",
    .addTank 50 11 "K-50" .iron 9000 [.diesel], .addTank 51 11 "K-51" .iron 9000 [.diesel]]

/-- Threads `0` to `9` set the platform up. -/
def opening : List (Act Request) :=
  (edits.zipIdx.map fun e => serve (.administer e.1) e.2 2).flatten

def order (paymentMethod : PaymentMethod) : CreateOrderDto where
  fuelType := .diesel
  quantityLiters := 1000
  deliveryLocation := some ⟨2000, 0⟩
  paymentMethod := some paymentMethod

/-- Two payment windows of one order, the first one missed. -/
def twoWindows : List (Act Request) :=
  opening ++ serve (.create client (order .direct)) 10 6 100 ++
    serve (.approve fuelAdmin 100 none none) 11 17 200 ++ [Act.tick 1800000] ++
    serve (.timeout ⟨100, 0, 1800000⟩) 12 5 ++ serve (.redispatch client 100) 13 7

/-- A direct order paid through the gateway and assigned to a driver. -/
def paidDelivery : List (Act Request) :=
  opening ++ serve (.create client (order .direct)) 10 6 100 ++
    serve (.approve fuelAdmin 100 none none) 11 17 200 ++
    serve (.webhook .sadad ⟨7, 100, 4945 / 2, .sar, true⟩ true) 12 10 300 ++
    serve (.assign transportAdmin 100 30 40 50 none) 13 6

end Sample
end CiroFuel
