import CiroFuel.Returning

/-!
# The station that routing serves

A quote and its redemption look at the station the order is placed against. Routing
looks at the one station that is embedded in the client, which is a copy of the
client's default. Past that read the two ask the same questions, so they agree on
every state of the companies exactly if the two stations lie in one governorate.
-/
namespace CiroFuel
open Snapshot Handler

/-- The station an order was placed against. -/
def stationOf (s : Db) (order : OrderDocument) : Option Station :=
  order.stationId.bind fun stationId => s.find (Key.station stationId)

/-- Routing to a region and governorate: `routeOrder` after its first read. -/
def routeTo (cfg : Settings) (order : OrderDocument) (actor : TransitionActor)
    (source : OrderStatus) (chosen : Option Id) (regionCode governorateCode : Option ℕ) :
    Handler (OrderDocument × List Id) := do
  let regionCode ← require .noStationRegion regionCode
  let candidates := findServingTransporters (← Prog.scan) order.fuelCompanyId regionCode
  match ← resolveTransporter candidates chosen with
  | none => do
      let updated ← if source = .awaitingRouting then pure order
        else perform (.awaitRouting order actor)
      sideEffect
      return (updated, candidates)
  | some transportCompanyId => do
      let target : DeliveryTarget :=
        { regionCode := regionCode
          governorateCode := governorateCode
          coordinates := order.deliveryLocation }
      let deliveryFee ← feeForCompany cfg transportCompanyId target order.fuelType
      let awaiting ← perform (.route order source transportCompanyId deliveryFee actor)
      sideEffect
      if awaiting.paymentMethod = .direct then
        enqueue (.schedule awaiting.id)
      sideEffect
      let fresh : Option Order ← Prog.find (Key.order awaiting.id)
      return ((fresh.map (·.withId awaiting.id)).getD awaiting, [])

/-- What the claimed routing goes on with: the region and governorate of the order's station. -/
def routeToStation (cfg : Settings) (s : Db) (order : OrderDocument) (actor : TransitionActor)
    (source : OrderStatus) (chosen : Option Id) : Handler (OrderDocument × List Id) :=
  routeTo cfg order actor source chosen ((stationOf s order).bind (·.regionCode))
    ((stationOf s order).bind (·.governorateCode))

/-- The station embedded in the client. -/
def embeddedStation (s : Db) (order : OrderDocument) : Option StationInfo :=
  (s.user order.clientId).bind (·.station)

/-- The client's embedded station lies where the order's does. -/
structure SameArea (s : Db) (order : OrderDocument) : Prop where
  region : (embeddedStation s order).bind (·.regionCode) =
    (stationOf s order).bind (·.regionCode)
  /-- A station without a region is not routed to at all. -/
  governorate : ((stationOf s order).bind (·.regionCode)).isSome →
    (embeddedStation s order).bind (·.governorateCode) =
      (stationOf s order).bind (·.governorateCode)

section routing
variable {cfg : Settings} {order : OrderDocument} {actor : TransitionActor}
variable {source : OrderStatus} {chosen : Option Id} {w : World} {n : ℕ} {s : Db}

/-- Routing reads the client and goes on from the embedded station. -/
theorem routeOrder_advance :
    ((routeOrder cfg order actor source chosen).advance (machine cfg) w n s).1 =
      routeTo cfg order actor source chosen ((embeddedStation s order).bind (·.regionCode))
        ((embeddedStation s order).bind (·.governorateCode)) := rfl

end routing

/-! ### Companies that tell areas apart -/

/-- A platform with a single company. -/
def platformOf (c : Company) : Db :=
  Store.load (AList.singleton (Key.company 0) c) fun e he => by
    rw [List.mem_singleton.mp he]
    rfl

/-- A transport company that serves one region at the given rates. -/
def haulier (fuelCompanyId : Id) (regionCode : ℕ) (rates : List DeliveryRate) : Company where
  type := .transport
  parentFuelCompanyId := some fuelCompanyId
  servedRegions := [regionCode]
  deliveryRates := rates

section platform
variable {fuelCompanyId : Id} {regionCode : ℕ} {rates : List DeliveryRate}

theorem serving_haulier (regionCode' : ℕ) :
    findServingTransporters (platformOf (haulier fuelCompanyId regionCode rates)).docs
      fuelCompanyId regionCode' = if regionCode' = regionCode then [0] else [] := by
  have hcollect : Docs.collect pickCompany
      (platformOf (haulier fuelCompanyId regionCode rates)).docs =
        [(0, haulier fuelCompanyId regionCode rates)] := rfl
  rw [findServingTransporters, hcollect]
  split_ifs with hregion
  · simp [haulier, hregion]
  · simp [haulier, hregion]

variable {cfg : Settings} {order : OrderDocument}

/-- What becomes of a parked order on a platform with the one company. -/
def outcome (cfg : Settings) (order : OrderDocument) (c : Company) (regionCode : Option ℕ)
    (governorateCode : Option ℕ) : Except (Failure Refusal) (OrderDocument × List Id) :=
  ((routeTo cfg order systemActor .awaitingRouting none regionCode governorateCode).alone
    (machine cfg) ⟨fun _ => 0, fun _ => Env.frozen 0 0, fun _ => true⟩ 0 (platformOf c)).1

theorem outcome_nowhere (c : Company) (governorateCode : Option ℕ) :
    outcome cfg order c none governorateCode = .error (.thrown .noStationRegion) := rfl

theorem outcome_unserved {regionCode' : ℕ} (h : regionCode' ≠ regionCode)
    (governorateCode : Option ℕ) :
    outcome cfg order (haulier order.fuelCompanyId regionCode rates) (some regionCode')
      governorateCode = .ok (order, []) := by
  rw [outcome, routeTo, Prog.alone_bind_ok (alone_require _ _), Prog.alone_bind_ok Prog.alone_scan]
  simp only
  rw [serving_haulier, if_neg h]
  rfl

/-- Without a warehouse no fee is found; how it fails tells whether there is a rate. -/
theorem alone_fee_refused (target : DeliveryTarget) (fuelType : FuelType) (w : World) (n : ℕ) :
    ((feeForCompany cfg 0 target fuelType).alone (machine cfg) w n
      (platformOf (haulier fuelCompanyId regionCode rates))).1 =
    .error (.thrown (if (rateFor rates target).isSome then .noWarehouseForGrade
      else .transportPriceNotSet)) := by
  have hcompany : (platformOf (haulier fuelCompanyId regionCode rates)).find (Key.company 0) =
      some (haulier fuelCompanyId regionCode rates) := rfl
  rw [feeForCompany, Prog.alone_bind_ok (Prog.alone_find _), hcompany,
    Prog.alone_bind_ok (alone_require _ _)]
  change ((require .transportPriceNotSet (rateFor rates target) >>= _).alone _ _ _ _).1 = _
  cases rateFor rates target with
  | none => rfl
  | some rate => rfl

theorem outcome_served (governorateCode : Option ℕ) :
    outcome cfg order (haulier order.fuelCompanyId regionCode rates) (some regionCode)
      governorateCode =
    .error (.thrown (if (rateFor rates
        ⟨regionCode, governorateCode, order.deliveryLocation⟩).isSome then .noWarehouseForGrade
      else .transportPriceNotSet)) := by
  rw [outcome, routeTo, Prog.alone_bind_ok (alone_require _ _), Prog.alone_bind_ok Prog.alone_scan]
  simp only
  rw [serving_haulier, if_pos rfl]
  change (Prog.alone _ _ (feeForCompany _ _ _ _ >>= _) _ _).1 = _
  exact Prog.alone_bind_error (alone_fee_refused _ _ _ _)

end platform

/-! ### The areas a routing can be told from -/

section areas
variable {cfg : Settings} {order : OrderDocument}

/-- A rate for one governorate is found for that governorate. -/
theorem rateFor_single (regionCode g : ℕ) (pricePerKm minPrice : ℚ) (governorateCode : Option ℕ)
    (coordinates : GeoPoint) :
    (rateFor [⟨regionCode, some g, pricePerKm, minPrice⟩]
      ⟨regionCode, governorateCode, coordinates⟩).isSome ↔ governorateCode = some g := by
  cases governorateCode with
  | none => simp [rateFor]
  | some g' =>
      by_cases hg : g = g'
      · simp [rateFor, hg]
      · simp [rateFor, hg, Ne.symm hg]

theorem refusal_inj {p q : Prop} [Decidable p] [Decidable q]
    (h : (if p then Refusal.noWarehouseForGrade else .transportPriceNotSet) =
      if q then .noWarehouseForGrade else .transportPriceNotSet) : p ↔ q := by
  by_cases hp : p
  · by_cases hq : q
    · exact iff_of_true hp hq
    · simp [hp, hq] at h
  · by_cases hq : q
    · simp [hp, hq] at h
    · exact iff_of_false hp hq

/-- Routings that agree on every platform go to one area. -/
theorem routeTo_area {regionCode regionCode' governorateCode governorateCode' : Option ℕ}
    (h : ∀ actor source chosen,
      routeTo cfg order actor source chosen regionCode governorateCode =
        routeTo cfg order actor source chosen regionCode' governorateCode') :
    regionCode = regionCode' ∧ (regionCode'.isSome → governorateCode = governorateCode') := by
  have houtcome : ∀ c, outcome cfg order c regionCode governorateCode =
      outcome cfg order c regionCode' governorateCode' := by
    intro c
    rw [outcome, h, outcome]
  cases regionCode with
  | none =>
      cases regionCode' with
      | none => exact ⟨rfl, fun h => by cases h⟩
      | some r' =>
          -- A company that serves another region leaves the order parked.
          have hparked := houtcome (haulier order.fuelCompanyId (r' + 1) [])
          rw [outcome_nowhere, outcome_unserved (Nat.succ_ne_self r').symm] at hparked
          cases hparked
  | some r =>
      cases regionCode' with
      | none =>
          have hparked := houtcome (haulier order.fuelCompanyId (r + 1) [])
          rw [outcome_nowhere, outcome_unserved (Nat.succ_ne_self r).symm] at hparked
          cases hparked
      | some r' =>
          have hregion : r' = r := by
            by_contra hne
            have hserved := houtcome (haulier order.fuelCompanyId r [])
            rw [outcome_served, outcome_unserved hne] at hserved
            cases hserved
          subst hregion
          refine ⟨rfl, fun _ => ?_⟩
          apply Option.ext
          intro g
          have hserved := houtcome (haulier order.fuelCompanyId r' [⟨r', some g, 0, 0⟩])
          rw [outcome_served, outcome_served] at hserved
          have hsame := refusal_inj (Failure.thrown.inj (Except.error.inj hserved))
          rwa [rateFor_single, rateFor_single] at hsame

end areas

/-- An order is routed for its own station exactly if the station embedded in the client lies in
the same region and governorate. -/
theorem routed_for_station_iff (cfg : Settings) (w : World) (n : ℕ) (s : Db)
    (order : OrderDocument) :
    (∀ actor source chosen,
      ((routeOrder cfg order actor source chosen).advance (machine cfg) w n s).1 =
        routeToStation cfg s order actor source chosen) ↔ SameArea s order := by
  simp only [routeOrder_advance, routeToStation]
  constructor
  · intro h
    obtain ⟨hregion, hgovernorate⟩ := routeTo_area h
    exact ⟨hregion, hgovernorate⟩
  · intro h actor source chosen
    rw [h.region]
    cases hregion : (stationOf s order).bind (·.regionCode) with
    | none => rfl
    | some regionCode =>
        have hserved := h.governorate
        rw [hregion] at hserved
        rw [hserved rfl]

namespace Sample

/-- The client has a second station, in a region no transporter serves, and orders to it. -/
def secondStation : List (Act Request) :=
  opening ++ serve (.administer (.putStation 70 ⟨20, some 2, some 5, ⟨9000, 0⟩, true⟩)) 10 2 ++
    serve (.create client { order .direct with stationId := some 70 }) 11 7 100 ++
    serve (.approve fuelAdmin 100 none none) 12 17 200

end Sample

/-- The call routes an order to a transporter that does not serve its station's region. -/
def Call.astray : Call → Db → Bool
  | .route order _ transportCompanyId _ _, s =>
      (stationOf s order).any fun st => st.regionCode.any fun regionCode =>
        !(findServingTransporters s.docs order.fuelCompanyId regionCode).contains transportCompanyId
  | _, _ => false

/-- An order to a station in one region is routed to a transporter that only serves another. -/
theorem routed_elsewhere : ¬ ∀ (log : List (Event Doc Call.Reply))
    (s : Sys Doc Call.Reply Refusal Answer),
    Run (machine Sample.cfg) Store.empty (fun _ => True) log s →
    ∀ ev ∈ log, ∀ order source transportCompanyId deliveryFee actor,
      ev.label = .route order source transportCompanyId deliveryFee actor →
      ∀ st regionCode, stationOf ev.before order = some st → st.regionCode = some regionCode →
        transportCompanyId ∈ findServingTransporters ev.before.docs order.fuelCompanyId
          regionCode := by
  intro hall
  obtain ⟨log, s, hrun, htest⟩ := exists_run (machine Sample.cfg) Store.empty (fun _ => True)
    Sample.secondStation (fun log _ => log.any fun ev : Event Doc Call.Reply =>
      ev.label.astray ev.before) (by decide +kernel)
  obtain ⟨ev, hev, hastray⟩ := List.any_eq_true.mp htest
  have hserving := hall log s hrun ev hev
  generalize ev.label = label at hastray hserving
  cases label with
  | route order source transportCompanyId deliveryFee actor =>
      obtain ⟨st, hst, hregion⟩ := (Option.any_eq_true _ _).mp hastray
      obtain ⟨regionCode, hcode, hmissing⟩ := (Option.any_eq_true _ _).mp hregion
      have hserves := hserving order source transportCompanyId deliveryFee actor rfl st regionCode
        hst hcode
      simp [hserves] at hmissing
  | _ => cases hastray

end CiroFuel
