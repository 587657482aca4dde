import CiroFuel.Reachable
import CiroFuel.Snapshot.Spared

/-!
# All or nothing

The assignment of a driver books three resources and moves the order in one
transaction. A refusal throws, and what was booked before it is gone. The order
that the handler compares with the tank was read earlier; its quantity and its
grade never change.
-/
namespace CiroFuel
open Snapshot Tx Handler

/-- The order names the driver and the vehicle, which are busy with it and can carry it. -/
structure Assigned (s : Db) (orderId driverId truckId tankId : Id) (o : Order) (driver : User)
    (truck : Truck) (tank : Tank) : Prop where
  hasOrder : s.order orderId = some o
  hasDriver : s.user driverId = some driver
  hasTruck : s.truck truckId = some truck
  hasTank : s.tank tankId = some tank
  status : o.status = .assignedToDriver
  names : o.driverId = some driverId ∧ o.truckId = some truckId ∧ o.tankId = some tankId
  driverBusy : driver.isAvailable = false ∧ driver.activeOrderId = some orderId
  truckBusy : truck.activeOrderId = some orderId
  tankBusy : tank.activeOrderId = some orderId
  capacity : o.quantityLiters ≤ tank.maxCapacityLiters
  grade : o.fuelType ∈ tank.fuelTypes

/-! ### The transaction -/

section transaction
variable {env : Env} {v w : View Doc}

theorem assertTankFits_ok {tank : Tank} {order : OrderDocument} {r : Unit}
    (h : (assertTankFits tank order).run env v = .ok (r, w)) :
    order.quantityLiters ≤ tank.maxCapacityLiters ∧ order.fuelType ∈ tank.fuelTypes ∧ w = v := by
  unfold assertTankFits at h
  split_ifs at h with hcapacity hgrade
  · exact (throw_ok h).elim
  · exact (throw_ok h).elim
  · obtain ⟨-, rfl⟩ := pure_ok h
    exact ⟨Rat.not_lt.mp hcapacity, by simpa using hgrade, rfl⟩

/-- An update that has returned a document has written it. -/
theorem updated_ok {k : Key} {filter : Doc k → Bool} {update : Doc k → Doc k} {x : Doc k}
    (h : (Tx.findOneAndUpdate k filter update : Action _).run env v = .ok (some x, w)) :
    ∃ x₀, v.find k = some x₀ ∧ x = update x₀ ∧ w = v.put k x := by
  rcases findOneAndUpdate_ok h with ⟨x₀, hx₀, -, -, hx, hw⟩ | ⟨hnone, -, -⟩
  · cases hx
    exact ⟨x₀, hx₀, rfl, hw⟩
  · cases hnone

/-- What a successful assignment has written. -/
theorem assignDriver_ok {order r : OrderDocument} {a : Assignment}
    (h : (assignDriver order a).run env v = .ok (r, w)) :
    ∃ (o : Order) (driver : User) (truck : Truck) (tank : Tank) (client : Option User) (n : ℕ),
      v.find (Key.order order.id) = some o ∧
      w.find (Key.order order.id) = some (o.moved .routedToTransport .assignedToDriver systemActor
        { extraSet := assignmentFields a driver truck tank client } (env.time n)) ∧
      w.find (Key.user a.driverId) = some driver ∧ w.find (Key.truck a.truckId) = some truck ∧
      w.find (Key.tank a.tankId) = some tank ∧
      driver.isAvailable = false ∧ driver.activeOrderId = some order.id ∧
      truck.activeOrderId = some order.id ∧ tank.activeOrderId = some order.id ∧
      order.quantityLiters ≤ tank.maxCapacityLiters ∧ order.fuelType ∈ tank.fuelTypes ∧
      ∀ k ∈ [Key.order order.id, .user a.driverId, .truck a.truckId, .tank a.tankId],
        k ∈ w.writes := by
  obtain ⟨driver, u₁, hdriver, h⟩ := bind_ok h
  cases driver with
  | none => exact (throw_ok h).elim
  | some driver =>
      obtain ⟨truck, u₂, htruck, h⟩ := bind_ok h
      cases truck with
      | none => exact (throw_ok h).elim
      | some truck =>
          obtain ⟨tank, u₃, htank, h⟩ := bind_ok h
          cases tank with
          | none => exact (throw_ok h).elim
          | some tank =>
              obtain ⟨_, u₄, hfits, h⟩ := bind_ok h
              obtain ⟨client, u₅, hclient, hmove⟩ := bind_ok h
              obtain ⟨-, rfl⟩ := find_ok hclient
              obtain ⟨hcapacity, hgrade, rfl⟩ := assertTankFits_ok hfits
              obtain ⟨driver₀, -, rfl, rfl⟩ := updated_ok hdriver
              obtain ⟨truck₀, -, rfl, rfl⟩ := updated_ok htruck
              obtain ⟨tank₀, -, rfl, rfl⟩ := updated_ok htank
              obtain ⟨o, entry, ho, -, -, rfl, -, rfl⟩ := transition_ok hmove
              have hput : ∀ {k : Key} (u : View Doc) (x : Order), k ≠ Key.order order.id →
                  (View.put u (Key.order order.id) x).find k = u.find k :=
                fun u x hne => View.find_put_ne u x hne
              refine ⟨o, _, _, _, client, v.readings, ?_, View.find_put_self _ _ _, ?_, ?_, ?_,
                rfl, rfl, rfl, rfl, hcapacity, hgrade, ?_⟩
              · rw [View.find_put_ne _ _ (by simp), View.find_put_ne _ _ (by simp),
                  View.find_put_ne _ _ (by simp)] at ho
                exact ho
              · rw [hput _ _ (by simp), View.find_tick, View.find_put_ne _ _ (by simp),
                  View.find_put_ne _ _ (by simp), View.find_put_self]
              · rw [hput _ _ (by simp), View.find_tick, View.find_put_ne _ _ (by simp),
                  View.find_put_self]
              · rw [hput _ _ (by simp), View.find_tick, View.find_put_self]
              · intro k hk
                simp only [List.mem_cons, List.not_mem_nil, or_false] at hk
                rcases hk with rfl | rfl | rfl | rfl <;> simp [View.put]

end transaction

/-! ### Every run -/

section runs
variable {cfg : Settings} {init : Db} {P : Event Doc Call.Reply → Prop}

/-- A committed assignment has left the order and its resources as they should be. -/
theorem assigned_of_commit {ev : Event Doc Call.Reply} (hev : ev.Sound (machine cfg))
    (hholds : (evolution cfg init).Holds ev) {order : OrderDocument} {a : Assignment}
    (hlabel : ev.label = .assign order a) :
    ∃ o driver truck tank,
      Assigned ev.after order.id a.driverId a.truckId a.tankId o driver truck tank := by
  have holder := hholds.older
  have hpre := hholds.pre
  obtain ⟨i, label, base, env, began, ended, reply, view, before, after⟩ := ev
  dsimp only at hlabel holder hpre
  subst hlabel
  have hran : (assignDriver order a).run env (View.start base.docs) = .ok (reply, view) := hev.ran
  obtain ⟨o, driver, truck, tank, client, n, ho, horder, hdriver, htruck, htank, hidle, hdriverBusy,
    htruckBusy, htankBusy, hcapacity, hgrade, hwritten⟩ := assignDriver_ok hran
  have hstored : ∀ k ∈ [Key.order order.id, .user a.driverId, .truck a.truckId, .tank a.tankId],
      after.find k = view.find k := fun k hk => (hev.wrote holder (hwritten k hk)).2
  obtain ⟨o', ho', hevolves⟩ := (hpre.1 order rfl).earlier
  cases ho'.symm.trans ho
  obtain ⟨summary, ineligible, reason, hmoved⟩ :=
    Order.assigned_eq o a driver truck tank client (env.time n)
  have hafter : after.order order.id = _ := (hstored _ (by simp)).trans horder
  rw [hmoved] at hafter
  exact ⟨_, driver, truck, tank,
    { hasOrder := hafter
      hasDriver := (hstored _ (by simp)).trans hdriver
      hasTruck := (hstored _ (by simp)).trans htruck
      hasTank := (hstored _ (by simp)).trans htank
      status := rfl
      names := ⟨rfl, rfl, rfl⟩
      driverBusy := ⟨hidle, hdriverBusy⟩
      truckBusy := htruckBusy
      tankBusy := htankBusy
      capacity := by
        rw [← hevolves.quantityLiters] at hcapacity
        exact hcapacity
      grade := by
        rw [← hevolves.fuelType] at hgrade
        exact hgrade }⟩

/-- What the handler returns on the strength of. -/
def Assigns (orderId driverId truckId tankId : Id) : (l : Call) → l.Reply → Answer → Prop
  | .assign order a, _, answer => order.id = orderId ∧ a.driverId = driverId ∧
      a.truckId = truckId ∧ a.tankId = tankId ∧ answer = .assigned driverId
  | _, _, _ => False

theorem Assigns.label {orderId driverId truckId tankId : Id} {l : Call} {r : l.Reply}
    {answer : Answer} (h : Assigns orderId driverId truckId tankId l r answer) :
    ∃ order a, l = .assign order a ∧ order.id = orderId ∧ a.driverId = driverId ∧
      a.truckId = truckId ∧ a.tankId = tankId ∧ answer = .assigned driverId := by
  cases l with
  | assign order a => exact ⟨order, a, rfl, h⟩
  | _ => exact h.elim

theorem findById_yields (id : Id) : (findById id).Yields fun order => order.id = id := by
  apply Prog.yields_find
  intro x
  cases x with
  | none => trivial
  | some o => exact (rfl : (o.withId id).id = id)

theorem findById_callFree (id : Id) : (findById id).CallFree :=
  (Prog.calls_find _).bind fun _ => require_callFree.bind fun _ => trivial

theorem assign_allOrNothing (orderId driverId truckId tankId : Id) (reason : Option String) :
    (assign cfg orderId driverId truckId tankId reason).AllOrNothing
      (Assigns orderId driverId truckId tankId) := by
  apply Prog.AllOrNothing.reads (findById_callFree orderId) (findById_yields orderId)
  intro order hid
  apply Prog.AllOrNothing.reads refuseIf_callFree (Prog.yields_true _)
  intro _ _
  apply Prog.AllOrNothing.reads (Prog.calls_find _) (Prog.yields_true _)
  intro driver _
  apply Prog.AllOrNothing.reads refuseIf_callFree (Prog.yields_true _)
  intro _ _
  apply Prog.AllOrNothing.reads Prog.calls_scan (Prog.yields_true _)
  intro d _
  apply Prog.AllOrNothing.reads require_callFree (Prog.yields_true _)
  rintro ⟨warehouseId, warehouse, distance⟩ _
  apply Prog.AllOrNothing.attempt
  · intro r
    exact ⟨hid, rfl, rfl, rfl, rfl⟩
  · intro e
    cases e <;> trivial

/-- For every state, all arguments and whatever the other requests do: the handler has
returned, and has left the order assigned to exactly this driver, truck and tank, all three
busy with it; or it has thrown and written nothing. -/
theorem assignDriver_all_or_nothing {log₀ log : List (Event Doc Call.Reply)}
    {s₀ s : Sys Doc Call.Reply Refusal Answer} (hinit : Consistent cfg init)
    (hrun : Run (machine cfg) init (fun _ => True) log₀ s₀) {i : ℕ} {user : AuthenticatedUser}
    {orderId driverId truckId tankId : Id} {reason : Option String}
    (hstart : s₀.threads[i]? =
      some { prog := (machine cfg).handle (.assign user orderId driverId truckId tankId reason) })
    (h : Spared (machine cfg) i s₀ log s) {t : Thread Doc Call.Reply Refusal Answer}
    (ht : s.threads[i]? = some t) :
    (∀ a, t.prog = .pure a → a = .assigned driverId ∧ ∃ ev,
      log.filter (fun ev => ev.thread = i) = [ev] ∧ ∃ o driver truck tank,
        Assigned ev.after orderId driverId truckId tankId o driver truck tank) ∧
    ∀ e, t.prog = .fail e → ∀ ev ∈ log, ev.thread ≠ i := by
  obtain ⟨hreturned, hfailed⟩ := h.all_or_nothing hstart
    (assign_allOrNothing orderId driverId truckId tankId reason) ht
  refine ⟨fun a ha => ?_, hfailed⟩
  obtain ⟨ev, hlog, hassigns⟩ := hreturned a ha
  have hmem : ev ∈ log := (List.mem_filter.mp (hlog ▸ List.mem_singleton_self ev)).1
  obtain ⟨hsound, -, hholds⟩ := (disciplined hinit (h.onwards.run hrun)).2.mem
    (List.mem_append_left _ hmem)
  obtain ⟨order, b, hlabel, rfl, rfl, rfl, rfl, hanswer⟩ := hassigns.label
  exact ⟨hanswer, ev, hlog, assigned_of_commit hsound hholds hlabel⟩

end runs

namespace Sample

def returned (t : Thread Doc Call.Reply Refusal Answer) : Bool :=
  t.prog matches .pure _

def unavailable (t : Thread Doc Call.Reply Refusal Answer) : Bool :=
  t.prog matches .fail (.thrown .driverUnavailable)

end Sample

/-- Two assignments of one driver at the same time: the later one throws. -/
theorem assignDriver_all_or_nothing_contended :
    ∃ s₀ log s, Spared (machine Sample.cfg) 13 s₀ log s ∧
      (∃ ev, log.filter (fun ev => ev.thread = 13) = [ev] ∧ ∃ o driver truck tank,
        Assigned ev.after 100 30 40 50 o driver truck tank) ∧
      ∃ t, s.threads[14]? = some t ∧ t.prog = .fail (.thrown .driverUnavailable) := by
  obtain ⟨log₀, s₀, log, s, hrun, hstart, h, htest⟩ := exists_spared (machine Sample.cfg)
    Store.empty
    (Sample.opening ++ Sample.serve (.create Sample.client (Sample.order .direct)) 10 6 100 ++
      Sample.serve (.approve Sample.fuelAdmin 100 none none) 11 17 200 ++
      Sample.serve (.webhook .sadad ⟨7, 100, 4945 / 2, .sar, true⟩ true) 12 10 300)
    (.assign Sample.transportAdmin 100 30 40 50 none) 13
    (.arrive (.assign Sample.transportAdmin 100 30 41 51 none) ::
      (List.replicate 4 (Act.step 14) ++ List.replicate 6 (Act.step 13) ++
        List.replicate 2 (Act.step 14)))
    (fun _ s => s.threads[13]?.any Sample.returned && s.threads[14]?.any Sample.unavailable)
    rfl (by decide +kernel)
  obtain ⟨hreturned, hthrown⟩ := Bool.and_eq_true_iff.mp htest
  obtain ⟨t, ht, hpure⟩ := (Option.any_eq_true _ _).mp hreturned
  obtain ⟨t', ht', hfail⟩ := (Option.any_eq_true _ _).mp hthrown
  have hdone : ∃ a, t.prog = .pure a := by
    unfold Sample.returned at hpure
    split at hpure
    · exact ⟨_, ‹_›⟩
    · cases hpure
  have hrefused : t'.prog = .fail (.thrown .driverUnavailable) := by
    unfold Sample.unavailable at hfail
    split at hfail
    · assumption
    · cases hfail
  obtain ⟨a, ha⟩ := hdone
  have hall := assignDriver_all_or_nothing consistent_empty hrun hstart h ht
  exact ⟨s₀, log, s, h, (hall.1 a ha).2, t', ht', hrefused⟩

end CiroFuel
