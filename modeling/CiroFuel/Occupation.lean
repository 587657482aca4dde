import CiroFuel.UserSteps

/-!
# What orders on their way occupy

An order that is assigned and not yet over has a driver, a truck and a tank, and
each of them is booked for it. The unique indexes then keep two such orders from
sharing one. Only the deactivation of a driver ends a booking without ending the
order. The driver cannot be booked again before being activated; so drivers are kept
apart in runs that activate nobody whom an order on its way still names.
-/
namespace CiroFuel
open Snapshot

/-- The statuses in which an order occupies a driver, a truck and a tank. -/
def activeStatuses : List OrderStatus := [.assignedToDriver, .loading, .inTransit, .unloading]

/-- The statuses an order has from its assignment on, or after being cancelled. -/
def assignedStatuses : List OrderStatus := activeStatuses ++ [OrderStatus.delivered, .cancelled]

theorem assigned_stays (a b : OrderStatus) (override : Bool) (ha : a ∈ assignedStatuses)
    (h : permits a b override = true) : b ∈ assignedStatuses := by
  have hall : ∀ a ∈ assignedStatuses, ∀ override, permits a b override = true →
      b ∈ assignedStatuses := by
    cases b <;> decide
  exact hall a ha override h

/-- What a step does to the resource of one kind: the order keeps it, takes one,
takes another, or is over. -/
inductive ResourceStep (c : Call) (o o' : Order) (f : Resource) : Prop where
  | keep (hresource : o'.resource f = o.resource f)
      (hactive : o'.status ∈ activeStatuses ↔ o.status ∈ activeStatuses)
      (hbooks : c.books f = none) (hreleases : c.releases f = none)
  | assign {t : Id} (hbooks : c.books f = some t) (hresource : o'.resource f = some t)
      (hidle : o.status = .routedToTransport) (hactive : o'.status ∈ activeStatuses)
  | swap {t : Id} (hlabel : ∃ order truckId tankId, c = .reassign order truckId tankId)
      (hbooks : c.books f = some t) (hresource : o'.resource f = some t)
      (hstatus : o'.status = o.status)
  | release (hbooks : c.books f = none) (hidle : o'.status ∉ activeStatuses)

theorem OrderStep.resource {cfg : Settings} {time : ℕ → Instant} {c : Call} {o o' : Order}
    (h : OrderStep cfg time c o o') (f : Resource) : ResourceStep c o o' f := by
  cases h with
  | route hstatus hedge =>
      rename_i order source transportCompanyId deliveryFee actor invoiceId n
      obtain ⟨priceBreakdown, finalPrice, heq⟩ := Order.awaiting_eq cfg o order.id source
        transportCompanyId deliveryFee actor invoiceId (time n) (time (n + 1)) (time (n + 2))
        (time (n + 3))
      rw [heq]
      refine .keep (by cases f <;> rfl) ?_ rfl (by cases f <;> rfl)
      rw [hstatus]
      cases source <;> simp [permits, transitions, activeStatuses] at hedge ⊢
  | assign hstatus =>
      rename_i order a driver truck tank client n
      obtain ⟨clientSummary, ineligible, reason, heq⟩ :=
        Order.assigned_eq o a driver truck tank client (time n)
      rw [heq]
      cases f with
      | driver => exact .assign rfl rfl hstatus (by simp [activeStatuses])
      | truck => exact .assign rfl rfl hstatus (by simp [activeStatuses])
      | tank => exact .assign rfl rfl hstatus (by simp [activeStatuses])
  | reassign =>
      cases f with
      | driver => exact .keep rfl Iff.rfl rfl rfl
      | truck => exact .swap ⟨_, _, _, rfl⟩ rfl rfl rfl
      | tank => exact .swap ⟨_, _, _, rfl⟩ rfl rfl rfl
  | timeOut hstatus =>
      cases f with
      | driver => exact .release rfl (by simp [activeStatuses])
      | truck => exact .keep rfl (by simp [hstatus, activeStatuses]) rfl rfl
      | tank => exact .keep rfl (by simp [hstatus, activeStatuses]) rfl rfl
  | cancel => exact .release (by cases f <;> rfl) (by simp [activeStatuses])
  | complete => exact .release (by cases f <;> rfl) (by simp [activeStatuses])
  | forceComplete => exact .release (by cases f <;> rfl) (by simp [activeStatuses])
  | depart hmatched hstage hstatus =>
      refine .keep (by cases f <;> rfl) ?_ (by cases f <;> rfl) (by cases f <;> rfl)
      simp [hstatus, activeStatuses]
  | attempt => exact .keep (by cases f <;> rfl) Iff.rfl (by cases f <;> rfl) (by cases f <;> rfl)
  | confirmInvoice =>
      exact .keep (by cases f <;> rfl) Iff.rfl (by cases f <;> rfl) (by cases f <;> rfl)
  | replaceInvoice =>
      exact .keep (by cases f <;> rfl) Iff.rfl (by cases f <;> rfl) (by cases f <;> rfl)
  | _ hstatus =>
      refine .keep (by cases f <;> rfl) ?_ (by cases f <;> rfl) (by cases f <;> rfl)
      simp [hstatus, activeStatuses]

/-- Only orders that were once assigned have a resource booked. -/
def BookedOnceAssigned (f : Resource) (s : Db) : Prop :=
  ∀ t id, f.booked s.docs t = some id → ∃ o, s.order id = some o ∧ o.status ∈ assignedStatuses

/-- Every order on its way has its resource of this kind booked, and only orders
that were once assigned have one. -/
structure Occupied (f : Resource) (s : Db) : Prop where
  ofOrder : ∀ id o, s.order id = some o → o.status ∈ activeStatuses →
    ∃ t, o.resource f = some t ∧ f.booked s.docs t = some id
  assigned : BookedOnceAssigned f s

theorem occupied_empty (f : Resource) : Occupied f Store.empty where
  ofOrder := fun _ _ h => by cases h
  assigned := fun _ _ h => by cases h

/-- Two orders on their way do not share a resource. -/
theorem Occupied.exclusive {f : Resource} {s : Db} (hs : Occupied f s) {id id' t : Id}
    {o o' : Order} (ho : s.order id = some o) (hactive : o.status ∈ activeStatuses)
    (hresource : o.resource f = some t) (ho' : s.order id' = some o')
    (hactive' : o'.status ∈ activeStatuses) (hresource' : o'.resource f = some t) : id = id' := by
  obtain ⟨u, hu, hbooked⟩ := hs.ofOrder id o ho hactive
  obtain ⟨u', hu', hbooked'⟩ := hs.ofOrder id' o' ho' hactive'
  cases hu.symm.trans hresource
  cases hu'.symm.trans hresource'
  exact Option.some.inj (hbooked.symm.trans hbooked')

/-- Two instants that agree on an active order agree on what is booked for it. -/
theorem Occupied.agrees {f : Resource} {a b : Db} (ha : Occupied f a) (hb : Occupied f b) {id : Id}
    {o : Order} (hoa : a.order id = some o) (hob : b.order id = some o)
    (hactive : o.status ∈ activeStatuses) {t : Id} (h : f.booked a.docs t = some id) :
    f.booked b.docs t = some id := by
  obtain ⟨u, hu, hbooked⟩ := ha.ofOrder id o hoa hactive
  obtain ⟨u', hu', hbooked'⟩ := hb.ofOrder id o hob hactive
  cases hu.symm.trans hu'
  rw [Resource.booked_unique a.unique h hbooked]
  exact hbooked'

section commit
variable {cfg : Settings} {since : Db} {ev : Event Doc Call.Reply} {f : Resource}

/-- What one commit can have made of a booking. -/
theorem booked_cases (hev : ev.Sound (machine cfg)) (holder : Store.Older ev.base ev.before)
    (f : Resource) (t : Id) :
    (f.booked ev.base.docs t = f.booked ev.before.docs t ∧
      f.booked ev.after.docs t = ev.label.rebooked f t (f.booked ev.before.docs t)) ∨
    (ev.label.rebooked f t (f.booked ev.base.docs t) = f.booked ev.base.docs t ∧
      f.booked ev.after.docs t = f.booked ev.before.docs t) := by
  have hview := (Call.body_booked hev.ran f t).1
  rcases hev.cases holder (f.key t) with ⟨hb, ha⟩ | ⟨hv, ha, -⟩
  · have hbase : f.booked ev.base.docs t = f.booked ev.before.docs t := Resource.booked_congr hb
    refine Or.inl ⟨hbase, (Resource.booked_congr ha).trans ?_⟩
    rw [← hbase]
    exact hview
  · exact Or.inr ⟨hview.symm.trans (Resource.booked_congr hv), Resource.booked_congr ha⟩

/-- A commit books for its own order only. -/
theorem booked_old (hev : ev.Sound (machine cfg)) (holder : Store.Older ev.base ev.before)
    {id t : Id} (hbooked : f.booked ev.after.docs t = some id) :
    f.booked ev.before.docs t = some id ∨
      (ev.label.books f = some t ∧ ev.label.subject = some id) := by
  rcases booked_cases hev holder f t with ⟨-, ha⟩ | ⟨-, ha⟩
  · rw [ha] at hbooked
    unfold Call.rebooked freed at hbooked
    split_ifs at hbooked with hbooks hclears hreleases
    · exact Or.inr ⟨hbooks, hbooked⟩
    · exact Or.inl hbooked
  · exact Or.inl (ha.symm.trans hbooked)

/-- A booking for an order the call does not act on lasts, unless it is cleared. -/
theorem booked_lasts (hev : ev.Sound (machine cfg)) (holder : Store.Older ev.base ev.before)
    {id t : Id} (hid : ev.label.subject ≠ some id) (hclears : ev.label.clears f ≠ some t)
    (hbooked : f.booked ev.before.docs t = some id) : f.booked ev.after.docs t = some id := by
  rcases booked_cases hev holder f t with ⟨hb, ha⟩ | ⟨-, ha⟩
  · rw [ha, Call.rebooked, if_neg hclears]
    split_ifs with hbooks
    · -- The vehicle was free in the snapshot, hence when the call committed.
      rcases (Call.body_booked hev.ran f t).2 hbooks with hfree | ⟨-, hown⟩
      · exact absurd (hbooked.symm.trans (hb.symm.trans hfree)) (by simp)
      · exact absurd (hown.symm.trans (hb.trans hbooked)) hid
    · rw [freed, if_neg fun hreleases => hid (hreleases.2.symm.trans hbooked)]
      exact hbooked
  · exact ha.trans hbooked

/-- What a call books for an order not assigned before is booked for it afterwards. -/
theorem booked_first (hev : ev.Sound (machine cfg)) (holder : Store.Older ev.base ev.before)
    (hbase : BookedOnceAssigned f ev.base) {id t : Id} {o : Order}
    (hid : ev.label.subject = some id) (hob : ev.base.order id = some o)
    (hbooks : ev.label.books f = some t) (hidle : o.status ∉ assignedStatuses) :
    f.booked ev.after.docs t = some id := by
  rcases booked_cases hev holder f t with ⟨-, ha⟩ | ⟨hb, -⟩
  · rw [ha, Call.rebooked, if_pos hbooks, hid]
  · rw [Call.rebooked, if_pos hbooks, hid] at hb
    obtain ⟨o', ho', hassigned⟩ := hbase t id hb.symm
    cases ho'.symm.trans hob
    exact absurd hassigned hidle

/-- What a call books for its order on its way is booked for it afterwards. -/
theorem booked_again (hev : ev.Sound (machine cfg)) (holder : Store.Older ev.base ev.before)
    (hbase : Occupied f ev.base) (hbefore : Occupied f ev.before) {id t : Id} {o : Order}
    (hid : ev.label.subject = some id) (hob : ev.base.order id = some o)
    (ho : ev.before.order id = some o) (hbooks : ev.label.books f = some t)
    (hactive : o.status ∈ activeStatuses) : f.booked ev.after.docs t = some id := by
  rcases booked_cases hev holder f t with ⟨-, ha⟩ | ⟨hb, ha⟩
  · rw [ha, Call.rebooked, if_pos hbooks, hid]
  · -- The vehicle was released and booked again, so it was the order's before.
    rw [Call.rebooked, if_pos hbooks, hid] at hb
    exact ha.trans (hbase.agrees hbefore hob ho hactive hb.symm)

/-- What is booked is booked for an order that has been assigned. -/
theorem commit_assigned (hev : ev.Sound (machine cfg)) (holder : Store.Older ev.base ev.before)
    (hpre : (evolution cfg since).pre ev.label ev.base ev.began)
    (hbefore : BookedOnceAssigned f ev.before) : BookedOnceAssigned f ev.after := by
  intro t id hbooked
  have swapped : ∀ {id o}, ev.label.subject = some id → ev.base.order id = some o →
      (∃ order truckId tankId, ev.label = .reassign order truckId tankId) →
      o.status ∈ assignedStatuses := by
    rintro id o hid hob ⟨order, truckId, tankId, hlabel⟩
    rw [hlabel] at hid hpre
    cases hid
    obtain ⟨hread, hstatus⟩ := hpre
    obtain ⟨o₁, ho₁, hevolves⟩ := (hread order rfl).earlier
    cases ho₁.symm.trans hob
    exact hevolves.closed assigned_stays (by simp [show order.status = _ from hstatus,
      assignedStatuses, activeStatuses])
  rcases booked_old hev holder hbooked with hold | ⟨hbooks, hid⟩
  · obtain ⟨o, ho, hassigned⟩ := hbefore t id hold
    rcases order_cases hev holder hpre id with ⟨-, heq⟩ |
      ⟨o₁, o', hid, -, ho₁, ho', -, hstep⟩ | ⟨fields, userId, -, hnone, -⟩
    · exact ⟨o, heq.trans ho, hassigned⟩
    · cases ho₁.symm.trans ho
      obtain ⟨es, -, htrail⟩ := hstep.trail
      exact ⟨o', ho', htrail.closed assigned_stays hassigned⟩
    · exact absurd (hnone.symm.trans ho) (by simp)
  · obtain ⟨o, o', hob, ho, ho', -, hstep⟩ := subject_step hev holder hpre hid
    refine ⟨o', ho', ?_⟩
    cases hstep.resource f with
    | keep hresource hactive hbooks' => exact absurd (hbooks'.symm.trans hbooks) (by simp)
    | assign hbooks' hresource hidle hactive => exact List.mem_append_left _ hactive
    | swap hlabel hbooks' hresource hstatus =>
        rw [hstatus]
        exact swapped hid hob hlabel
    | release hbooks' => exact absurd (hbooks'.symm.trans hbooks) (by simp)

/-- Every commit keeps orders on their way in possession, if it does not clear a
booking of one of them. -/
theorem commit_occupied (hev : ev.Sound (machine cfg)) (holder : Store.Older ev.base ev.before)
    (hpre : (evolution cfg since).pre ev.label ev.base ev.began)
    (hclears : ∀ t id o, ev.label.clears f = some t → f.booked ev.before.docs t = some id →
      ev.before.order id = some o → o.status ∉ activeStatuses)
    (hbase : Occupied f ev.base) (hbefore : Occupied f ev.before) : Occupied f ev.after := by
  refine ⟨fun id o' ho' hactive' => ?_, commit_assigned hev holder hpre hbefore.assigned⟩
  rcases order_cases hev holder hpre id with ⟨hid, heq⟩ |
    ⟨o, o₁, hid, hob, ho, ho₁, -, hstep⟩ | ⟨fields, userId, -, -, hafter⟩
  · have ho := heq.symm.trans ho'
    obtain ⟨t, ht, hbooked⟩ := hbefore.ofOrder id o' ho hactive'
    exact ⟨t, ht, booked_lasts hev holder hid
      (fun hclear => hclears t id o' hclear hbooked ho hactive') hbooked⟩
  · cases ho₁.symm.trans ho'
    cases hstep.resource f with
    | keep hresource hactive hbooks hreleases =>
        obtain ⟨t, ht, hbooked⟩ := hbefore.ofOrder id o ho (hactive.mp hactive')
        refine ⟨t, hresource.trans ht, ?_⟩
        rcases booked_cases hev holder f t with ⟨-, ha⟩ | ⟨-, ha⟩
        · rw [ha, Call.rebooked, hbooks, hreleases, if_neg (by simp)]
          rw [if_neg fun hclear => hclears t id o hclear hbooked ho (hactive.mp hactive')]
          simpa [freed] using hbooked
        · exact ha.trans hbooked
    | assign hbooks hresource hidle hactive =>
        refine ⟨_, hresource, booked_first hev holder hbase.assigned hid hob hbooks ?_⟩
        simp [hidle, assignedStatuses, activeStatuses]
    | swap hlabel hbooks hresource hstatus =>
        refine ⟨_, hresource, booked_again hev holder hbase hbefore hid hob ho hbooks ?_⟩
        rw [← hstatus]
        exact hactive'
    | release hbooks hidle => exact absurd hactive' hidle
  · cases hafter.symm.trans ho'
    simp [OrderFields.order, activeStatuses] at hactive'

end commit

/-! ### Exclusive vehicles -/

theorem Call.clears_vehicle (c : Call) {f : Resource} (hf : f ≠ .driver) : c.clears f = none := by
  unfold Call.clears
  split
  · exact absurd rfl hf
  · rfl

/-- In every state reached, orders on their way have their vehicles booked. -/
theorem vehicles_occupied {cfg : Settings} {P : Event Doc Call.Reply → Prop}
    {log : List (Event Doc Call.Reply)} {s : Sys Doc Call.Reply Refusal Answer}
    (h : Run (machine cfg) Store.empty P log s) {f : Resource} (hf : f ≠ .driver) :
    Occupied f s.store ∧ Run (machine cfg) Store.empty (fun ev => P ev ∧
      (evolution cfg Store.empty).Holds ev ∧ Occupied f ev.base ∧ Occupied f ev.before) log s := by
  refine db_invariant consistent_empty (occupied_empty f) (fun ev hev _ hholds hbase hbefore => ?_) h
  refine commit_occupied hev hholds.older hholds.pre (fun t id o hclear => ?_) hbase hbefore
  exact absurd (hclear.symm.trans (Call.clears_vehicle _ hf)) (by simp)

/-- Two orders on their way name different trucks and different tanks. -/
theorem vehicles_exclusive {cfg : Settings} {log : List (Event Doc Call.Reply)}
    {s : Sys Doc Call.Reply Refusal Answer}
    (h : Run (machine cfg) Store.empty (fun _ => True) log s) {id id' : Id} {o o' : Order}
    (ho : s.store.order id = some o) (ho' : s.store.order id' = some o') (hne : id ≠ id')
    (hactive : o.status ∈ activeStatuses) (hactive' : o'.status ∈ activeStatuses) :
    (∀ t, o.truckId = some t → o'.truckId ≠ some t) ∧
    (∀ t, o.tankId = some t → o'.tankId ≠ some t) := by
  refine ⟨fun t ht ht' => hne ?_, fun t ht ht' => hne ?_⟩
  · exact (vehicles_occupied h (f := .truck) (by simp)).1.exclusive ho hactive ht ho' hactive' ht'
  · exact (vehicles_occupied h (f := .tank) (by simp)).1.exclusive ho hactive ht ho' hactive' ht'

namespace Sample

/-- A second order is created, approved, routed and paid; threads `n` to `n + 2`. -/
def paidAgain (n : ℕ) : List (Act Request) :=
  serve (.create client (order .direct)) n 6 400 ++
    serve (.approve fuelAdmin 400 none none) (n + 1) 17 500 ++
    serve (.webhook .sadad ⟨8, 400, 4945 / 2, .sar, true⟩ true) (n + 2) 10 600

/-- Two orders on their way with different drivers and vehicles. -/
def twoDeliveries : List (Act Request) :=
  paidDelivery ++ serve (.administer (.addUser 31 .driver (some 11) "Second" "3" none)) 14 2 ++
    serve (.administer (.setOnline 31 true none)) 15 2 ++ paidAgain 16 ++
    serve (.assign transportAdmin 400 31 41 51 none) 19 6

/-- The driver of the first order is deactivated, activated and assigned again. -/
def reactivatedDriver : List (Act Request) :=
  paidDelivery ++ serve (.administer (.deactivateUser 30)) 14 2 ++
    serve (.administer (.activateUser 30)) 15 2 ++ paidAgain 16 ++
    serve (.assign transportAdmin 400 30 41 51 none) 19 6

/-- The two orders of the schedules above are on their way. -/
def bothActive (s : Db) : Bool :=
  (s.order 100).any (·.status ∈ activeStatuses) && (s.order 400).any (·.status ∈ activeStatuses)

theorem bothActive_orders {s : Db} (h : bothActive s = true) :
    ∃ o o', s.order 100 = some o ∧ s.order 400 = some o' ∧ o.status ∈ activeStatuses ∧
      o'.status ∈ activeStatuses := by
  obtain ⟨h₁, h₂⟩ := Bool.and_eq_true_iff.mp h
  obtain ⟨o, ho, hactive⟩ := (Option.any_eq_true _ _).mp h₁
  obtain ⟨o', ho', hactive'⟩ := (Option.any_eq_true _ _).mp h₂
  exact ⟨o, o', ho, ho', of_decide_eq_true hactive, of_decide_eq_true hactive'⟩

end Sample

theorem vehicles_exclusive_twoDeliveries :
    ∃ log s o o', Run (machine Sample.cfg) Store.empty (fun _ => True) log s ∧
      s.store.order 100 = some o ∧ s.store.order 400 = some o' ∧
      (∀ t, o.truckId = some t → o'.truckId ≠ some t) ∧
      (∀ t, o.tankId = some t → o'.tankId ≠ some t) := by
  obtain ⟨log, s, hrun, htest⟩ := exists_run (machine Sample.cfg) Store.empty (fun _ => True)
    Sample.twoDeliveries (fun _ s => Sample.bothActive s.store) (by decide +kernel)
  obtain ⟨o, o', ho, ho', hactive, hactive'⟩ := Sample.bothActive_orders htest
  exact ⟨log, s, o, o', hrun, ho, ho',
    vehicles_exclusive hrun ho ho' (by decide) hactive hactive'⟩

/-! ### Drivers -/

def pickOrder : (k : Key) → Doc k → Option (Id × Order)
  | .order id, (o : Order) => some (id, o)
  | _, _ => none

/-- The call activates nobody whom an order on its way still names. -/
def Call.activatesIdle (c : Call) (s : Db) : Bool :=
  match c with
  | .administer (.activateUser id) => (s.user id).all fun u => u.isActive ||
      (Docs.collect pickOrder s.docs).all fun o =>
        !(o.2.driverId = some id && o.2.status ∈ activeStatuses)
  | _ => true

theorem Call.activatesIdle_spec {s : Db} {d id : Id} {u : User} {o : Order}
    (h : (Call.administer (.activateUser d)).activatesIdle s = true) (hu : s.user d = some u)
    (hinactive : u.isActive = false) (ho : s.order id = some o)
    (hactive : o.status ∈ activeStatuses) : o.driverId ≠ some d := by
  intro hd
  simp only [activatesIdle, hu, Option.all_some, hinactive, Bool.false_or, List.all_eq_true] at h
  have hmem : (id, o) ∈ Docs.collect pickOrder s.docs :=
    List.mem_filterMap.mpr ⟨⟨Key.order id, o⟩, AList.mem_lookup_iff.mp ho, rfl⟩
  simpa [hd, hactive] using h _ hmem

/-- The driver is booked for the order, or has been deactivated. -/
def DriverHeld (s : Db) (id d : Id) : Prop :=
  Resource.driver.booked s.docs d = some id ∨ ∃ u, s.user d = some u ∧ u.isActive = false

/-- Orders on their way have drivers, each a driver of its own. -/
structure DriversHeld (s : Db) : Prop where
  held : ∀ id o, s.order id = some o → o.status ∈ activeStatuses →
    ∃ d, o.driverId = some d ∧ DriverHeld s id d
  exclusive : ∀ id id' o o' d, s.order id = some o → s.order id' = some o' →
    o.status ∈ activeStatuses → o'.status ∈ activeStatuses → o.driverId = some d →
    o'.driverId = some d → id = id'
  assigned : BookedOnceAssigned .driver s

theorem driversHeld_empty : DriversHeld Store.empty where
  held := fun _ _ h => by cases h
  exclusive := fun _ _ _ _ _ h => by cases h
  assigned := fun _ _ h => by cases h

section commit
variable {cfg : Settings} {since : Db} {ev : Event Doc Call.Reply} {id d : Id}

/-- A commit that ends the booking of a driver by deactivating them leaves them inactive. -/
theorem cleared_inactive (hev : ev.Sound (machine cfg)) (holder : Store.Older ev.base ev.before)
    (hclears : ev.label.clears .driver = some d)
    (hb : Resource.driver.booked ev.base.docs d = some id) :
    ∃ u, ev.after.user d = some u ∧ u.isActive = false := by
  have hlabel : ev.label = .administer (.deactivateUser d) := by
    generalize ev.label = c at hclears
    unfold Call.clears at hclears
    split at hclears
    · cases hclears
      rfl
    · cases hclears
  obtain ⟨r, hran⟩ := ran_as hev hlabel
  obtain ⟨u, hu, -⟩ := Option.bind_eq_some_iff.mp hb
  obtain ⟨u', hu', hinactive⟩ := deactivateUser_inactive hran hu
  rcases hev.cases holder (Key.user d) with ⟨-, hafter⟩ | ⟨hview, hafter, -⟩
  · exact ⟨u', hafter.trans hu', hinactive⟩
  · -- The deactivation freed the driver, so it wrote the document.
    have hbooked := (Call.body_booked hev.ran .driver d).1
    rw [Call.rebooked, if_pos hclears] at hbooked
    have hkept : Resource.driver.booked ev.view.docs d = Resource.driver.booked ev.base.docs d :=
      Resource.booked_congr hview
    rw [hb] at hkept
    split_ifs at hbooked with hbooks
    · rw [hlabel] at hbooks
      cases hbooks
    · exact absurd (hkept.symm.trans hbooked) (by simp)

/-- A driver stays held for an order, unless the call frees them or is their activation. -/
theorem driverHeld_kept (hev : ev.Sound (machine cfg)) (holder : Store.Older ev.base ev.before)
    (hkeeps : ev.label.subject = some id →
      ev.label.books .driver = none ∧ ev.label.releases .driver = none)
    (hactivates : ∀ u, ev.before.user d = some u → u.isActive = false →
      ev.label ≠ .administer (.activateUser d))
    (h : DriverHeld ev.before id d) : DriverHeld ev.after id d := by
  rcases h with hbooked | ⟨u, hu, hinactive⟩
  · rcases booked_cases hev holder .driver d with ⟨hb, ha⟩ | ⟨-, ha⟩
    · by_cases hclears : ev.label.clears .driver = some d
      · exact Or.inr (cleared_inactive hev holder hclears (hb.trans hbooked))
      · by_cases hid : ev.label.subject = some id
        · obtain ⟨hbooks, hreleases⟩ := hkeeps hid
          rw [DriverHeld, ha, Call.rebooked, hbooks, hreleases, if_neg (by simp), if_neg hclears]
          exact Or.inl (by simpa [freed] using hbooked)
        · exact Or.inl (booked_lasts hev holder hid hclears hbooked)
    · exact Or.inl (ha.trans hbooked)
  · obtain ⟨u', hu', hsteps⟩ := commit_users hev holder d u hu
    exact Or.inr ⟨u', hu', inactive_of_steps (hactivates u hu hinactive) hsteps hinactive⟩

/-- An order on its way was so before, with the same driver, or has just been assigned. -/
theorem active_cases (hev : ev.Sound (machine cfg)) (holder : Store.Older ev.base ev.before)
    (hpre : (evolution cfg since).pre ev.label ev.base ev.began) {o' : Order}
    (ho' : ev.after.order id = some o') (hactive' : o'.status ∈ activeStatuses) :
    (∃ o, ev.before.order id = some o ∧ o.status ∈ activeStatuses ∧ o'.driverId = o.driverId ∧
      (ev.label.subject = some id →
        ev.label.books .driver = none ∧ ev.label.releases .driver = none)) ∨
    ∃ o d, ev.base.order id = some o ∧ o.status = .routedToTransport ∧
      ev.label.subject = some id ∧ ev.label.books .driver = some d ∧ o'.driverId = some d := by
  rcases order_cases hev holder hpre id with ⟨hid, heq⟩ |
    ⟨o, o₁, hid, hob, ho, ho₁, -, hstep⟩ | ⟨fields, userId, -, -, hafter⟩
  · exact Or.inl ⟨o', heq.symm.trans ho', hactive', rfl, fun hsubject => absurd hsubject hid⟩
  · cases ho₁.symm.trans ho'
    cases hstep.resource .driver with
    | keep hresource hactive hbooks hreleases =>
        exact Or.inl ⟨o, ho, hactive.mp hactive', hresource, fun _ => ⟨hbooks, hreleases⟩⟩
    | assign hbooks hresource hidle => exact Or.inr ⟨o, _, hob, hidle, hid, hbooks, hresource⟩
    | swap hlabel hbooks =>
        obtain ⟨order, truckId, tankId, hlabel⟩ := hlabel
        rw [hlabel] at hbooks
        cases hbooks
    | release hbooks hidle => exact absurd hactive' hidle
  · cases hafter.symm.trans ho'
    simp [OrderFields.order, activeStatuses] at hactive'

/-- The driver that a call books was active and free when it committed. -/
theorem booked_free (hev : ev.Sound (machine cfg)) (holder : Store.Older ev.base ev.before)
    (hbooks : ev.label.books .driver = some d) :
    ∃ u, ev.before.user d = some u ∧ u.isActive = true ∧ u.activeOrderId = none := by
  have hlabel : ∃ order a, ev.label = .assign order a ∧ a.driverId = d := by
    generalize ev.label = c at hbooks
    cases c with
    | assign order a =>
        cases hbooks
        exact ⟨order, a, rfl, rfl⟩
    | _ => cases hbooks
  obtain ⟨order, a, hlabel, rfl⟩ := hlabel
  obtain ⟨r, hran⟩ := ran_as hev hlabel
  obtain ⟨u, hu, hactive, hfree, hw⟩ := assignDriver_driver hran
  obtain ⟨hb, -⟩ := hev.written holder (k := Key.user a.driverId) fun heq => by
    have hsame := Option.some.inj (hw.symm.trans (heq.trans hu))
    have horder := congrArg User.activeOrderId hsame
    rw [hfree] at horder
    cases horder
  exact ⟨u, hb.symm.trans hu, hactive, hfree⟩

/-- No order on its way names a driver whom a call books. -/
theorem booked_unnamed (hev : ev.Sound (machine cfg)) (holder : Store.Older ev.base ev.before)
    (hbefore : DriversHeld ev.before) (hbooks : ev.label.books .driver = some d) {o : Order}
    (ho : ev.before.order id = some o) (hactive : o.status ∈ activeStatuses) :
    o.driverId ≠ some d := by
  intro hd
  obtain ⟨u, hu, huactive, hfree⟩ := booked_free hev holder hbooks
  obtain ⟨d', hd', hheld⟩ := hbefore.held id o ho hactive
  cases hd.symm.trans hd'
  rcases hheld with hbooked | ⟨u', hu', hinactive⟩
  · obtain ⟨u', hu', horder⟩ := Option.bind_eq_some_iff.mp hbooked
    cases hu.symm.trans hu'
    exact absurd (hfree.symm.trans horder) (by simp)
  · cases hu.symm.trans hu'
    exact absurd (huactive.symm.trans hinactive) (by simp)

theorem commit_driversHeld (hev : ev.Sound (machine cfg)) (holder : Store.Older ev.base ev.before)
    (hpre : (evolution cfg since).pre ev.label ev.base ev.began)
    (hidle : ev.label.activatesIdle ev.before = true) (hbase : DriversHeld ev.base)
    (hbefore : DriversHeld ev.before) : DriversHeld ev.after := by
  refine ⟨fun id o' ho' hactive' => ?_, fun id id' o₁ o₂ d ho₁ ho₂ hactive₁ hactive₂ hd₁ hd₂ => ?_,
    commit_assigned hev holder hpre hbefore.assigned⟩
  · rcases active_cases hev holder hpre ho' hactive' with ⟨o, ho, hactive, hdriver, hkeeps⟩ |
      ⟨o, d, hob, hrouted, hid, hbooks, hd⟩
    · obtain ⟨d, hd, hheld⟩ := hbefore.held id o ho hactive
      refine ⟨d, hdriver.trans hd, driverHeld_kept hev holder hkeeps ?_ hheld⟩
      intro u hu hinactive hlabel
      rw [hlabel] at hidle
      exact Call.activatesIdle_spec hidle hu hinactive ho hactive hd
    · refine ⟨d, hd, Or.inl (booked_first hev holder hbase.assigned hid hob hbooks ?_)⟩
      simp [hrouted, assignedStatuses, activeStatuses]
  · rcases active_cases hev holder hpre ho₁ hactive₁ with ⟨x₁, hx₁, hon₁, hsame₁, -⟩ |
        ⟨-, d₁, -, -, hid₁, hbooks₁, hnew₁⟩ <;>
      rcases active_cases hev holder hpre ho₂ hactive₂ with ⟨x₂, hx₂, hon₂, hsame₂, -⟩ |
        ⟨-, d₂, -, -, hid₂, hbooks₂, hnew₂⟩
    · exact hbefore.exclusive id id' x₁ x₂ d hx₁ hx₂ hon₁ hon₂ (hsame₁.symm.trans hd₁)
        (hsame₂.symm.trans hd₂)
    · cases hnew₂.symm.trans hd₂
      exact absurd (hsame₁.symm.trans hd₁) (booked_unnamed hev holder hbefore hbooks₂ hx₁ hon₁)
    · cases hnew₁.symm.trans hd₁
      exact absurd (hsame₂.symm.trans hd₂) (booked_unnamed hev holder hbefore hbooks₁ hx₂ hon₂)
    · exact Option.some.inj (hid₁.symm.trans hid₂)

end commit

/-- Two orders on their way name different drivers, in every run that activates nobody
whom an order on its way still names. -/
theorem drivers_exclusive {cfg : Settings} {log : List (Event Doc Call.Reply)}
    {s : Sys Doc Call.Reply Refusal Answer}
    (h : Run (machine cfg) Store.empty (fun ev => ev.label.activatesIdle ev.before = true) log s)
    {id id' : Id} {o o' : Order} (ho : s.store.order id = some o)
    (ho' : s.store.order id' = some o') (hne : id ≠ id') (hactive : o.status ∈ activeStatuses)
    (hactive' : o'.status ∈ activeStatuses) {d : Id} (hd : o.driverId = some d) :
    o'.driverId ≠ some d := by
  have hs : DriversHeld s.store := by
    refine (db_invariant consistent_empty driversHeld_empty
      (fun ev hev hidle hholds hbase hbefore => ?_) h).1
    exact commit_driversHeld hev hholds.older hholds.pre hidle hbase hbefore
  exact fun hd' => hne (hs.exclusive id id' o o' d ho ho' hactive hactive' hd hd')

theorem drivers_exclusive_twoDeliveries :
    ∃ log s o o' d, Run (machine Sample.cfg) Store.empty
        (fun ev => ev.label.activatesIdle ev.before = true) log s ∧
      s.store.order 100 = some o ∧ s.store.order 400 = some o' ∧ o.driverId = some d ∧
      o'.driverId ≠ some d := by
  obtain ⟨log, s, hrun, htest⟩ := exists_run (machine Sample.cfg) Store.empty
    (fun ev => ev.label.activatesIdle ev.before = true) Sample.twoDeliveries
    (fun _ s => Sample.bothActive s.store && (s.store.order 100).any fun o => o.driverId = some 30)
    (by decide +kernel)
  obtain ⟨hboth, hdriver⟩ := Bool.and_eq_true_iff.mp htest
  obtain ⟨o, o', ho, ho', hactive, hactive'⟩ := Sample.bothActive_orders hboth
  have hd : o.driverId = some 30 := by simpa [ho] using hdriver
  exact ⟨log, s, o, o', 30, hrun, ho, ho', hd,
    drivers_exclusive hrun ho ho' (by decide) hactive hactive' hd⟩

theorem drivers_exclusive_reactivatedDriver :
    ¬ ∀ (log : List (Event Doc Call.Reply)) (s : Sys Doc Call.Reply Refusal Answer),
      Run (machine Sample.cfg) Store.empty (fun _ => True) log s →
      ∀ id id' o o' d, s.store.order id = some o → s.store.order id' = some o' → id ≠ id' →
        o.status ∈ activeStatuses → o'.status ∈ activeStatuses → o.driverId = some d →
        o'.driverId ≠ some d := by
  intro hclaim
  obtain ⟨log, s, hrun, htest⟩ := exists_run (machine Sample.cfg) Store.empty (fun _ => True)
    Sample.reactivatedDriver (fun _ s => Sample.bothActive s.store &&
      ((s.store.order 100).any fun o => o.driverId = some 30) &&
      (s.store.order 400).any fun o => o.driverId = some 30) (by decide +kernel)
  simp only [Bool.and_eq_true] at htest
  obtain ⟨⟨hboth, hdriver⟩, hdriver'⟩ := htest
  obtain ⟨o, o', ho, ho', hactive, hactive'⟩ := Sample.bothActive_orders hboth
  have hd : o.driverId = some 30 := by simpa [ho] using hdriver
  have hd' : o'.driverId = some 30 := by simpa [ho'] using hdriver'
  exact hclaim log s hrun 100 400 o o' 30 ho ho' (by decide) hactive hactive' hd hd'

end CiroFuel
