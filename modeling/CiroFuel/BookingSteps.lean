import CiroFuel.Reachable

/-!
# What a call does to bookings

Drivers, trucks and tanks are booked and released in the same way. A call books
at most one resource of each kind, for the order it acts on, and only if it is
free or has just been released; it releases at most the one its document names,
and only if that is still booked for the order. Deactivating a driver releases
the driver from whatever order it is.
-/
namespace CiroFuel
open Snapshot Tx

/-- What an order occupies one of. -/
inductive Resource where
  | driver | truck | tank
deriving DecidableEq

namespace Resource

def key : Resource → Id → Key
  | driver, t => .user t
  | truck, t => .truck t
  | tank, t => .tank t

/-- The order named by a resource's document. -/
def holder : (f : Resource) → (t : Id) → Doc (f.key t) → Option Id
  | driver, _, (x : User) => x.activeOrderId
  | truck, _, (x : Truck) => x.activeOrderId
  | tank, _, (x : Tank) => x.activeOrderId

/-- The order a resource is booked for. -/
def booked (f : Resource) (d : Docs Doc) (t : Id) : Option Id :=
  (d.lookup (f.key t)).bind (f.holder t)

theorem key_injective {f : Resource} {t t' : Id} (h : f.key t = f.key t') : t = t' := by
  cases f with
  | driver => exact Key.user.inj h
  | truck => exact Key.truck.inj h
  | tank => exact Key.tank.inj h

theorem key_kind {f e : Resource} {t t' : Id} (h : f.key t = e.key t') : f = e := by
  cases f <;> cases e <;> first | rfl | cases h

theorem booked_congr {f : Resource} {d d' : Docs Doc} {t : Id}
    (h : d'.lookup (f.key t) = d.lookup (f.key t)) : f.booked d' t = f.booked d t :=
  congrArg (fun x : Option (Doc (f.key t)) => x.bind (f.holder t)) h

def entry : Resource → Id → IndexEntry
  | driver, id => .userActiveOrderId id
  | truck, id => .truckActiveOrderId id
  | tank, id => .tankActiveOrderId id

theorem entry_mem {f : Resource} {t id : Id} {x : Doc (f.key t)} (h : f.holder t x = some id) :
    f.entry id ∈ Indexed.entries (f.key t) x := by
  cases f with
  | driver =>
      change _ ∈ (Option.map _ (User.activeOrderId x)).toList
      rw [show User.activeOrderId x = some id from h]
      exact List.mem_singleton.mpr rfl
  | truck =>
      change _ ∈ (Option.map _ (Truck.activeOrderId x)).toList
      rw [show Truck.activeOrderId x = some id from h]
      exact List.mem_singleton.mpr rfl
  | tank =>
      change _ ∈ (Option.map _ (Tank.activeOrderId x)).toList
      rw [show Tank.activeOrderId x = some id from h]
      exact List.mem_singleton.mpr rfl

/-- The indexes on `activeOrderId`: an order occupies one resource of each kind. -/
theorem booked_unique {f : Resource} {d : Docs Doc} (hd : d.Unique) {t t' id : Id}
    (h : f.booked d t = some id) (h' : f.booked d t' = some id) : t = t' := by
  obtain ⟨x, hx, hid⟩ := Option.bind_eq_some_iff.mp h
  obtain ⟨x', hx', hid'⟩ := Option.bind_eq_some_iff.mp h'
  exact key_injective (hd _ _ x x' (f.entry id) hx hx' (entry_mem hid) (entry_mem hid'))

end Resource

/-- The resource of a kind that an order names. -/
def Order.resource (o : Order) : Resource → Option Id
  | .driver => o.driverId
  | .truck => o.truckId
  | .tank => o.tankId

/-- What releasing a resource for an order makes of a booking. -/
def freed (resourceId orderId : Option Id) (t : Id) (b : Option Id) : Option Id :=
  if resourceId = some t ∧ b = orderId then none else b

namespace Call

/-- The resource a call books for its order. -/
def books (c : Call) (f : Resource) : Option Id :=
  match c, f with
  | .assign _ a, .driver => some a.driverId
  | .assign _ a, .truck => some a.truckId
  | .assign _ a, .tank => some a.tankId
  | .reassign _ truckId _, .truck => some truckId
  | .reassign _ _ tankId, .tank => some tankId
  | _, _ => none

/-- The resource a call releases if it is booked for its order. -/
def releases (c : Call) (f : Resource) : Option Id :=
  match c, f with
  | .timeOut _ order, .driver => order.driverId
  | .reassign .., .driver => none
  | .reassign order .., f | .cancel order .., f | .complete order .., f
  | .forceComplete order .., f => order.resource f
  | _, _ => none

/-- The resource a call releases from whatever order it is booked for. -/
def clears (c : Call) (f : Resource) : Option Id :=
  match c, f with
  | .administer (.deactivateUser id), .driver => some id
  | _, _ => none

/-- What a call makes of a resource's booking. -/
def rebooked (c : Call) (f : Resource) (t : Id) (b : Option Id) : Option Id :=
  if c.books f = some t then c.subject
  else if c.clears f = some t then none else freed (c.releases f) c.subject t b

end Call

variable {env : Env} {v w : View Doc}

theorem Resource.update_frame {f : Resource} {t t' : Id} (hne : t' ≠ t)
    {p : Doc (f.key t) → Bool} {g : Doc (f.key t) → Doc (f.key t)} {r : Option (Doc (f.key t))}
    (h : (Tx.findOneAndUpdate (f.key t) p g : Action _).run env v = .ok (r, w)) :
    f.booked w.docs t' = f.booked v.docs t' :=
  booked_congr ((Confined.findOneAndUpdate (S := fun k => k = f.key t) rfl).find_eq h
    fun hkey => hne (key_injective hkey))

/-- The conditional update behind a release. -/
theorem Resource.release_ok {f : Resource} {t orderId : Id} {g : Doc (f.key t) → Doc (f.key t)}
    (hg : ∀ x, f.holder t (g x) = none) {r : Option (Doc (f.key t))}
    (h : (Tx.findOneAndUpdate (f.key t) (fun x => f.holder t x = some orderId) g :
      Action _).run env v = .ok (r, w)) (t' : Id) :
    f.booked w.docs t' = freed (some t) (some orderId) t' (f.booked v.docs t') := by
  by_cases ht : t' = t
  · subst ht
    rcases findOneAndUpdate_ok h with ⟨x, hx, hholder, -, -, rfl⟩ | ⟨-, rfl, hnone⟩
    · have hv : f.booked v.docs t' = some orderId := by
        rw [booked, show v.docs.lookup (f.key t') = some x from hx]
        exact of_decide_eq_true hholder
      have hw : f.booked (v.put (f.key t') (g x)).docs t' = none := by
        rw [booked, show (v.put (f.key t') (g x)).docs.lookup (f.key t') = some (g x) from
          View.find_put_self _ _ _]
        exact hg x
      rw [hv, hw]
      simp [freed]
    · have hother : f.booked w.docs t' ≠ some orderId := by
        intro hbooked
        obtain ⟨x, hx, hholder⟩ := Option.bind_eq_some_iff.mp hbooked
        exact absurd hholder (of_decide_eq_false (hnone x hx))
      simp [freed, hother]
  · rw [update_frame ht h]
    simp [freed, Ne.symm ht]

/-- The conditional update behind a booking. -/
theorem Resource.book_ok {f : Resource} {t orderId : Id} {p : Doc (f.key t) → Bool}
    {g : Doc (f.key t) → Doc (f.key t)} (hp : ∀ x, p x = true → f.holder t x = none)
    (hg : ∀ x, f.holder t (g x) = some orderId) {x : Doc (f.key t)}
    (h : (Tx.findOneAndUpdate (f.key t) p g : Action _).run env v = .ok (some x, w)) :
    f.booked v.docs t = none ∧
      ∀ t', f.booked w.docs t' = if t = t' then some orderId else f.booked v.docs t' := by
  rcases findOneAndUpdate_ok h with ⟨y, hy, hfree, -, -, hw⟩ | ⟨hnone, -, -⟩
  · refine ⟨?_, fun t' => ?_⟩
    · rw [booked, show v.docs.lookup (f.key t) = some y from hy]
      exact hp y hfree
    · by_cases ht : t = t'
      · subst ht
        rw [if_pos rfl, hw, booked, show (v.put (f.key t) (g y)).docs.lookup (f.key t) =
          some (g y) from View.find_put_self _ _ _]
        exact hg y
      · rw [if_neg ht]
        exact update_frame (Ne.symm ht) h
  · cases hnone

/-! ### The operations on resources -/

theorem releaseDriver_booked {driverId : Option Id} {orderId : Id} {r : Unit}
    (h : (releaseDriver driverId orderId).run env v = .ok (r, w)) (t : Id) :
    Resource.driver.booked w.docs t =
      freed driverId (some orderId) t (Resource.driver.booked v.docs t) := by
  cases driverId with
  | none =>
      obtain ⟨-, rfl⟩ := pure_ok h
      simp [freed]
  | some id =>
      obtain ⟨_, u, hupdate, h⟩ := bind_ok h
      obtain ⟨-, rfl⟩ := pure_ok h
      exact Resource.release_ok (f := .driver) (fun _ => rfl) hupdate t

theorem releaseTruck_booked {truckId : Option Id} {orderId : Id} {r : Unit}
    (h : (releaseTruck truckId orderId).run env v = .ok (r, w)) (t : Id) :
    Resource.truck.booked w.docs t = freed truckId (some orderId) t (Resource.truck.booked v.docs t) := by
  cases truckId with
  | none =>
      obtain ⟨-, rfl⟩ := pure_ok h
      simp [freed]
  | some id =>
      obtain ⟨_, u, hupdate, h⟩ := bind_ok h
      obtain ⟨-, rfl⟩ := pure_ok h
      exact Resource.release_ok (f := .truck) (fun _ => rfl) hupdate t

theorem releaseTank_booked {tankId : Option Id} {orderId : Id} {r : Unit}
    (h : (releaseTank tankId orderId).run env v = .ok (r, w)) (t : Id) :
    Resource.tank.booked w.docs t = freed tankId (some orderId) t (Resource.tank.booked v.docs t) := by
  cases tankId with
  | none =>
      obtain ⟨-, rfl⟩ := pure_ok h
      simp [freed]
  | some id =>
      obtain ⟨_, u, hupdate, h⟩ := bind_ok h
      obtain ⟨-, rfl⟩ := pure_ok h
      exact Resource.release_ok (f := .tank) (fun _ => rfl) hupdate t

theorem bookDriver_booked {driverId orderId : Id} {driver : User} {p : User → Bool}
    {g : User → User} (hp : ∀ u, p u = true → u.activeOrderId = none)
    (hg : ∀ u, (g u).activeOrderId = some orderId)
    (h : (updateUser driverId p g).run env v = .ok (some driver, w)) :
    Resource.driver.booked v.docs driverId = none ∧ ∀ t,
      Resource.driver.booked w.docs t =
        if driverId = t then some orderId else Resource.driver.booked v.docs t :=
  Resource.book_ok (f := .driver) hp hg h

theorem bookTruck_booked {truckId orderId : Id} {truck : Truck}
    (h : (bookTruck truckId orderId).run env v = .ok (some truck, w)) :
    Resource.truck.booked v.docs truckId = none ∧ ∀ t,
      Resource.truck.booked w.docs t =
        if truckId = t then some orderId else Resource.truck.booked v.docs t := by
  refine Resource.book_ok (f := .truck) (fun (x : Truck) hx => ?_) (fun _ => rfl) h
  have hfree : x.isActive = true ∧ x.activeOrderId = none := by simpa using hx
  exact hfree.2

theorem bookTank_booked {tankId orderId : Id} {tank : Tank}
    (h : (bookTank tankId orderId).run env v = .ok (some tank, w)) :
    Resource.tank.booked v.docs tankId = none ∧ ∀ t,
      Resource.tank.booked w.docs t =
        if tankId = t then some orderId else Resource.tank.booked v.docs t := by
  refine Resource.book_ok (f := .tank) (fun (x : Tank) hx => ?_) (fun _ => rfl) h
  have hfree : x.isActive = true ∧ x.activeOrderId = none := by simpa using hx
  exact hfree.2

/-- Releasing by a document frees the resources it names. -/
theorem releaseDriverIfAssigned_booked {order : OrderDocument} {r : Unit}
    (h : (releaseDriverIfAssigned order).run env v = .ok (r, w)) (f : Resource) (t : Id) :
    f.booked w.docs t = freed (order.resource f) (some order.id) t (f.booked v.docs t) := by
  obtain ⟨_, u₁, hdriver, h⟩ := bind_ok h
  obtain ⟨_, u₂, htruck, htank⟩ := bind_ok h
  have hu₁ : f ≠ .driver → f.booked u₁.docs t = f.booked v.docs t := fun hne =>
    Resource.booked_congr ((releaseDriver_confined (S := fun k => k ≠ f.key t)
      (by cases f <;> simp [Resource.key] at hne ⊢) _).find_eq hdriver fun hkey => hkey rfl)
  have hu₂ : f ≠ .truck → f.booked u₂.docs t = f.booked u₁.docs t := fun hne =>
    Resource.booked_congr ((releaseTruck_confined (S := fun k => k ≠ f.key t)
      (by cases f <;> simp [Resource.key] at hne ⊢) _).find_eq htruck fun hkey => hkey rfl)
  have hw : f ≠ .tank → f.booked w.docs t = f.booked u₂.docs t := fun hne =>
    Resource.booked_congr ((releaseTank_confined (S := fun k => k ≠ f.key t)
      (by cases f <;> simp [Resource.key] at hne ⊢) _).find_eq htank fun hkey => hkey rfl)
  cases f with
  | driver => rw [hw (by simp), hu₂ (by simp), releaseDriver_booked hdriver]; rfl
  | truck => rw [hw (by simp), releaseTruck_booked htruck, hu₁ (by simp)]; rfl
  | tank => rw [releaseTank_booked htank, hu₂ (by simp), hu₁ (by simp)]; rfl

/-- An update that does not concern bookings. -/
theorem Resource.keep_ok {f e : Resource} {t : Id} {p : Doc (e.key t) → Bool}
    {g : Doc (e.key t) → Doc (e.key t)} (hg : ∀ x, e.holder t (g x) = e.holder t x)
    {r : Option (Doc (e.key t))}
    (h : (Tx.findOneAndUpdate (e.key t) p g : Action _).run env v = .ok (r, w)) (t' : Id) :
    f.booked w.docs t' = f.booked v.docs t' := by
  by_cases hkey : f.key t' = e.key t
  · obtain rfl := key_kind hkey
    obtain rfl := key_injective hkey
    rcases findOneAndUpdate_ok h with ⟨x, hx, -, -, -, rfl⟩ | ⟨-, rfl, -⟩
    · rw [booked, booked, show v.docs.lookup (f.key t') = some x from hx,
        show (v.put (f.key t') (g x)).docs.lookup (f.key t') = some (g x) from
          View.find_put_self _ _ _]
      exact hg x
    · rfl
  · exact booked_congr
      ((Confined.findOneAndUpdate (S := fun k => k = e.key t) rfl).find_eq h hkey)

/-- An edit that makes one such update and answers nothing. -/
theorem Resource.edit_ok {f e : Resource} {t : Id} {p : Doc (e.key t) → Bool}
    {g : Doc (e.key t) → Doc (e.key t)} (hg : ∀ x, e.holder t (g x) = e.holder t x) {r : Unit}
    (h : (do let _ ← Tx.findOneAndUpdate (e.key t) p g : Action Unit).run env v = .ok (r, w))
    (t' : Id) : f.booked w.docs t' = f.booked v.docs t' := by
  obtain ⟨_, u, hupdate, hreturn⟩ := bind_ok h
  obtain ⟨-, rfl⟩ := pure_ok hreturn
  exact keep_ok hg hupdate t'

/-- A new driver or vehicle is booked for no order. -/
theorem Resource.insert_ok {f e : Resource} {t : Id} {x : Doc (e.key t)} (hx : e.holder t x = none)
    {r : Unit} (h : (Tx.insert (e.key t) x : Action Unit).run env v = .ok (r, w)) (t' : Id) :
    f.booked w.docs t' = f.booked v.docs t' := by
  obtain ⟨hnone, -, rfl⟩ := Tx.insert_ok h
  by_cases hkey : f.key t' = e.key t
  · obtain rfl := key_kind hkey
    obtain rfl := key_injective hkey
    rw [booked, booked, show v.docs.lookup (f.key t') = none from hnone,
      show (v.put (f.key t') x).docs.lookup (f.key t') = some x from View.find_put_self _ _ _]
    exact hx
  · exact booked_congr (View.find_put_ne _ _ hkey)

/-- Deactivation frees a driver, and leaves everyone else alone. -/
theorem deactivateUser_booked {id : Id} {r : Unit}
    (h : (AdminEdit.deactivateUser id).body.run env v = .ok (r, w)) (t : Id) :
    Resource.driver.booked w.docs t = if id = t then none else Resource.driver.booked v.docs t := by
  obtain ⟨_, u, hactive, h⟩ := bind_ok h
  obtain ⟨_, u', hrelease, hreturn⟩ := bind_ok h
  obtain ⟨-, rfl⟩ := pure_ok hreturn
  have hu : Resource.driver.booked u.docs t = Resource.driver.booked v.docs t := by
    refine Resource.keep_ok (e := .driver) ?_ hactive t
    exact fun _ => rfl
  by_cases hid : id = t
  · subst hid
    rw [if_pos rfl]
    rcases findOneAndUpdate_ok hrelease with ⟨x, -, -, -, -, rfl⟩ | ⟨-, rfl, hnone⟩
    · have hw := View.find_put_self u (Key.user id)
        ({ x with isAvailable := true, activeOrderId := none } : User)
      exact congrArg (fun y : Option User => y.bind (·.activeOrderId)) hw
    · cases hx : View.find w (Key.user id) with
      | none => exact congrArg (fun y : Option User => y.bind (·.activeOrderId)) hx
      | some x =>
          have hfree : User.activeOrderId x = none := by simpa using hnone x hx
          exact (congrArg (fun y : Option User => y.bind (·.activeOrderId)) hx).trans hfree
  · rw [if_neg hid, ← hu]
    exact Resource.update_frame (f := .driver) (Ne.symm hid) hrelease

/-- Other edits neither book nor release anything. -/
theorem AdminEdit.body_booked {edit : AdminEdit} {r : Unit}
    (h : edit.body.run env v = .ok (r, w)) (f : Resource) (t : Id) :
    f.booked w.docs t =
      if (Call.administer edit).clears f = some t then none else f.booked v.docs t := by
  have confined : (Call.administer edit).clears f = none → Confined (fun k => k ≠ f.key t) edit.body →
      f.booked w.docs t =
        if (Call.administer edit).clears f = some t then none else f.booked v.docs t := by
    intro hclears hedit
    rw [hclears, if_neg (by simp)]
    exact Resource.booked_congr (hedit.find_eq h fun hne => hne rfl)
  have other : ∀ k : Key, (∀ t, k ≠ .user t) → (∀ t, k ≠ .truck t) → (∀ t, k ≠ .tank t) →
      k ≠ f.key t := by
    intro k hdriver htruck htank
    cases f with
    | driver => exact hdriver t
    | truck => exact htruck t
    | tank => exact htank t
  cases edit with
  | putCompany id c =>
      simp only [AdminEdit.body] at confined
      exact confined (by cases f <;> rfl) (Confined.upsert (other _ (by simp) (by simp) (by simp)))
  | putWarehouse id x =>
      simp only [AdminEdit.body] at confined
      exact confined (by cases f <;> rfl) (Confined.upsert (other _ (by simp) (by simp) (by simp)))
  | putStation id x =>
      simp only [AdminEdit.body] at confined
      exact confined (by cases f <;> rfl) (Confined.upsert (other _ (by simp) (by simp) (by simp)))
  | addCommissionTerm =>
      exact confined (by cases f <;> rfl) (Confined.insert (other _ (by simp) (by simp) (by simp)))
  | addCashbackProgramme =>
      exact confined (by cases f <;> rfl) (Confined.insert (other _ (by simp) (by simp) (by simp)))
  | addUser =>
      rw [if_neg (by cases f <;> simp [Call.clears])]
      exact Resource.insert_ok (e := .driver) rfl h t
  | setCreditLimit | setOnline | activateUser =>
      rw [if_neg (by cases f <;> simp [Call.clears])]
      refine Resource.edit_ok (e := .driver) ?_ h t
      exact fun _ => rfl
  | deactivateUser id =>
      cases f with
      | driver =>
          rw [deactivateUser_booked h]
          simp [Call.clears]
      | truck | tank =>
          refine confined rfl (Obeys.bind (Confined.findOneAndUpdate (by simp [Resource.key]))
            fun _ => ?_)
          exact Obeys.bind (Confined.findOneAndUpdate (by simp [Resource.key])) fun _ => Obeys.pure _
  | addTruck id companyId plateNumber =>
      rw [if_neg (by cases f <;> simp [Call.clears])]
      exact Resource.insert_ok (e := .truck) rfl h t
  | addTank =>
      rw [if_neg (by cases f <;> simp [Call.clears])]
      exact Resource.insert_ok (e := .tank) rfl h t
  | setTruckActive id active =>
      rw [if_neg (by cases f <;> simp [Call.clears])]
      refine Resource.edit_ok (e := .truck) ?_ h t
      exact fun _ => rfl
  | setTankActive id active =>
      rw [if_neg (by cases f <;> simp [Call.clears])]
      refine Resource.edit_ok (e := .tank) ?_ h t
      exact fun _ => rfl

/-! ### The calls -/

theorem transition_booked {id : Id} {source target : OrderStatus} {actor : TransitionActor}
    {options : TransitionOptions} {r : OrderDocument}
    (h : (transition id source target actor options).run env v = .ok (r, w)) (f : Resource) (t : Id) :
    f.booked w.docs t = f.booked v.docs t := by
  refine Resource.booked_congr ((transition_confined (S := fun k => k ≠ f.key t) ?_ _ _ _ _).find_eq
    h fun hne => hne rfl)
  cases f <;> simp [Resource.key]

namespace Call
variable {cfg : Settings} {c : Call} {r : c.Reply}

theorem assign_booked {order r : OrderDocument} {a : Assignment}
    (h : (assignDriver order a).run env v = .ok (r, w)) (f : Resource) :
    ∃ u, (assign order a).books f = some u ∧ f.booked v.docs u = none ∧
      ∀ t, f.booked w.docs t = if u = t then some order.id else f.booked v.docs t := by
  obtain ⟨driver, u₁, hdriver, h⟩ := bind_ok h
  cases driver with
  | none => exact (throw_ok h).elim
  | some driver =>
      obtain ⟨truck, u₂, htruck, h⟩ := bind_ok h
      cases truck with
      | none => exact (throw_ok h).elim
      | some truck =>
          obtain ⟨tank, u₃, htank, h⟩ := bind_ok h
          cases tank with
          | none => exact (throw_ok h).elim
          | some tank =>
              obtain ⟨_, u₄, hfits, h⟩ := bind_ok h
              obtain ⟨client, u₅, hclient, hmove⟩ := bind_ok h
              obtain ⟨-, rfl⟩ := find_ok hclient
              -- Each of the three updates concerns one kind of resource.
              have hu₁ : f ≠ .driver → ∀ t, f.booked u₁.docs t = f.booked v.docs t := fun hne t =>
                Resource.booked_congr ((Confined.findOneAndUpdate (S := fun k => k ≠ f.key t)
                  (by cases f <;> simp [Resource.key] at hne ⊢)).find_eq hdriver fun hkey => hkey rfl)
              have hu₂ : f ≠ .truck → ∀ t, f.booked u₂.docs t = f.booked u₁.docs t := fun hne t =>
                Resource.booked_congr ((Confined.findOneAndUpdate (S := fun k => k ≠ f.key t)
                  (by cases f <;> simp [Resource.key] at hne ⊢)).find_eq htruck fun hkey => hkey rfl)
              have hu₃ : f ≠ .tank → ∀ t, f.booked u₃.docs t = f.booked u₂.docs t := fun hne t =>
                Resource.booked_congr ((Confined.findOneAndUpdate (S := fun k => k ≠ f.key t)
                  (by cases f <;> simp [Resource.key] at hne ⊢)).find_eq htank fun hkey => hkey rfl)
              have hw : ∀ t, f.booked w.docs t = f.booked u₃.docs t := fun t =>
                (transition_booked hmove f t).trans (Resource.booked_congr
                  ((assertTankFits_confined (S := fun _ => False) _ _).find_eq hfits id))
              cases f with
              | driver =>
                  obtain ⟨hfree, hbooked⟩ := bookDriver_booked (by simp) (fun _ => rfl) hdriver
                  refine ⟨a.driverId, rfl, hfree, fun t => ?_⟩
                  rw [hw, hu₃ (by simp), hu₂ (by simp), hbooked]
              | truck =>
                  obtain ⟨hfree, hbooked⟩ := bookTruck_booked htruck
                  refine ⟨a.truckId, rfl, (hu₁ (by simp) _).symm.trans hfree, fun t => ?_⟩
                  rw [hw, hu₃ (by simp), hbooked, hu₁ (by simp)]
              | tank =>
                  obtain ⟨hfree, hbooked⟩ := bookTank_booked htank
                  refine ⟨a.tankId, rfl, ?_, fun t => ?_⟩
                  · rw [← hu₁ (by simp), ← hu₂ (by simp), hfree]
                  · rw [hw, hbooked, hu₂ (by simp), hu₁ (by simp)]

theorem reassign_booked {order r : OrderDocument} {truckId tankId : Id}
    (h : (reassignVehicle order truckId tankId).run env v = .ok (r, w)) :
    (∀ t, Resource.truck.booked w.docs t = if truckId = t then some order.id else
      freed order.truckId (some order.id) t (Resource.truck.booked v.docs t)) ∧
    (∀ t, Resource.tank.booked w.docs t = if tankId = t then some order.id else
      freed order.tankId (some order.id) t (Resource.tank.booked v.docs t)) ∧
    freed order.truckId (some order.id) truckId (Resource.truck.booked v.docs truckId) = none ∧
    freed order.tankId (some order.id) tankId (Resource.tank.booked v.docs tankId) = none := by
  obtain ⟨_, u₁, hreleaseTruck, h⟩ := bind_ok h
  obtain ⟨_, u₂, hreleaseTank, h⟩ := bind_ok h
  obtain ⟨truck, u₃, htruck, h⟩ := bind_ok h
  cases truck with
  | none => exact (throw_ok h).elim
  | some truck =>
      obtain ⟨tank, u₄, htank, h⟩ := bind_ok h
      cases tank with
      | none => exact (throw_ok h).elim
      | some tank =>
          obtain ⟨_, u₅, hfits, h⟩ := bind_ok h
          obtain ⟨updated, u₆, hupdate, h⟩ := bind_ok h
          cases updated with
          | none => exact (throw_ok h).elim
          | some updated =>
              obtain ⟨-, rfl⟩ := pure_ok h
              have hw : ∀ f t, Resource.booked f w.docs t = Resource.booked f u₄.docs t := by
                intro f t
                have hw' : w.find (f.key t) = u₅.find (f.key t) :=
                  (Confined.findOneAndUpdate (S := fun k => k ≠ f.key t)
                    (by cases f <;> simp [Resource.key])).find_eq hupdate fun hne => hne rfl
                exact Resource.booked_congr (hw'.trans
                  ((assertTankFits_confined (S := fun _ => False) _ _).find_eq hfits id))
              obtain ⟨hfree, hbooked⟩ := bookTruck_booked htruck
              obtain ⟨hfree', hbooked'⟩ := bookTank_booked htank
              have htrucks : ∀ t, Resource.truck.booked u₂.docs t = Resource.truck.booked u₁.docs t :=
                fun t => Resource.booked_congr (f := .truck) ((releaseTank_confined
                  (S := fun k => k ≠ Key.truck t) (by simp) _).find_eq hreleaseTank
                    fun hne => hne rfl)
              have htrucks' : ∀ t, Resource.truck.booked u₄.docs t = Resource.truck.booked u₃.docs t :=
                fun t => Resource.booked_congr (f := .truck) ((Confined.findOneAndUpdate
                  (S := fun k => k ≠ Key.truck t) (by simp)).find_eq htank fun hne => hne rfl)
              have htanks : ∀ t, Resource.tank.booked u₁.docs t = Resource.tank.booked v.docs t :=
                fun t => Resource.booked_congr (f := .tank) ((releaseTruck_confined
                  (S := fun k => k ≠ Key.tank t) (by simp) _).find_eq hreleaseTruck
                    fun hne => hne rfl)
              have htanks' : ∀ t, Resource.tank.booked u₃.docs t = Resource.tank.booked u₂.docs t :=
                fun t => Resource.booked_congr (f := .tank) ((Confined.findOneAndUpdate
                  (S := fun k => k ≠ Key.tank t) (by simp)).find_eq htruck fun hne => hne rfl)
              refine ⟨fun t => ?_, fun t => ?_, ?_, ?_⟩
              · rw [hw, htrucks', hbooked, htrucks, releaseTruck_booked hreleaseTruck]
              · rw [hw, hbooked', htanks', releaseTank_booked hreleaseTank, htanks]
              · rw [← releaseTruck_booked hreleaseTruck, ← htrucks, hfree]
              · rw [← htanks, ← releaseTank_booked hreleaseTank, ← htanks', hfree']

/-- What a call makes of bookings; what it books was free, or its order's own. -/
theorem body_booked (h : (c.body cfg).run env v = .ok (r, w)) (f : Resource) (t : Id) :
    f.booked w.docs t = c.rebooked f t (f.booked v.docs t) ∧
      (c.books f = some t → f.booked v.docs t = none ∨
        c.releases f = some t ∧ f.booked v.docs t = c.subject) := by
  cases c with
  | assign order a =>
      obtain ⟨u, hbooks, hfree, hbooked⟩ := assign_booked h f
      refine ⟨?_, fun ht => Or.inl ?_⟩
      · rw [hbooked, rebooked, hbooks]
        simp [clears, releases, freed, subject]
      · cases hbooks.symm.trans ht
        exact hfree
  | reassign order truckId tankId =>
      obtain ⟨htruck, htank, hfree, hfree'⟩ := reassign_booked h
      have freed_none : ∀ {resourceId : Option Id} {t : Id} {b : Option Id},
          freed resourceId (some order.id) t b = none →
            b = none ∨ resourceId = some t ∧ b = some order.id := by
        intro resourceId t b hnone
        unfold freed at hnone
        split_ifs at hnone with hcond
        · exact Or.inr hcond
        · exact Or.inl hnone
      cases f with
      | driver =>
          refine ⟨?_, by simp [books]⟩
          rw [Resource.booked_congr (f := .driver) (body_frame h (k := .user t) rfl)]
          simp [rebooked, books, clears, releases, freed]
      | truck =>
          refine ⟨by simp [htruck, rebooked, books, clears, releases, subject, Order.resource],
            fun hbooks => ?_⟩
          cases hbooks
          exact freed_none hfree
      | tank =>
          refine ⟨by simp [htank, rebooked, books, clears, releases, subject, Order.resource],
            fun hbooks => ?_⟩
          cases hbooks
          exact freed_none hfree'
  | cancel order actor reason =>
      obtain ⟨u, u₁, u₂, updated, hrelease, htransition, hvoid, hreturn⟩ := cancel_ok h
      refine ⟨?_, by simp [books]⟩
      have hu₂ : u₂.find (f.key t) = u₁.find (f.key t) := by
        rcases hvoid with ⟨-, hvoid⟩ | ⟨-, rfl⟩
        · exact (voidInvoice_confined (S := fun k => k ≠ f.key t) (by cases f <;> simp [Resource.key])
            (by cases f <;> simp [Resource.key]) _).find_eq hvoid fun hne => hne rfl
        · rfl
      have hw : w.find (f.key t) = u₂.find (f.key t) :=
        (returnDrawdown_confined (S := fun k => k ≠ f.key t) (by cases f <;> simp [Resource.key])
          _ _).find_eq hreturn fun hne => hne rfl
      rw [Resource.booked_congr (hw.trans hu₂), transition_booked htransition,
        releaseDriverIfAssigned_booked hrelease]
      simp [rebooked, books, clears, releases, subject]
  | complete order actor =>
      obtain ⟨_, u, hrelease, htransition⟩ := bind_ok h
      refine ⟨?_, by simp [books]⟩
      rw [transition_booked htransition, releaseDriverIfAssigned_booked hrelease]
      simp [rebooked, books, clears, releases, subject]
  | forceComplete order actor reason =>
      obtain ⟨_, u, hrelease, htransition⟩ := bind_ok h
      refine ⟨?_, by simp [books]⟩
      rw [transition_booked htransition, releaseDriverIfAssigned_booked hrelease]
      simp [rebooked, books, clears, releases, subject]
  | timeOut job order =>
      refine ⟨?_, by simp [books]⟩
      cases f with
      | driver =>
          obtain ⟨_, u, hrelease, htransition⟩ := bind_ok h
          rw [transition_booked htransition, releaseDriver_booked hrelease]
          simp [rebooked, books, clears, releases, subject]
      | truck =>
          rw [Resource.booked_congr (f := .truck) (body_frame h (k := .truck t) rfl)]
          simp [rebooked, books, clears, releases, freed]
      | tank =>
          rw [Resource.booked_congr (f := .tank) (body_frame h (k := .tank t) rfl)]
          simp [rebooked, books, clears, releases, freed]
  | administer edit =>
      refine ⟨?_, by simp [books]⟩
      rw [AdminEdit.body_booked h]
      simp [rebooked, books, releases, freed]
  | _ =>
      refine ⟨?_, by simp [books]⟩
      rw [Resource.booked_congr (body_frame h (k := f.key t) (by cases f <;> rfl))]
      simp [rebooked, books, clears, releases, freed]

end Call
end CiroFuel
