import CiroFuel.BookingSteps

/-!
# What becomes of users

Calls book drivers and free them, move them on- and offline, set limits, and deactivate
or activate. No call removes a user, and only an administrator's activation makes a user
active who was not.
-/
namespace CiroFuel
open Snapshot Tx

/-- What a call can do to a stored user, who is active again only if the call may do that. -/
inductive UserStep (reactivates : Prop) : User → User → Prop where
  | book (u : User) (orderId : Id) :
      UserStep reactivates u { u with isAvailable := false, activeOrderId := some orderId }
  | free (u : User) :
      UserStep reactivates u { u with isAvailable := true, activeOrderId := none }
  | setOnline (u : User) (online : Bool) (location : Option GeoPoint) :
      UserStep reactivates u { u with isOnline := online, location := location.or u.location }
  | deactivate (u : User) : UserStep reactivates u { u with isActive := false }
  | activate (u : User) (h : reactivates) : UserStep reactivates u { u with isActive := true }
  | setCreditLimit (u : User) (limit : ℚ) :
      UserStep reactivates u { u with creditLimit := some limit }

theorem UserStep.mono {p q : Prop} (hpq : p → q) {u u' : User} (h : UserStep p u u') :
    UserStep q u u' := by
  cases h with
  | activate hp => exact .activate u (hpq hp)
  | book orderId => exact .book u orderId
  | free => exact .free u
  | setOnline online location => exact .setOnline u online location
  | deactivate => exact .deactivate u
  | setCreditLimit limit => exact .setCreditLimit u limit

/-- Who is not active stays so, where nobody is made active. -/
theorem inactive_of_steps {p : Prop} (hp : ¬ p) {u u' : User}
    (h : Relation.ReflTransGen (UserStep p) u u') (hinactive : u.isActive = false) :
    u'.isActive = false := by
  induction h with
  | refl => exact hinactive
  | tail _ hstep ih =>
      cases hstep with
      | deactivate => rfl
      | activate hactivates => exact absurd hactivates hp
      | _ => exact ih

/-- Stored users stay stored, and change by such steps only. -/
def UsersStep (reactivated : Id → Prop) (d d' : Docs Doc) : Prop :=
  ∀ (id : Id) (u : User), d.lookup (Key.user id) = some u → ∃ u' : User,
    d'.lookup (Key.user id) = some u' ∧ Relation.ReflTransGen (UserStep (reactivated id)) u u'

instance (reactivated : Id → Prop) : Std.Refl (UsersStep reactivated) :=
  ⟨fun _ _ u hu => ⟨u, hu, .refl⟩⟩

instance (reactivated : Id → Prop) : IsTrans (Docs Doc) (UsersStep reactivated) where
  trans d e f hde hef id u hu := by
    obtain ⟨u', hu', hsteps⟩ := hde id u hu
    obtain ⟨u'', hu'', hsteps'⟩ := hef id u' hu'
    exact ⟨u'', hu'', hsteps.trans hsteps'⟩

theorem UsersStep.mono {p q : Id → Prop} (hpq : ∀ id, p id → q id) {d d' : Docs Doc}
    (h : UsersStep p d d') : UsersStep q d d' := by
  intro id u hu
  obtain ⟨u', hu', hsteps⟩ := h id u hu
  exact ⟨u', hu', hsteps.lift (fun u => u) fun _ _ hstep => hstep.mono (hpq id)⟩

section steps
variable {p : Id → Prop}

def NotUser (k : Key) : Prop := ∀ id, k ≠ Key.user id

theorem usersStep_confined {α : Type} {tx : Action α} (h : Tx.Confined NotUser tx) :
    Obeys (UsersStep p) tx := by
  intro env v a w hrun id u hu
  exact ⟨u, (h.find_eq hrun fun hnot => hnot id rfl).trans hu, .refl⟩

theorem usersStep_update {id : Id} {filter : User → Bool} {f : User → User}
    (hf : ∀ u : User, UserStep (p id) u (f u)) : Obeys (UsersStep p) (updateUser id filter f) := by
  refine Obeys.findOneAndUpdate fun d x hx _ id' u hu => ?_
  by_cases hid : id' = id
  · subst hid
    obtain rfl := Option.some.inj (hx.symm.trans hu)
    exact ⟨f x, Docs.lookup_put, .single (hf x)⟩
  · exact ⟨u, (Docs.lookup_put_ne (by simpa using hid)).trans hu, .refl⟩

theorem usersStep_insert {k : Key} {x : Doc k} : Obeys (UsersStep p) (Tx.insert k x : Action Unit) := by
  refine Obeys.insert fun d hnone id u hu => ⟨u, ?_, .refl⟩
  by_cases hk : Key.user id = k
  · subst hk
    exact absurd (hnone.symm.trans hu) (by simp)
  · exact (Docs.lookup_put_ne hk).trans hu

theorem usersStep_releaseDriver (driverId : Option Id) (orderId : Id) :
    Obeys (UsersStep p) (releaseDriver driverId orderId) := by
  cases driverId with
  | none => exact Obeys.pure _
  | some id => exact Obeys.bind (usersStep_update fun u => .free u) fun _ => Obeys.pure _

theorem usersStep_releaseDriverIfAssigned (order : OrderDocument) :
    Obeys (UsersStep p) (releaseDriverIfAssigned order) := by
  refine Obeys.bind (usersStep_releaseDriver _ _) fun _ => ?_
  refine Obeys.bind (usersStep_confined (releaseTruck_confined (by simp [NotUser]) _)) fun _ => ?_
  exact usersStep_confined (releaseTank_confined (by simp [NotUser]) _)

theorem usersStep_transition (id : Id) (source target : OrderStatus) (actor : TransitionActor)
    (options : TransitionOptions) : Obeys (UsersStep p) (transition id source target actor options) :=
  usersStep_confined (transition_confined (by simp [NotUser]) _ _ _ _)

/-- Once the driver is booked, assigning writes no user. -/
theorem assignVehicle_confined (order : OrderDocument) (a : Assignment) (driver : User) :
    Tx.Confined NotUser (do
      match ← bookTruck a.truckId order.id with
      | none => Tx.throw .truckUnavailable
      | some truck =>
        match ← bookTank a.tankId order.id with
        | none => Tx.throw .tankUnavailable
        | some tank =>
          assertTankFits tank order
          let client ← (Tx.find (Key.user order.clientId) : Action (Option User))
          transition order.id .routedToTransport .assignedToDriver systemActor
            { extraSet := assignmentFields a driver truck tank client }) := by
  refine Obeys.bind (Tx.Confined.findOneAndUpdate (by simp [NotUser])) fun truck => ?_
  cases truck with
  | none => exact Obeys.throw _
  | some truck =>
      refine Obeys.bind (Tx.Confined.findOneAndUpdate (by simp [NotUser])) fun tank => ?_
      cases tank with
      | none => exact Obeys.throw _
      | some tank =>
          refine Obeys.bind (assertTankFits_confined _ _) fun _ => ?_
          exact Obeys.bind (Obeys.find _) fun _ =>
            transition_confined (by simp [NotUser]) _ _ _ _

theorem usersStep_assign (order : OrderDocument) (a : Assignment) :
    Obeys (UsersStep p) (assignDriver order a) := by
  refine Obeys.bind (usersStep_update fun u => .book u order.id) fun driver => ?_
  cases driver with
  | none => exact Obeys.throw _
  | some driver => exact usersStep_confined (assignVehicle_confined order a driver)

theorem usersStep_edit (edit : AdminEdit)
    (hp : ∀ id, edit = .activateUser id → p id) : Obeys (UsersStep p) edit.body := by
  have upserted : ∀ {k : Key} {x : Doc k} {f : Doc k → Doc k}, NotUser k →
      Obeys (UsersStep p) (Tx.upsert k x f : Action Unit) := fun hk =>
    usersStep_confined (Tx.Confined.upsert hk)
  have updated : ∀ {k : Key} {filter : Doc k → Bool} {f : Doc k → Doc k}, NotUser k →
      Obeys (UsersStep p) (Tx.findOneAndUpdate k filter f : Action _) := fun hk =>
    usersStep_confined (Tx.Confined.findOneAndUpdate hk)
  cases edit with
  | putCompany id c =>
      simp only [AdminEdit.body]
      exact upserted (by simp [NotUser])
  | putWarehouse id w =>
      simp only [AdminEdit.body]
      exact upserted (by simp [NotUser])
  | putStation id s =>
      simp only [AdminEdit.body]
      exact upserted (by simp [NotUser])
  | setCreditLimit id limit =>
      exact Obeys.bind (usersStep_update fun u => .setCreditLimit u limit) fun _ => Obeys.pure _
  | setOnline id online location =>
      exact Obeys.bind (usersStep_update fun u => .setOnline u online location) fun _ =>
        Obeys.pure _
  | deactivateUser id =>
      refine Obeys.bind (usersStep_update fun u => .deactivate u) fun _ => ?_
      exact Obeys.bind (usersStep_update fun u => .free u) fun _ => Obeys.pure _
  | activateUser id =>
      exact Obeys.bind (usersStep_update fun u => .activate u (hp id rfl)) fun _ => Obeys.pure _
  | setTruckActive => exact Obeys.bind (updated (by simp [NotUser])) fun _ => Obeys.pure _
  | setTankActive => exact Obeys.bind (updated (by simp [NotUser])) fun _ => Obeys.pure _
  | _ => exact usersStep_insert

end steps

theorem Call.body_users (cfg : Settings) (c : Call) :
    Obeys (UsersStep fun id => c = .administer (.activateUser id)) (c.body cfg) := by
  have released : ∀ {p : Id → Prop} (key : BalanceKey) (orderId actorId : Id), Obeys (UsersStep p)
      (returnDrawdown cfg.arithmetic key orderId actorId) := fun key orderId actorId =>
    usersStep_confined (returnDrawdown_confined (by simp [NotUser]) _ _)
  cases c with
  | timeOut job order =>
      exact Obeys.bind (usersStep_releaseDriver _ _) fun _ => usersStep_transition _ _ _ _ _
  | assign order a => exact usersStep_assign order a
  | cancel order actor reason =>
      refine Obeys.bind (usersStep_releaseDriverIfAssigned _) fun _ => ?_
      refine Obeys.bind (usersStep_transition _ _ _ _ _) fun _ => ?_
      split_ifs
      · refine Obeys.bind (usersStep_confined (voidInvoice_confined (by simp [NotUser])
          (by simp [NotUser]) _)) fun _ => ?_
        exact Obeys.bind (released _ _ _) fun _ => Obeys.pure _
      · exact Obeys.bind (released _ _ _) fun _ => Obeys.pure _
  | complete order actor =>
      exact Obeys.bind (usersStep_releaseDriverIfAssigned _) fun _ =>
        usersStep_transition _ _ _ _ _
  | forceComplete order actor reason =>
      exact Obeys.bind (usersStep_releaseDriverIfAssigned _) fun _ =>
        usersStep_transition _ _ _ _ _
  | administer edit => exact usersStep_edit edit fun id hedit => congrArg Call.administer hedit
  | _ =>
      intro env v r w hrun id u hu
      have hframe := (body_confined cfg _).find_eq hrun (k := Key.user id) (by simp [touches])
      exact ⟨u, hframe.trans hu, .refl⟩

/-- The driver of an assignment was active and free, and is then booked for the order. -/
theorem assignDriver_driver {order r : OrderDocument} {a : Assignment} {env : Env}
    {v w : View Doc} (h : (assignDriver order a).run env v = .ok (r, w)) :
    ∃ u : User, v.find (Key.user a.driverId) = some u ∧ u.isActive = true ∧
      u.activeOrderId = none ∧ w.find (Key.user a.driverId) =
        some { u with isAvailable := false, activeOrderId := some order.id } := by
  obtain ⟨driver, v', hbook, hrest⟩ := bind_ok h
  rcases findOneAndUpdate_ok hbook with ⟨u, hu, hfree, -, rfl, rfl⟩ | ⟨rfl, -, -⟩
  · simp only [Bool.and_eq_true, Option.isNone_iff_eq_none] at hfree
    refine ⟨u, hu, hfree.1.1.2, hfree.2, ?_⟩
    rw [(assignVehicle_confined order a _).find_eq hrest (by simp [NotUser])]
    exact View.find_put_self _ _ _
  · exact (throw_ok hrest).elim

theorem deactivateUser_inactive {id : Id} {u : User} {env : Env} {v w : View Doc} {r : Unit}
    (h : (AdminEdit.deactivateUser id).body.run env v = .ok (r, w))
    (hu : v.find (Key.user id) = some u) :
    ∃ u' : User, w.find (Key.user id) = some u' ∧ u'.isActive = false := by
  obtain ⟨_, v₁, hdeactivate, h⟩ := bind_ok h
  obtain ⟨_, v₂, hfree, h⟩ := bind_ok h
  obtain ⟨-, rfl⟩ := pure_ok h
  rcases findOneAndUpdate_ok hdeactivate with ⟨x, -, -, -, -, rfl⟩ | ⟨-, -, hnone⟩
  · obtain ⟨u', hu', hsteps⟩ := usersStep_update (p := fun _ => False) (fun u => .free u) _ _ _ _
      hfree id _ (View.find_put_self _ _ _)
    exact ⟨u', hu', inactive_of_steps not_false hsteps rfl⟩
  · exact absurd (hnone u hu) (by simp)

theorem commit_users {cfg : Settings} {ev : Event Doc Call.Reply} (hev : ev.Sound (machine cfg))
    (holder : Store.Older ev.base ev.before) :
    UsersStep (fun id => ev.label = .administer (.activateUser id)) ev.before.docs
      ev.after.docs := by
  intro id u hu
  rcases hev.cases holder (Key.user id) with ⟨hbase, hafter⟩ | ⟨-, hafter, -⟩
  · obtain ⟨u', hu', hsteps⟩ := Call.body_users cfg ev.label ev.env (View.start ev.base.docs)
      ev.reply ev.view hev.ran id u (hbase.trans hu)
    exact ⟨u', hafter.trans hu', hsteps⟩
  · exact ⟨u, hafter.trans hu, .refl⟩

end CiroFuel
