import CiroFuel.Handlers
import CiroFuel.TenantScope

/-!
# Watching an order

A socket and a REST request of one user read orders through the same plugin,
under scopes that each entry point builds for itself.
-/
namespace CiroFuel
open Query

/-- The user of a verified token, with the fuel company that owns their transport company. -/
structure SessionUser extends AuthenticatedUser where
  parentFuelCompanyId : Option Id := none
deriving DecidableEq

/-- The scope of a REST request. -/
def SessionUser.requestScope (user : SessionUser) : RequestScope where
  userId := some (.id user.userId)
  role := some user.role
  companyId := user.companyId.map .id
  parentFuelCompanyId := user.parentFuelCompanyId.map .id

/-- The scope of a socket message. -/
def toContext (user : SessionUser) : RequestScope where
  userId := some (.id user.userId)
  role := some user.role
  companyId := user.companyId.map .id

/-- The fields of an order that filters name. -/
def OrderDocument.document (o : OrderDocument) : Document :=
  [("_id", BsonValue.objectId o.id), ("fuelCompanyId", .objectId o.fuelCompanyId),
    ("clientId", .objectId o.clientId)] ++
    (o.transportCompanyId.toList.map fun c => ("transportCompanyId", BsonValue.objectId c)) ++
    (o.driverId.toList.map fun d => ("driverId", BsonValue.objectId d))

/-- `orderModel.findById(id)` under the scope; `orders` is the collection. -/
def findVisible (ctx : RequestScope) (orders : Id → Option Order) (id : Id) :
    Except String (Option OrderDocument) := do
  let scope ← pluginScope ctx .multiParty
  let byId := Conditions.only (.field "_id") fun d => decide (Document.get d "_id" = some (.objectId id))
  return ((orders id).map (Order.withId · id)).filter fun o =>
    (scopedFilter scope byId).holds o.document

inductive WatchError where
  | forbiddenRole | notFound | notTrackable
deriving DecidableEq

/-- `order:watch`; an answer without an error is `{ ok: true }`. -/
def watch (user : SessionUser) (orders : Id → Option Order) (orderId : Id) :
    Except String (Option WatchError) :=
  if user.role = .driver then .ok (some .forbiddenRole)
  else do
    let some order ← findVisible (toContext user) orders orderId | return some .notFound
    if user.role = .client ∧ order.clientId ≠ user.userId then return some .notFound
    else if order.status ≠ .inTransit ∧ order.status ≠ .unloading then return some .notTrackable
    else return none

/-- `GET orders/:id` -/
def readOrder (user : SessionUser) (orders : Id → Option Order) (id : Id) :
    Except String OrderDocument := do
  let some order ← findVisible user.requestScope orders id | throw "Order not found"
  let isOwner := match user.role with
    | .client => decide (order.clientId = user.userId)
    | .driver => decide (order.driverId = some user.userId)
    | _ => true
  if isOwner then return order else throw "Order not found"

def trackable (order : Order) : Bool := order.status = .inTransit || order.status = .unloading

/-! ### Reading under a scope -/

theorem document_fuelCompanyId (o : OrderDocument) :
    o.document.get "fuelCompanyId" = some (.objectId o.fuelCompanyId) := rfl

theorem document_clientId (o : OrderDocument) :
    o.document.get "clientId" = some (.objectId o.clientId) := rfl

theorem document_id (o : OrderDocument) : o.document.get "_id" = some (.objectId o.id) := rfl

theorem document_transportCompanyId (o : OrderDocument) :
    o.document.get "transportCompanyId" = o.transportCompanyId.map .objectId := by
  cases ht : o.transportCompanyId <;> cases hd : o.driverId <;>
    simp only [OrderDocument.document, Document.get, ht, hd] <;> rfl

theorem names_iff {d : Document} {f : String} {i : Option IdString} :
    d.names f i = true ↔ ∃ id, i = some (.id id) ∧ d.get f = some (.objectId id) := by
  cases i with
  | none => simp [Document.names]
  | some s => cases s <;> simp [Document.names]

/-- A user who has a record of their own has a scope. -/
theorem pluginScope_of_own {ctx : RequestScope} {role : UserRole} {d : Document} {u : Id}
    (hrole : ctx.role = some role) (hsuper : role ≠ .superAdmin)
    (huser : ctx.userId = some (.id u)) (hown : ownRecord .multiParty ctx d = true) :
    ∃ s, pluginScope ctx .multiParty = .ok (some s) := by
  rw [ownRecord, List.all_eq_true] at hown
  obtain ⟨f, hf, -⟩ := names_iff.mp (hown ("fuelCompanyId", fuelCompanyOf ctx) List.mem_cons_self)
  have hid : ∀ i, (some (IdString.id i)).filter IdString.truthy = some (.id i) := fun i => rfl
  obtain ⟨userId, ctxRole, companyId, parentFuelCompanyId⟩ := ctx
  obtain rfl := hrole
  obtain rfl := huser
  simp only [fuelCompanyOf] at hf
  cases role with
  | superAdmin => exact absurd rfl hsuper
  | fuelCompanyAdmin =>
      rw [if_neg (by decide)] at hf
      simp only [pluginScope, scopeOf, resolveFilter, resolveFuelCompanyId, hf, hid]
      exact ⟨_, rfl⟩
  | transportCompanyAdmin =>
      rw [if_pos rfl] at hf
      obtain ⟨c, hc, -⟩ := names_iff.mp (hown ("transportCompanyId", companyId)
        (List.mem_cons_of_mem _ List.mem_cons_self))
      simp only at hc
      simp only [pluginScope, scopeOf, resolveFilter, resolveFuelCompanyId, hf, hc, hid]
      exact ⟨_, rfl⟩
  | client =>
      rw [if_neg (by decide)] at hf
      simp only [pluginScope, scopeOf, resolveFilter, resolveFuelCompanyId, hf, hid]
      exact ⟨_, rfl⟩
  | driver =>
      rw [if_neg (by decide)] at hf
      simp only [pluginScope, scopeOf, resolveFilter, resolveFuelCompanyId, hf, hid]
      exact ⟨_, rfl⟩

/-- A scoped read finds the order exactly if it is the role's own. -/
theorem findVisible_some {ctx : RequestScope} {role : UserRole} {u : Id}
    {orders : Id → Option Order} {id : Id} {o : OrderDocument}
    (hrole : ctx.role = some role) (hsuper : role ≠ .superAdmin) (huser : ctx.userId = some (.id u)) :
    findVisible ctx orders id = .ok (some o) ↔
      (orders id).map (Order.withId · id) = some o ∧ ownRecord .multiParty ctx o.document = true := by
  have hbyId : ∀ (s : Conditions String Document) (x : Order),
      (scopedFilter (some s) (Conditions.only (.field "_id")
        fun d => decide (Document.get d "_id" = some (.objectId id)))).holds
          (x.withId id).document = s.holds (x.withId id).document := by
    intro s x
    rw [scopedFilter, Bool.eq_iff_iff, Conditions.holds_merge]
    refine ⟨And.left, fun hs => ⟨hs, fun n c _ hn => ?_⟩⟩
    rw [Conditions.get_only] at hn
    split_ifs at hn
    cases hn
    simp [document_id]
  have hfound : ∀ s, pluginScope ctx .multiParty = .ok (some s) →
      (∀ d, s.holds d = ownRecord .multiParty ctx d) →
      findVisible ctx orders id = .ok (((orders id).map (Order.withId · id)).filter
        fun o => ownRecord .multiParty ctx o.document) := by
    intro s hs hown
    rw [findVisible, hs]
    refine congrArg Except.ok ?_
    cases horder : orders id with
    | none => rfl
    | some x => simp only [Option.map_some, Option.filter_some, hbyId, hown]
  constructor
  · intro h
    obtain ⟨scope, hscope, -⟩ := except_bind_ok h
    rcases pluginScope_spec hscope with ⟨-, hnone | hadmin⟩ | ⟨s, rfl, hown, -⟩
    · rw [hrole] at hnone
      cases hnone
    · rw [hrole] at hadmin
      exact absurd (Option.some.inj hadmin) hsuper
    · rw [hfound s hscope hown] at h
      exact Option.filter_eq_some_iff.mp (Except.ok.inj h)
  · rintro ⟨horder, hown⟩
    obtain ⟨s, hs⟩ := pluginScope_of_own hrole hsuper huser hown
    rcases pluginScope_spec hs with ⟨hnone, -⟩ | ⟨s', hs', hholds, -⟩
    · cases hnone
    · cases hs'
      rw [hfound s hs hholds]
      exact congrArg Except.ok (Option.filter_eq_some_iff.mpr ⟨horder, hown⟩)

/-! ### Agreement of the two entry points -/

/-- The orders a user of this role, company and parent company reaches. -/
def Reaches (role : UserRole) (userId : Id) (companyId parent : Option Id) (o : Order) : Prop :=
  match role with
  | .superAdmin => True
  | .fuelCompanyAdmin => parent.or companyId = some o.fuelCompanyId
  | .transportCompanyAdmin =>
      parent = some o.fuelCompanyId ∧ o.transportCompanyId.isSome ∧ o.transportCompanyId = companyId
  | .client => parent.or companyId = some o.fuelCompanyId ∧ o.clientId = userId
  | .driver => parent.or companyId = some o.fuelCompanyId ∧ o.driverId = some userId

theorem names_map_id {d : Document} {f : String} {i : Option Id} :
    d.names f (i.map .id) = true ↔ ∃ id, i = some id ∧ d.get f = some (.objectId id) := by
  cases i <;> simp [Document.names]

theorem ownRecord_reaches {role : UserRole} {userId : Id} {companyId parent : Option Id}
    {o : OrderDocument} (hsuper : role ≠ .superAdmin) (hdriver : role ≠ .driver) :
    ownRecord .multiParty
      ⟨some (.id userId), some role, companyId.map .id, parent.map .id⟩ o.document = true ↔
      Reaches role userId companyId parent o.toOrder := by
  have hfuel : ∀ c : Option Id, (o.document.names "fuelCompanyId" (c.map .id) = true) ↔
      c = some o.fuelCompanyId := by
    intro c
    rw [names_map_id, document_fuelCompanyId]
    constructor
    · rintro ⟨id, rfl, heq⟩
      cases heq
      rfl
    · rintro rfl
      exact ⟨_, rfl, rfl⟩
  have hor : (parent.map IdString.id).or (companyId.map IdString.id) =
      (parent.or companyId).map IdString.id := by cases parent <;> rfl
  cases role with
  | superAdmin => exact absurd rfl hsuper
  | driver => exact absurd rfl hdriver
  | fuelCompanyAdmin =>
      simp [ownRecord, ownFields, fuelCompanyOf, Reaches, hor, hfuel]
  | transportCompanyAdmin =>
      have htransport : (o.document.names "transportCompanyId" (companyId.map .id) = true) ↔
          o.transportCompanyId.isSome ∧ o.transportCompanyId = companyId := by
        rw [names_map_id, document_transportCompanyId]
        cases companyId <;> cases o.transportCompanyId <;> simp [eq_comm]
      simp [ownRecord, ownFields, fuelCompanyOf, Reaches, hfuel, htransport]
  | client =>
      have hclient : (o.document.names "clientId" (some (.id userId)) = true) ↔
          o.clientId = userId := by
        simp [Document.names, document_clientId]
      simp [ownRecord, ownFields, fuelCompanyOf, Reaches, hor, hfuel, hclient]

/-- A read under either scope, for users who are no drivers. -/
theorem findVisible_reaches {role : UserRole} {userId : Id} {companyId parent : Option Id}
    {orders : Id → Option Order} {id : Id} {o : OrderDocument} (hdriver : role ≠ .driver) :
    findVisible ⟨some (.id userId), some role, companyId.map .id, parent.map .id⟩ orders id =
        .ok (some o) ↔
      (orders id).map (Order.withId · id) = some o ∧
        Reaches role userId companyId parent o.toOrder := by
  by_cases hsuper : role = .superAdmin
  · subst hsuper
    simp only [Reaches, and_true]
    constructor
    · intro h
      exact (Option.filter_eq_some_iff.mp (Except.ok.inj h)).1
    · intro h
      refine congrArg Except.ok (Option.filter_eq_some_iff.mpr ⟨h, ?_⟩)
      obtain ⟨x, -, rfl⟩ := Option.map_eq_some_iff.mp h
      simp [scopedFilter, document_id]
  · rw [findVisible_some rfl hsuper rfl, ownRecord_reaches hsuper hdriver]

theorem watch_ok {user : SessionUser} {orders : Id → Option Order} {id : Id}
    (hdriver : user.role ≠ .driver) :
    watch user orders id = .ok none ↔
      ∃ o, findVisible (toContext user) orders id = .ok (some o) ∧
        (user.role = .client → o.clientId = user.userId) ∧ trackable o.toOrder = true := by
  rw [watch, if_neg hdriver]
  cases hfind : findVisible (toContext user) orders id with
  | error e => simp [bind, Except.bind]
  | ok found =>
      cases found with
      | none => simp [bind, Except.bind, pure, Except.pure]
      | some o =>
          simp only [bind, Except.bind, pure, Except.pure, trackable, Bool.or_eq_true,
            decide_eq_true_eq, Except.ok.injEq, Option.some.injEq, exists_eq_left']
          split_ifs with hclient htrack
          · exact iff_of_false (by rintro ⟨⟩) fun h => hclient.2 (h.1 hclient.1)
          · exact iff_of_false (by rintro ⟨⟩) (by tauto)
          · exact iff_of_true rfl (by tauto)

theorem readOrder_ok {user : SessionUser} {orders : Id → Option Order} {id : Id}
    {o : OrderDocument} (hdriver : user.role ≠ .driver) :
    readOrder user orders id = .ok o ↔
      findVisible user.requestScope orders id = .ok (some o) ∧
        (user.role = .client → o.clientId = user.userId) := by
  rw [readOrder]
  cases hfind : findVisible user.requestScope orders id with
  | error e => simp [bind, Except.bind]
  | ok found =>
      cases found with
      | none => simp [bind, Except.bind, throw, throwThe, MonadExceptOf.throw]
      | some x =>
          cases hrole : user.role with
          | driver => exact absurd hrole hdriver
          | client =>
              by_cases howner : x.clientId = user.userId
              · simp only [bind, Except.bind, pure, Except.pure, howner, decide_true, if_true,
                  Except.ok.injEq, Option.some.injEq, true_implies]
                exact ⟨fun h => ⟨h, h ▸ howner⟩, And.left⟩
              · simp only [bind, Except.bind, howner, decide_false, throw, throwThe,
                  MonadExceptOf.throw, Except.ok.injEq, Option.some.injEq, true_implies]
                simp only [Bool.false_eq_true, if_false, reduceCtorEq, false_iff]
                rintro ⟨rfl, heq⟩
                exact howner heq
          | superAdmin => simp [bind, Except.bind, pure, Except.pure]
          | fuelCompanyAdmin => simp [bind, Except.bind, pure, Except.pure]
          | transportCompanyAdmin => simp [bind, Except.bind, pure, Except.pure]

/-- The socket lets the user follow the order exactly if REST returns it and it is on its way. -/
def FollowsAsRead (user : SessionUser) (orders : Id → Option Order) (id : Id) : Prop :=
  watch user orders id = .ok none ↔
    ∃ o, readOrder user orders id = .ok o ∧ trackable o.toOrder = true

/-- For this order it is all the same whether the user's parent company is passed on. -/
def ParentIrrelevant (user : SessionUser) (o : Order) : Prop :=
  match user.parentFuelCompanyId, user.role with
  | none, _ => True
  | some _, .superAdmin => True
  | some parent, .transportCompanyAdmin =>
      ¬ (o.fuelCompanyId = parent ∧ o.transportCompanyId.isSome ∧
        o.transportCompanyId = user.companyId)
  | some parent, .client =>
      o.clientId = user.userId → (o.fuelCompanyId = parent ↔ user.companyId = some o.fuelCompanyId)
  | some parent, _ => o.fuelCompanyId = parent ↔ user.companyId = some o.fuelCompanyId

/-- The socket's scope lacks the parent company: the two entry points agree exactly
on the orders that are not on their way and those for which it does not matter. -/
theorem watch_agrees_iff (user : SessionUser) (orders : Id → Option Order) (id : Id)
    (hdriver : user.role ≠ .driver) :
    FollowsAsRead user orders id ↔
      ∀ o, orders id = some o → trackable o = true → ParentIrrelevant user o := by
  have hwatch : ∀ o, findVisible (toContext user) orders id = .ok (some o) ↔
      (orders id).map (Order.withId · id) = some o ∧
        Reaches user.role user.userId user.companyId none o.toOrder :=
    fun o => @findVisible_reaches _ _ _ none _ _ o hdriver
  have hread : ∀ o, findVisible user.requestScope orders id = .ok (some o) ↔
      (orders id).map (Order.withId · id) = some o ∧
        Reaches user.role user.userId user.companyId user.parentFuelCompanyId o.toOrder :=
    fun o => findVisible_reaches hdriver
  simp only [FollowsAsRead, watch_ok hdriver, readOrder_ok hdriver, hwatch, hread]
  cases horder : orders id with
  | none => simp
  | some o =>
      simp only [Option.map_some, Option.some.injEq, forall_eq', and_assoc, exists_eq_left',
        Order.withId_toOrder]
      by_cases htrack : trackable o = true
      · simp only [htrack, and_true, true_implies]
        obtain ⟨⟨userId, role, companyId⟩, parent⟩ := user
        cases parent with
        | none => simp [ParentIrrelevant]
        | some parent =>
            cases role with
            | driver => exact absurd rfl hdriver
            | superAdmin => simp [ParentIrrelevant, Reaches]
            | fuelCompanyAdmin =>
                simp only [ParentIrrelevant, Reaches, Option.none_or, Option.some_or,
                  Option.some.injEq, eq_comm (a := parent)]
                tauto
            | transportCompanyAdmin =>
                simp only [ParentIrrelevant, Reaches, Option.some.injEq, eq_comm (a := parent)]
                simp
            | client =>
                simp only [ParentIrrelevant, Reaches, Option.none_or, Option.some_or,
                  Option.some.injEq, eq_comm (a := parent)]
                tauto
      · simp [htrack]

/-- The administrator of a transport company follows no order at all. -/
theorem watch_transport_fails {user : SessionUser} (hrole : user.role = .transportCompanyAdmin)
    (orders : Id → Option Order) (id : Id) : ∃ e, watch user orders id = .error e := by
  obtain ⟨e, hscope⟩ : ∃ e, pluginScope (toContext user) .multiParty = .error e := by
    simp only [pluginScope, scopeOf, resolveFilter, resolveFuelCompanyId, toContext, hrole]
    exact ⟨_, rfl⟩
  refine ⟨e, ?_⟩
  rw [watch, if_neg (by rw [hrole]; decide), findVisible, hscope]
  rfl

/-! ### An order on its way -/

/-- Routed by fuel company 10 to transport company 11. -/
def enRoute : Order where
  fuelCompanyId := 10
  transportCompanyId := some 11
  clientId := 20
  fuelType := .diesel
  quantityLiters := 1000
  deliveryLocation := ⟨46, 24⟩
  status := .inTransit
  estimatedPrice := 500
  driverId := some 30

theorem watch_agrees_iff_client :
    FollowsAsRead { userId := 20, role := .client, companyId := some 10 } (fun _ => some enRoute)
        100 ↔
      ∀ o, some enRoute = some o → trackable o = true →
        ParentIrrelevant { userId := 20, role := .client, companyId := some 10 } o :=
  watch_agrees_iff _ _ _ (by decide)

def transportAdmin : SessionUser where
  userId := 22
  role := .transportCompanyAdmin
  companyId := some 11
  parentFuelCompanyId := some 10

/-- The transport company's administrator reads the order and cannot follow it. -/
theorem transport_admin_cannot_watch :
    ¬ FollowsAsRead transportAdmin (fun _ => some enRoute) 100 := by
  intro h
  have hread : readOrder transportAdmin (fun _ => some enRoute) 100 = .ok (enRoute.withId 100) := rfl
  have hwatch := h.mpr ⟨_, hread, rfl⟩
  obtain ⟨e, hfail⟩ := watch_transport_fails (rfl : transportAdmin.role = .transportCompanyAdmin)
    (fun _ => some enRoute) 100
  rw [hfail] at hwatch
  cases hwatch

end CiroFuel
