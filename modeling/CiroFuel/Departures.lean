import CiroFuel.Reachable

/-!
# Verification behind every departure

An order leaves for loading, and leaves loading, on a verification of its truck
or on an override that says so. A verification compares the presented truck with
the one the order named when it was read; the vehicle of an order may be swapped
by a handler that read it earlier still. As long as neither acts on an outdated
order, the record matches the truck the order names now.
-/
namespace CiroFuel
open Snapshot

/-- The statuses an order has from its departure on, or after being cancelled. -/
def departedStatuses : List OrderStatus :=
  [.loading, .inTransit, .unloading, .delivered, .cancelled]

theorem departed_stays (a b : OrderStatus) (override : Bool) (ha : a ∈ departedStatuses)
    (h : permits a b override = true) : b ∈ departedStatuses := by
  have hall : ∀ a ∈ departedStatuses, ∀ override, permits a b override = true →
      b ∈ departedStatuses := by
    cases b <;> decide
  exact hall a ha override h

namespace Order

/-- A verification on record was passed by the truck the order names. -/
def PassedBy (o : Order) (v : VehicleVerification) : Prop :=
  v.matched = true ∧ v.presentedTruckId.isSome = true ∧ v.presentedTruckId = o.truckId

/-- The transition was overridden, or the stage is verified for the order's truck. -/
def Backed (o : Order) (e : StatusHistoryEntry) (stage : VerificationStage) : Prop :=
  e.manualOverride = true ∨ ∃ v ∈ o.verifications, v.stage = stage ∧ o.PassedBy v

/-- Both departures on record are backed. -/
def DeparturesBacked (o : Order) : Prop :=
  ∀ e ∈ o.statusHistory,
    (e.source = .assignedToDriver → e.target = .loading → o.Backed e .departure) ∧
    (e.source = .loading → e.target = .inTransit → o.Backed e .loading)

/-- Departures are backed, and before the first nothing of them is on record. -/
structure Verified (o : Order) : Prop where
  departures : ∀ e ∈ o.statusHistory, e.source = .assignedToDriver → e.target = .loading →
    o.Backed e .departure
  loadings : ∀ e ∈ o.statusHistory, e.source = .loading → e.target = .inTransit →
    o.Backed e .loading
  entered : ∀ e ∈ o.statusHistory, e.target ∈ departedStatuses → o.status ∈ departedStatuses
  loaded : ∀ v ∈ o.verifications, v.stage = .loading → v.matched = true →
    o.status ∈ departedStatuses ∧ o.PassedBy v

theorem Backed.grow {o o' : Order} {e : StatusHistoryEntry} {stage : VerificationStage}
    (h : o.Backed e stage) (htruck : o'.truckId = o.truckId)
    (hverifications : o.verifications <+: o'.verifications) : o'.Backed e stage := by
  rcases h with hover | ⟨v, hv, hstage, hmatched, hsome, htruck'⟩
  · exact Or.inl hover
  · exact Or.inr ⟨v, hverifications.subset hv, hstage, hmatched, hsome, htruck'.trans htruck.symm⟩

/-- A step that keeps the truck needs backing for its own entries and attempts only. -/
theorem Verified.step {o o' : Order} (h : o.Verified) (htruck : o'.truckId = o.truckId)
    (es : List StatusHistoryEntry) (hhistory : o'.statusHistory = o.statusHistory ++ es)
    (hleads : o.status ∈ departedStatuses → o'.status ∈ departedStatuses)
    (hverifications : o.verifications <+: o'.verifications)
    (hloaded : ∀ v ∈ o'.verifications, v.stage = .loading → v.matched = true →
      v ∈ o.verifications ∨ (o'.status ∈ departedStatuses ∧ o'.PassedBy v))
    (hes : ∀ e ∈ es, (e.target ∈ departedStatuses → o'.status ∈ departedStatuses) ∧
      (e.source = .assignedToDriver → e.target = .loading → o'.Backed e .departure) ∧
      (e.source = .loading → e.target = .inTransit → o'.Backed e .loading)) : o'.Verified where
  departures := by
    intro e he hsource htarget
    rw [hhistory] at he
    rcases List.mem_append.mp he with hold | hnew
    · exact (h.departures e hold hsource htarget).grow htruck hverifications
    · exact (hes e hnew).2.1 hsource htarget
  loadings := by
    intro e he hsource htarget
    rw [hhistory] at he
    rcases List.mem_append.mp he with hold | hnew
    · exact (h.loadings e hold hsource htarget).grow htruck hverifications
    · exact (hes e hnew).2.2 hsource htarget
  entered := by
    intro e he htarget
    rw [hhistory] at he
    rcases List.mem_append.mp he with hold | hnew
    · exact hleads (h.entered e hold htarget)
    · exact (hes e hnew).1 htarget
  loaded := by
    intro v hv hstage hmatched
    rcases hloaded v hv hstage hmatched with hold | hnew
    · obtain ⟨hstatus, hpassed⟩ := h.loaded v hold hstage hmatched
      exact ⟨hleads hstatus, hpassed.1, hpassed.2.1, hpassed.2.2.trans htruck.symm⟩
    · exact hnew

/-- A step that leaves status, truck and attempts alone. -/
theorem Verified.same {o o' : Order} (h : o.Verified) (hstatus : o'.status = o.status)
    (htruck : o'.truckId = o.truckId) (hhistory : o'.statusHistory = o.statusHistory)
    (hverifications : o'.verifications = o.verifications) : o'.Verified := by
  refine h.step htruck [] (by simp [hhistory]) (by simp [hstatus])
    (by simp [hverifications]) (fun v hv _ _ => Or.inl (hverifications ▸ hv)) ?_
  simp

/-- A transition that keeps truck and attempts needs backing where it departs. -/
theorem Verified.moved {o : Order} (h : o.Verified) {source target : OrderStatus}
    {actor : TransitionActor} {options : TransitionOptions} {at_ : Instant}
    (hstatus : o.status = source)
    (hedge : permits source target options.manualOverride = true)
    (htruck : (o.moved source target actor options at_).truckId = o.truckId)
    (hverifications : (o.moved source target actor options at_).verifications = o.verifications)
    (hdeparture : source = .assignedToDriver → target = .loading → options.manualOverride = true ∨
      ∃ v ∈ o.verifications, v.stage = .departure ∧ o.PassedBy v)
    (hloading : source = .loading → target = .inTransit → options.manualOverride = true ∨
      ∃ v ∈ o.verifications, v.stage = .loading ∧ o.PassedBy v) :
    (o.moved source target actor options at_).Verified := by
  have hprefix : o.verifications <+: (o.moved source target actor options at_).verifications := by
    simp [hverifications]
  refine h.step htruck _ (Order.moved_statusHistory _ _ _ _ _ _) (fun hdeparted => ?_) hprefix
    (fun v hv _ _ => Or.inl (hverifications ▸ hv)) fun e he => ?_
  · rw [Order.moved_status]
    exact departed_stays _ _ _ (hstatus ▸ hdeparted) hedge
  · rw [List.mem_singleton.mp he]
    refine ⟨fun htarget => by rwa [Order.moved_status], fun hsource htarget => ?_,
      fun hsource htarget => ?_⟩
    · exact Backed.grow (o := o) (hdeparture hsource htarget) htruck hprefix
    · exact Backed.grow (o := o) (hloading hsource htarget) htruck hprefix

/-- Before its departure an order has nothing on record that names a truck. -/
theorem Verified.before {o o' : Order} (h : o.Verified) (hstatus : o.status ∉ departedStatuses)
    {es : List StatusHistoryEntry} (hhistory : o'.statusHistory = o.statusHistory ++ es)
    (hes : ∀ e ∈ es, e.target ∉ departedStatuses)
    (hverifications : o'.verifications = o.verifications) : o'.Verified := by
  have hnone : ∀ e ∈ o'.statusHistory, e.target ∉ departedStatuses := by
    intro e he
    rw [hhistory] at he
    rcases List.mem_append.mp he with hold | hnew
    · exact fun htarget => hstatus (h.entered e hold htarget)
    · exact hes e hnew
  refine ⟨fun e he _ htarget => ?_, fun e he _ htarget => ?_,
    fun e he htarget => absurd htarget (hnone e he), fun v hv hstage hmatched => ?_⟩
  · exact absurd (by simp [htarget, departedStatuses]) (hnone e he)
  · exact absurd (by simp [htarget, departedStatuses]) (hnone e he)
  · rw [hverifications] at hv
    exact absurd (h.loaded v hv hstage hmatched).1 hstatus

theorem verified_create (fields : OrderFields) : fields.order.Verified where
  departures := fun e he => by cases he
  loadings := fun e he => by cases he
  entered := fun e he => by cases he
  loaded := fun v hv => by cases hv

end Order

/-- Every step keeps departures backed, if vehicles are swapped before the
departure, attempts are judged by the order's truck, and loading is confirmed on
a loading attempt. -/
theorem OrderStep.verified {cfg : Settings} {time : ℕ → Instant} {c : Call} {o o' : Order}
    (h : OrderStep cfg time c o o') (ho : o.Verified)
    (hreassign : ∀ order truckId tankId, c = .reassign order truckId tankId →
      o.status = .assignedToDriver)
    (hverify : ∀ order attempt actor, c = .verify order attempt actor → attempt.matched = true →
      o.PassedBy attempt ∧ (attempt.stage = .loading → o.status ∈ departedStatuses))
    (hconfirm : ∀ order actor at_, c = .confirmLoading order actor at_ →
      ∃ v ∈ o.verifications, v.stage = .loading ∧ v.matched = true) : o'.Verified := by
  cases h with
  | route hstatus hedge =>
      rename_i order source transportCompanyId deliveryFee actor invoiceId n
      obtain ⟨priceBreakdown, finalPrice, heq⟩ := Order.awaiting_eq cfg o order.id source
        transportCompanyId deliveryFee actor invoiceId (time n) (time (n + 1)) (time (n + 2))
        (time (n + 3))
      rw [heq]
      refine ho.before ?_ (List.append_assoc _ _ _) (by simp [departedStatuses]) rfl
      rw [hstatus]
      cases source <;> simp [permits, transitions, departedStatuses] at hedge ⊢
  | assign hstatus =>
      rename_i order a driver truck tank client n
      obtain ⟨clientSummary, ineligible, reason, heq⟩ :=
        Order.assigned_eq o a driver truck tank client (time n)
      rw [heq]
      exact ho.before (by simp [hstatus, departedStatuses]) rfl (by simp [departedStatuses]) rfl
  | reassign =>
      have hstatus := hreassign _ _ _ rfl
      exact ho.before (by simp [hstatus, departedStatuses]) (List.append_nil _).symm (by simp) rfl
  | depart hmatched hstage hstatus =>
      rename_i order attempt actor n
      obtain ⟨hpassed, -⟩ := hverify _ _ _ rfl hmatched
      have hrecorded : Order.Verified { o with verifications := o.verifications ++ [attempt] } := by
        refine ho.step rfl [] (List.append_nil _).symm id (List.prefix_append _ _) ?_ (by simp)
        intro v hv hloading _
        rcases List.mem_append.mp hv with hold | hnew
        · exact Or.inl hold
        · rw [List.mem_singleton.mp hnew, hstage] at hloading
          cases hloading
      refine hrecorded.moved hstatus rfl rfl rfl (fun _ _ => Or.inr ?_) (by simp)
      exact ⟨attempt, by simp, hstage, hpassed⟩
  | attempt hstays =>
      rename_i order attempt actor
      refine ho.step rfl [] (List.append_nil _).symm id (List.prefix_append _ _) ?_ (by simp)
      intro v hv hloading hmatched
      rcases List.mem_append.mp hv with hold | hnew
      · exact Or.inl hold
      · rw [List.mem_singleton.mp hnew] at hloading hmatched ⊢
        obtain ⟨hpassed, hdeparted⟩ := hverify _ _ _ rfl hmatched
        exact Or.inr ⟨hdeparted hloading, hpassed⟩
  | confirmLoading hstatus =>
      refine ho.moved hstatus rfl rfl rfl (by simp) fun _ _ => Or.inr ?_
      obtain ⟨v, hv, hstage, hmatched⟩ := hconfirm _ _ _ rfl
      exact ⟨v, hv, hstage, (ho.loaded v hv hstage hmatched).2⟩
  | overrideDeparture hstatus => exact ho.moved hstatus rfl rfl rfl (by simp) (by simp)
  | overrideLoading hstatus => exact ho.moved hstatus rfl rfl rfl (by simp) (by simp)
  | confirmInvoice => exact ho.same rfl rfl rfl rfl
  | replaceInvoice => exact ho.same rfl rfl rfl rfl
  | cancel hstatus hedge => exact ho.moved hstatus hedge rfl rfl (by simp) (by simp)
  | forceComplete hstatus hedge => exact ho.moved hstatus hedge rfl rfl (by simp) (by simp)
  | _ hstatus => exact ho.moved hstatus rfl rfl rfl (by simp) (by simp)

/-- The call does not act on an outdated vehicle: a swap finds the order awaiting
departure, and a matched attempt was compared with the truck the order names. -/
def Call.vehicleCurrent (c : Call) (s : Db) : Bool :=
  match c with
  | .reassign order _ _ => (s.order order.id).all (·.status = .assignedToDriver)
  | .verify order attempt _ =>
      !attempt.matched || (s.order order.id).all (·.truckId = order.truckId)
  | _ => true

/-- In every run whose swaps and matched attempts are current, both departures of
every order are overridden or backed by a verification of the truck it names. -/
theorem departures_verified {cfg : Settings} {log : List (Event Doc Call.Reply)}
    {s : Sys Doc Call.Reply Refusal Answer}
    (h : Run (machine cfg) Store.empty (fun ev => ev.label.vehicleCurrent ev.before = true) log s)
    {id : Id} {o : Order} (ho : s.store.order id = some o) : o.DeparturesBacked := by
  have keep : ∀ ev id o o', ev.Sound (machine cfg) → ev.label.vehicleCurrent ev.before = true →
      (evolution cfg Store.empty).Holds ev → ev.label.subject = some id →
      ev.before.order id = some o → OrderStep cfg ev.env.time ev.label o o' →
      o.Verified → o'.Verified := by
    intro ev id o o' hev hcurrent hholds hid hbefore hstep hverified
    obtain ⟨o₁, -, hbase, hbefore₁, -⟩ := subject_step hev hholds.older hholds.pre hid
    cases hbefore₁.symm.trans hbefore
    have hpre := hholds.pre
    refine hstep.verified hverified (fun order truckId tankId hlabel => ?_)
      (fun order attempt actor hlabel hmatched => ?_) fun order actor at_ hlabel => ?_
    · rw [hlabel] at hid hcurrent
      cases hid
      simpa [Call.vehicleCurrent, hbefore] using hcurrent
    · rw [hlabel] at hid hcurrent hpre
      cases hid
      obtain ⟨hread, hstage, hpassed⟩ := hpre
      obtain ⟨hsome, htruck⟩ := hpassed hmatched
      have hsame : o.truckId = order.truckId := by
        simpa [Call.vehicleCurrent, hbefore, hmatched] using hcurrent
      refine ⟨⟨hmatched, hsome, htruck.trans hsame.symm⟩, fun hloading => ?_⟩
      obtain ⟨o₂, ho₂, hevolves⟩ := (hread order rfl).earlier
      cases ho₂.symm.trans hbase
      -- The attempt was for loading because the order read was loading.
      have hdoc : order.status = .loading := by
        unfold resolveOutstandingStage at hstage
        split at hstage
        · simp [hloading] at hstage
        · assumption
        · cases hstage
      exact hevolves.closed departed_stays (by simp [hdoc, departedStatuses])
    · rw [hlabel] at hid hpre
      cases hid
      obtain ⟨hread, v, hv, hstage, hmatched⟩ := hpre
      obtain ⟨o₂, ho₂, hevolves⟩ := (hread order rfl).earlier
      cases ho₂.symm.trans hbase
      exact ⟨v, hevolves.verifications.subset hv, hstage, hmatched⟩
  obtain ⟨hall, -⟩ := orders_invariant (I := fun _ o => o.Verified) consistent_empty
    (fun id o ho => by cases ho) (fun _ fields => Order.verified_create fields) keep h
  exact fun e he => ⟨(hall id o ho).departures e he, (hall id o ho).loadings e he⟩

namespace Sample

/-- The driver presents the truck of the order. -/
def verifiedDeparture : List (Act Request) :=
  paidDelivery ++ serve (.verifyVehicle driver 100 (some 40) .nfcCard none) 14 5

/-- The vehicle is swapped between the driver's comparison and its record. -/
def swappedVehicle : List (Act Request) :=
  paidDelivery ++ [Act.arrive (Request.verifyVehicle driver 100 (some 40) .nfcCard none), .step 14] ++
    serve (.reassign transportAdmin 100 41 51) 15 3 ++ List.replicate 4 (Act.step 14)

end Sample

theorem departures_verified_verifiedDeparture :
    ∃ log s o e, Run (machine Sample.cfg) Store.empty
        (fun ev => ev.label.vehicleCurrent ev.before = true) log s ∧
      s.store.order 100 = some o ∧ e ∈ o.statusHistory ∧ e.source = .assignedToDriver ∧
      e.target = .loading ∧ o.Backed e .departure := by
  obtain ⟨log, s, hrun, htest⟩ := exists_run (machine Sample.cfg) Store.empty
    (fun ev => ev.label.vehicleCurrent ev.before = true) Sample.verifiedDeparture
    (fun _ s => (s.store.order 100).any fun o => o.statusHistory.any fun e =>
      e.source = .assignedToDriver && e.target = .loading) (by decide +kernel)
  obtain ⟨o, ho, hentry⟩ := (Option.any_eq_true _ _).mp htest
  obtain ⟨e, he, hends⟩ := List.any_eq_true.mp hentry
  simp only [Bool.and_eq_true, decide_eq_true_eq] at hends
  exact ⟨log, s, o, e, hrun, ho, he, hends.1, hends.2,
    (departures_verified hrun ho e he).1 hends.1 hends.2⟩

theorem departures_verified_swappedVehicle :
    ¬ ∀ (log : List (Event Doc Call.Reply)) (s : Sys Doc Call.Reply Refusal Answer),
      Run (machine Sample.cfg) Store.empty (fun _ => True) log s →
      ∀ id o, s.store.order id = some o → o.DeparturesBacked := by
  intro hclaim
  obtain ⟨log, s, hrun, htest⟩ := exists_run (machine Sample.cfg) Store.empty (fun _ => True)
    Sample.swappedVehicle
    (fun _ s => (s.store.order 100).any fun o => o.truckId = some 41 &&
      (o.verifications.all fun v => v.presentedTruckId = some 40) &&
      o.statusHistory.any fun e =>
        e.source = .assignedToDriver && e.target = .loading && !e.manualOverride)
    (by decide +kernel)
  obtain ⟨o, ho, htest⟩ := (Option.any_eq_true _ _).mp htest
  simp only [Bool.and_eq_true, decide_eq_true_eq, List.all_eq_true] at htest
  obtain ⟨⟨htruck, hpresented⟩, hentry⟩ := htest
  obtain ⟨e, he, hends⟩ := List.any_eq_true.mp hentry
  simp only [Bool.and_eq_true, decide_eq_true_eq, Bool.not_eq_true'] at hends
  rcases (hclaim log s hrun 100 o ho e he).1 hends.1.1 hends.1.2 with hover |
    ⟨v, hv, -, -, -, hpassed⟩
  · rw [hends.2] at hover
    cases hover
  · rw [hpresented v hv, htruck] at hpassed
    cases hpassed

end CiroFuel
