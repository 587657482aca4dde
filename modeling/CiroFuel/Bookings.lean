import CiroFuel.Occupation

/-!
# Bookings agree with orders

A vehicle is booked for the order that names it, while that order is on its way.
Releases go by the document read before the transaction, and a swap does not look
at the status, so both can leave a vehicle behind. In runs where neither meets an
order that has changed in the meantime, a booking always has its order behind it.
-/
namespace CiroFuel
open Snapshot

/-- The call does not act on outdated bookings: a swap meets an order that still
occupies vehicles, and a release names the vehicles that the order occupies. -/
def Call.bookingCurrent (c : Call) (s : Db) : Bool :=
  match c with
  | .reassign order .. => (s.order order.id).all (·.status ∈ activeStatuses)
  | .cancel order .. | .complete order .. | .forceComplete order .. =>
      (s.order order.id).all fun o => o.truckId = order.truckId && o.tankId = order.tankId
  | _ => true

/-- Where a current call leaves an order without its vehicle, it has released it;
elsewhere the order is on its way as it was before, or is only now. -/
theorem OrderStep.current {cfg : Settings} {time : ℕ → Instant} {c : Call} {o o' : Order}
    (h : OrderStep cfg time c o o') {f : Resource} (hf : f ≠ .driver) {s : Db} {id : Id}
    (hid : c.subject = some id) (ho : s.order id = some o) (hcurrent : c.bookingCurrent s = true) :
    (o'.status ∉ activeStatuses ∧ c.books f = none ∧ c.releases f = o.resource f) ∨
    (o.status ∈ activeStatuses → o'.status ∈ activeStatuses) ∧
      (c.books f ≠ none → o'.status ∈ activeStatuses) := by
  have released : ∀ order : OrderDocument, o.truckId = order.truckId ∧ o.tankId = order.tankId →
      order.resource f = o.resource f := by
    rintro order ⟨htruck, htank⟩
    cases f with
    | driver => exact absurd rfl hf
    | truck => exact htruck.symm
    | tank => exact htank.symm
  cases h with
  | cancel =>
      cases hid
      refine Or.inl ⟨by simp [activeStatuses], by cases f <;> rfl, released _ ?_⟩
      simpa [Call.bookingCurrent, ho] using hcurrent
  | complete =>
      cases hid
      refine Or.inl ⟨by simp [activeStatuses], by cases f <;> rfl, released _ ?_⟩
      simpa [Call.bookingCurrent, ho] using hcurrent
  | forceComplete =>
      cases hid
      refine Or.inl ⟨by simp [activeStatuses], by cases f <;> rfl, released _ ?_⟩
      simpa [Call.bookingCurrent, ho] using hcurrent
  | reassign =>
      cases hid
      have hactive : o.status ∈ activeStatuses := by
        simpa [Call.bookingCurrent, ho] using hcurrent
      exact Or.inr ⟨fun _ => hactive, fun _ => hactive⟩
  | timeOut hstatus =>
      refine Or.inr ⟨by simp [hstatus, activeStatuses], fun hbooks => absurd ?_ hbooks⟩
      cases f <;> rfl
  | route hstatus hedge =>
      refine Or.inr ⟨fun hactive => ?_, fun hbooks => absurd (by cases f <;> rfl) hbooks⟩
      rw [hstatus] at hactive
      rename_i source _ _ _ _ _
      cases source <;> simp [permits, transitions, activeStatuses] at hedge hactive
  | assign hstatus => exact Or.inr ⟨by simp [activeStatuses], by simp [activeStatuses]⟩
  | depart hmatched hstage hstatus =>
      exact Or.inr ⟨by simp [activeStatuses], by simp [activeStatuses]⟩
  | attempt => exact Or.inr ⟨fun hactive => hactive, fun hbooks => absurd (by cases f <;> rfl) hbooks⟩
  | confirmInvoice => exact Or.inr ⟨fun hactive => hactive, fun hbooks => absurd (by cases f <;> rfl) hbooks⟩
  | replaceInvoice => exact Or.inr ⟨fun hactive => hactive, fun hbooks => absurd (by cases f <;> rfl) hbooks⟩
  | _ hstatus =>
      refine Or.inr ⟨by simp [hstatus, activeStatuses], fun hbooks => absurd ?_ hbooks⟩
      cases f <;> rfl

/-- A booked vehicle is booked for an order on its way. -/
def Booked (f : Resource) (s : Db) : Prop :=
  ∀ t id, f.booked s.docs t = some id → ∃ o, s.order id = some o ∧ o.status ∈ activeStatuses

section commit
variable {cfg : Settings} {since : Db} {ev : Event Doc Call.Reply} {f : Resource}

theorem commit_booked (hf : f ≠ .driver) (hev : ev.Sound (machine cfg))
    (holder : Store.Older ev.base ev.before)
    (hpre : (evolution cfg since).pre ev.label ev.base ev.began)
    (hcurrent : ev.label.bookingCurrent ev.before = true) (hbase : Occupied f ev.base)
    (hbefore : Occupied f ev.before) (h : Booked f ev.before) : Booked f ev.after := by
  intro t id hbooked
  have hold := booked_old hev holder hbooked
  rcases order_cases hev holder hpre id with ⟨hid, heq⟩ |
    ⟨o, o', hid, hob, ho, ho', -, hstep⟩ | ⟨fields, userId, hlabel, hnone, -⟩
  · rcases hold with hold | ⟨-, hown⟩
    · obtain ⟨o, ho, hactive⟩ := h t id hold
      exact ⟨o, heq.trans ho, hactive⟩
    · exact absurd hown hid
  · refine ⟨o', ho', ?_⟩
    rcases hstep.current hf hid ho hcurrent with ⟨-, hbooks, hreleases⟩ | ⟨hstays, hbooks⟩
    · exfalso
      -- The order's own vehicle was booked for it, and this call released it.
      have freed_own : ∀ s, Occupied f s → s.order id = some o → o.status ∈ activeStatuses →
          f.booked s.docs t = some id → ev.label.rebooked f t (f.booked s.docs t) = none := by
        intro s hs hso hactive hbooked
        obtain ⟨u, hu, hbooked'⟩ := hs.ofOrder id o hso hactive
        rw [Resource.booked_unique s.unique hbooked hbooked', Call.rebooked, hbooks, hreleases, hid,
          hbooked', hu, Call.clears_vehicle _ hf]
        simp [freed]
      rcases hold with hold | ⟨hbooks', -⟩
      · obtain ⟨o₁, ho₁, hactive⟩ := h t id hold
        cases ho₁.symm.trans ho
        rcases booked_cases hev holder f t with ⟨-, ha⟩ | ⟨hb, -⟩
        · rw [ha, freed_own _ hbefore ho hactive hold] at hbooked
          cases hbooked
        · have hbooked' := hbefore.agrees hbase ho hob hactive hold
          rw [freed_own _ hbase hob hactive hbooked', hbooked'] at hb
          cases hb
      · exact absurd (hbooks.symm.trans hbooks') (by simp)
    · rcases hold with hold | ⟨hbooks', -⟩
      · obtain ⟨o₁, ho₁, hactive⟩ := h t id hold
        cases ho₁.symm.trans ho
        exact hstays hactive
      · exact hbooks (by simp [hbooks'])
  · rcases hold with hold | ⟨-, hown⟩
    · obtain ⟨o, ho, -⟩ := h t id hold
      exact absurd (hnone.symm.trans ho) (by simp)
    · rw [hlabel] at hown
      cases hown

end commit

/-- In every run whose swaps and releases are current, a vehicle is booked for an
order only while that order is on its way and names it. -/
theorem bookings_agree {cfg : Settings} {log : List (Event Doc Call.Reply)}
    {s : Sys Doc Call.Reply Refusal Answer}
    (h : Run (machine cfg) Store.empty (fun ev => ev.label.bookingCurrent ev.before = true) log s)
    (id : Id) :
    (∀ t x, s.store.truck t = some x → x.activeOrderId = some id →
      ∃ o, s.store.order id = some o ∧ o.status ∈ activeStatuses ∧ o.truckId = some t) ∧
    (∀ t x, s.store.tank t = some x → x.activeOrderId = some id →
      ∃ o, s.store.order id = some o ∧ o.status ∈ activeStatuses ∧ o.tankId = some t) := by
  have agree : ∀ f : Resource, f ≠ .driver → ∀ t, f.booked s.store.docs t = some id →
      ∃ o, s.store.order id = some o ∧ o.status ∈ activeStatuses ∧ o.resource f = some t := by
    intro f hf t hbooked
    obtain ⟨hs, hrun⟩ := vehicles_occupied h hf
    have hagree : Booked f s.store := by
      refine (hrun.invariant (Booked f) (fun _ _ hnone => by cases hnone)
        fun ev hev hP _ hbefore => ?_).1
      exact commit_booked hf hev hP.2.1.older hP.2.1.pre hP.1 hP.2.2.1 hP.2.2.2 hbefore
    obtain ⟨o, ho, hactive⟩ := hagree t id hbooked
    obtain ⟨u, hu, hbooked'⟩ := hs.ofOrder id o ho hactive
    cases Resource.booked_unique s.store.unique hbooked hbooked'
    exact ⟨o, ho, hactive, hu⟩
  refine ⟨fun t x hx hid => ?_, fun t x hx hid => ?_⟩
  · exact agree .truck (by simp) t (Option.bind_eq_some_iff.mpr ⟨x, hx, hid⟩)
  · exact agree .tank (by simp) t (Option.bind_eq_some_iff.mpr ⟨x, hx, hid⟩)

namespace Sample

/-- The order is moved to the other truck and tank. -/
def swappedInTime : List (Act Request) :=
  paidDelivery ++ serve (.reassign transportAdmin 100 41 51) 14 3

/-- The order is cancelled between a swap's check of its status and the swap. -/
def swappedAfterCancel : List (Act Request) :=
  paidDelivery ++ [Act.arrive (Request.reassign transportAdmin 100 41 51), .step 14] ++
    serve (.cancel fuelAdmin 100 none) 15 8 ++ List.replicate 2 (Act.step 14)

end Sample

theorem bookings_agree_swappedInTime :
    ∃ log s x o, Run (machine Sample.cfg) Store.empty
        (fun ev => ev.label.bookingCurrent ev.before = true) log s ∧
      s.store.truck 41 = some x ∧ x.activeOrderId = some 100 ∧
      s.store.order 100 = some o ∧ o.status ∈ activeStatuses ∧ o.truckId = some 41 := by
  obtain ⟨log, s, hrun, htest⟩ := exists_run (machine Sample.cfg) Store.empty
    (fun ev => ev.label.bookingCurrent ev.before = true) Sample.swappedInTime
    (fun _ s => (s.store.truck 41).any fun x => x.activeOrderId = some 100) (by decide +kernel)
  obtain ⟨x, hx, hid⟩ := (Option.any_eq_true _ _).mp htest
  obtain ⟨o, ho, hactive, htruck⟩ := (bookings_agree hrun 100).1 41 x hx (of_decide_eq_true hid)
  exact ⟨log, s, x, o, hrun, hx, of_decide_eq_true hid, ho, hactive, htruck⟩

theorem bookings_agree_swappedAfterCancel :
    ¬ ∀ (log : List (Event Doc Call.Reply)) (s : Sys Doc Call.Reply Refusal Answer),
      Run (machine Sample.cfg) Store.empty (fun _ => True) log s →
      ∀ id t x, s.store.truck t = some x → x.activeOrderId = some id →
        ∃ o, s.store.order id = some o ∧ o.status ∈ activeStatuses ∧ o.truckId = some t := by
  intro hclaim
  obtain ⟨log, s, hrun, htest⟩ := exists_run (machine Sample.cfg) Store.empty (fun _ => True)
    Sample.swappedAfterCancel
    (fun _ s => ((s.store.truck 41).any fun x => x.activeOrderId = some 100) &&
      (s.store.order 100).all fun o => o.status = .cancelled) (by decide +kernel)
  obtain ⟨hbooked, hcancelled⟩ := Bool.and_eq_true_iff.mp htest
  obtain ⟨x, hx, hid⟩ := (Option.any_eq_true _ _).mp hbooked
  obtain ⟨o, ho, hactive, -⟩ := hclaim log s hrun 100 41 x hx (of_decide_eq_true hid)
  have hstatus : o.status = .cancelled := by simpa [ho] using hcancelled
  simp [hstatus, activeStatuses] at hactive

end CiroFuel
