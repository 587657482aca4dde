import CiroFuel.Stops.Detection
import CiroFuel.Snapshot.Single

/-!
# What a commit does to the orders

A commit pushes one stop, marks one stop, moves one order to another status, or
leaves stops and statuses alone. The condition of each write is read off the
order that the write meets, also where a session has worked on an older one.
-/
namespace CiroFuel.Stops
open Snapshot

def order (s : Store Doc) (id : Id) : Option Order := s.find (Key.order id)

/-- The order was `o` and is `o'`, and the others are as they were. -/
structure Rewrites (s s' : Store Doc) (id : Id) (o o' : Order) : Prop where
  before : order s id = some o
  after : order s' id = some o'
  others : ∀ id', id' ≠ id → order s' id' = order s id'

/-- What the writes never take back. -/
structure Continues (stop stop' : StopEvent) : Prop where
  id : stop'.id = stop.id
  answered : stop.reasonGivenAt.isSome → stop'.reasonGivenAt.isSome
  resolved : stop.resolvedAt.isSome → stop'.resolvedAt.isSome
  escalated : stop.escalatedAt.isSome → stop'.escalatedAt.isSome

theorem Continues.refl (stop : StopEvent) : Continues stop stop := by
  constructor
  · rfl
  · exact fun h => h
  · exact fun h => h
  · exact fun h => h

theorem Continues.trans {a b c : StopEvent} (h : Continues a b) (h' : Continues b c) :
    Continues a c where
  id := h'.id.trans h.id
  answered ha := h'.answered (h.answered ha)
  resolved ha := h'.resolved (h.resolved ha)
  escalated ha := h'.escalated (h.escalated ha)

/-! ### Labels -/

inductive Mark where
  | answered | resolved | claimed
deriving DecidableEq, Repr

namespace Mark

/-- The stop carries the mark. -/
def on : Mark → StopEvent → Bool
  | .answered, stop => stop.reasonGivenAt.isSome
  | .resolved, stop => stop.resolvedAt.isSome
  | .claimed, stop => stop.escalatedAt.isSome

/-- The condition under which a write sets the mark. -/
def free : Mark → Id → StopEvent → Bool
  | .answered => unanswered
  | .resolved => unresolved
  | .claimed => unclaimed

theorem stays {m : Mark} {stop stop' : StopEvent} (h : Continues stop stop')
    (hm : m.on stop = true) : m.on stop' = true := by
  cases m with
  | answered => exact h.answered hm
  | resolved => exact h.resolved hm
  | claimed => exact h.escalated hm

theorem free_id {m : Mark} {stopId : Id} {stop : StopEvent} (h : m.free stopId stop = true) :
    stop.id = stopId := by
  cases m with
  | answered => simp only [free, unanswered, Bool.and_eq_true, decide_eq_true_eq] at h; exact h.1
  | resolved => simp only [free, unresolved, Bool.and_eq_true, decide_eq_true_eq] at h; exact h.1
  | claimed => simp only [free, unclaimed, Bool.and_eq_true, decide_eq_true_eq] at h; exact h.1.1.1

end Mark

namespace Call

/-- The order, the instant of the condition, and the stop that was pushed. -/
def pushes : (c : Call) → c.Reply → Option (Id × Instant × StopEvent)
  | .raiseStop orderId now detectedAt location, some stopId =>
      some (orderId, now, detectedStop stopId detectedAt location)
  | .declareStop orderId _ now input, some stopId =>
      some (orderId, now, declaredStop stopId now input)
  | .reportBlocked orderId _ now location input, some stopId =>
      some (orderId, now, blockedStop stopId now location input)
  | _, _ => none

/-- The order, the stop and its mark. -/
def marks : (c : Call) → c.Reply → Option (Id × Id × Mark)
  | .submitReason orderId _ stopId _ _, true => some (orderId, stopId, .answered)
  | .resolveByAdmin orderId stopId _ _, true => some (orderId, stopId, .resolved)
  | .claim order stopId _, true => some (order.id, stopId, .claimed)
  | _, _ => none

/-- The order, where it comes from and where it goes, and whether that is an override. -/
def moves : Call → Option (Id × OrderStatus × OrderStatus × Bool)
  | .transition orderId source target manualOverride =>
      some (orderId, source, target, manualOverride)
  | .cancel order source => some (order.id, source, .cancelled, false)
  | .completeDelivery order => some (order.id, .unloading, .delivered, false)
  | .forceComplete order source => some (order.id, source, .delivered, true)
  | _ => none

end Call

/-- What a commit does to the orders. -/
inductive CallStep (s s' : Store Doc) : (c : Call) → c.Reply → Prop where
  | kept {c : Call} {r : c.Reply} (hpush : c.pushes r = none) (hmark : c.marks r = none)
      (hmove : c.moves = none) (hsame : ∀ id, order s' id = order s id) : CallStep s s' c r
  | created {id company : Id} {r : Unit} (hnew : order s id = none)
      (hself : order s' id = some ⟨.pendingApproval, company, none, none, []⟩)
      (hothers : ∀ id', id' ≠ id → order s' id' = order s id') :
      CallStep s s' (.createOrder id company) r
  | handed {id : Id} {t d : Option Id} {o : Order}
      (h : Rewrites s s' id o { o with transportCompanyId := t, driverId := d }) :
      CallStep s s' (.setParties id t d) true
  | pushed {c : Call} {r : c.Reply} {id : Id} {now : Instant} {stop : StopEvent} {o : Order}
      (hpush : c.pushes r = some (id, now, stop)) (hclear : o.clear now = true)
      (hnew : ∀ e ∈ o.stopEvents, e.id ≠ stop.id) (h : Rewrites s s' id o (o.push stop)) :
      CallStep s s' c r
  | marked {c : Call} {r : c.Reply} {id stopId : Id} {m : Mark} {o : Order}
      {set : StopEvent → StopEvent} (hmark : c.marks r = some (id, stopId, m))
      (hset : ∀ e, Continues e (set e) ∧ m.on (set e) = true)
      (hfree : ∃ e ∈ o.stopEvents, m.free stopId e = true)
      (h : Rewrites s s' id o (o.setStop (m.free stopId) set)) : CallStep s s' c r
  | moved {c : Call} {r : c.Reply} {id : Id} {target : OrderStatus} {b : Bool} {o : Order}
      (hmove : c.moves = some (id, o.status, target, b))
      (hpermits : permits o.status target b = true)
      (h : Rewrites s s' id o { o with status := target }) : CallStep s s' c r

/-! ### Bodies -/

section bodies
variable {env : Env} {v w : View Doc} {id : Id}

theorem transition_ok {source target : OrderStatus} {b : Bool} {r : OrderDocument}
    (h : (transition id source target b).run env v = .ok (r, w)) :
    ∃ o : Order, v.find (Key.order id) = some o ∧ o.status = source ∧
      permits source target b = true ∧ w = v.put (Key.order id) { o with status := target } := by
  unfold transition at h
  split at h
  · exact (Tx.throw_ok h).elim
  · rename_i rule hrule
    split_ifs at h with hoverride
    · exact (Tx.throw_ok h).elim
    · obtain ⟨updated, u, hu, hrest⟩ := Tx.bind_ok h
      rcases Tx.findOneAndUpdate_ok hu with ⟨o, ho, hstatus, -, rfl, rfl⟩ | ⟨rfl, rfl, -⟩
      · obtain ⟨-, rfl⟩ := Tx.pure_ok hrest
        refine ⟨o, ho, of_decide_eq_true hstatus, ?_, rfl⟩
        simp only [permits, hrule]
        cases hr : rule.requiresManualOverride with
        | false => rfl
        | true => simpa [hr] using hoverride
      · obtain ⟨existing, u, -, hrefusal⟩ := Tx.bind_ok hrest
        cases existing with
        | none => exact (Tx.throw_ok hrefusal).elim
        | some o => exact (Tx.throw_ok hrefusal).elim

theorem release_ok {o : OrderDocument} {r : Unit}
    (h : (releaseDriverIfAssigned o).run env v = .ok (r, w)) (id : Id) :
    w.find (Key.order id) = v.find (Key.order id) := by
  unfold releaseDriverIfAssigned at h
  split at h
  · obtain ⟨-, rfl⟩ := Tx.pure_ok h
    rfl
  · obtain ⟨_, u, hu, h⟩ := Tx.bind_ok h
    obtain ⟨-, rfl⟩ := Tx.pure_ok h
    rcases Tx.updateOne_ok hu with ⟨x, -, -, -, -, rfl⟩ | ⟨-, rfl, -⟩
    · exact View.find_put_ne _ _ (by simp)
    · rfl

theorem pushStop_ok {filter : Order → Bool} {stop : Id → StopEvent} {r : Option Id}
    (h : (pushStop id filter stop).run env v = .ok (r, w)) :
    (∃ stopId, ∃ o : Order, r = some stopId ∧ v.find (Key.order id) = some o ∧ filter o = true ∧
      (∀ e ∈ o.stopEvents, e.id ≠ stopId) ∧ Key.order id ∈ w.writes ∧
      ∀ k, w.find k = (v.put (Key.order id) (o.push (stop stopId))).find k) ∨
    (r = none ∧ ∀ k, w.find k = v.find k) := by
  obtain ⟨stopId, u, hid, h⟩ := Tx.bind_ok h
  obtain ⟨-, rfl⟩ := Tx.freshId_ok hid
  obtain ⟨found, u, hfound, h⟩ := Tx.bind_ok h
  obtain ⟨rfl, rfl⟩ := Tx.find_ok hfound
  split_ifs at h with htaken
  · cases h
  · obtain ⟨pushed, u, hu, h⟩ := Tx.bind_ok h
    obtain ⟨rfl, rfl⟩ := Tx.pure_ok h
    rcases Tx.updateOne_ok hu with ⟨o, ho, hfilter, -, rfl, rfl⟩ | ⟨rfl, rfl, -⟩
    · left
      refine ⟨stopId, o, rfl, ho, hfilter, ?_, View.mem_put_self _ _ _, fun _ => rfl⟩
      intro e he heq
      apply htaken
      rw [ho]
      exact List.any_eq_true.mpr ⟨e, he, decide_eq_true heq⟩
    · exact Or.inr ⟨rfl, fun _ => rfl⟩

theorem updateStop_ok {filter : Order → Bool} {elemMatch : StopEvent → Bool}
    {set : StopEvent → StopEvent} {r : Bool}
    (h : (updateStop id filter elemMatch set).run env v = .ok (r, w)) :
    (∃ o : Order, r = true ∧ v.find (Key.order id) = some o ∧
      (∃ e ∈ o.stopEvents, elemMatch e = true) ∧
      w = v.put (Key.order id) (o.setStop elemMatch set)) ∨ (r = false ∧ w = v) := by
  rcases Tx.updateOne_ok h with ⟨o, ho, hfilter, -, rfl, rfl⟩ | ⟨rfl, rfl, -⟩
  · have hany := (Bool.and_eq_true_iff.mp hfilter).2
    exact Or.inl ⟨o, rfl, ho, List.any_eq_true.mp hany, rfl⟩
  · exact Or.inr ⟨rfl, rfl⟩

end bodies

/-! ### Commits -/

section marks
variable {e : StopEvent}

theorem answer_marks (now : Instant) (input : SubmitStopReasonDto) (e : StopEvent) :
    Continues e (answer now input e) ∧ Mark.answered.on (answer now input e) = true := by
  refine ⟨⟨rfl, fun _ => rfl, fun _ => rfl, fun h => h⟩, rfl⟩

theorem resolve_marks (resolvedAt : Instant) (adminUserId : Id) (e : StopEvent) :
    Continues e (resolve resolvedAt adminUserId e) ∧
      Mark.resolved.on (resolve resolvedAt adminUserId e) = true := by
  refine ⟨⟨rfl, fun h => h, fun _ => rfl, fun h => h⟩, rfl⟩

theorem escalated_marks (escalatedAt : Instant) (e : StopEvent) :
    Continues e (escalated escalatedAt e) ∧ Mark.claimed.on (escalated escalatedAt e) = true := by
  refine ⟨⟨rfl, fun h => h, fun h => h, fun _ => rfl⟩, rfl⟩

end marks

section commits
variable {ev : Event Doc Call.Reply}

/-- What a body has written on top of its snapshot it writes on top of the store. -/
theorem rewrites_of_view (hev : ev.Sound machine) (holder : Store.Older ev.base ev.before) {id : Id}
    {o o' : Order} (ho : ev.base.find (Key.order id) = some o)
    (hmem : Key.order id ∈ ev.view.writes) (ho' : ev.view.find (Key.order id) = some o')
    (hothers : ∀ id', id' ≠ id →
      ev.view.find (Key.order id') = ev.base.find (Key.order id')) :
    Rewrites ev.before ev.after id o o' := by
  obtain ⟨hbefore, hafter⟩ := hev.wrote holder hmem
  constructor
  · exact hbefore.symm.trans ho
  · exact hafter.trans ho'
  · intro id' hne
    exact hev.unwritten holder (hothers id' hne)

theorem rewrites_of_put (hev : ev.Sound machine) (holder : Store.Older ev.base ev.before) {id : Id}
    {o o' : Order} (ho : ev.base.find (Key.order id) = some o)
    (hmem : Key.order id ∈ ev.view.writes)
    (hview : ∀ id', ev.view.find (Key.order id') =
      ((View.start ev.base.docs).put (Key.order id) o').find (Key.order id')) :
    Rewrites ev.before ev.after id o o' := by
  apply rewrites_of_view hev holder ho hmem
  · rw [hview, View.find_put_self]
  · intro id' hne
    rw [hview, View.find_put_ne _ _ (by simpa using hne)]
    rfl

theorem kept_of_view (hev : ev.Sound machine) (holder : Store.Older ev.base ev.before)
    (hview : ∀ id, ev.view.find (Key.order id) = ev.base.find (Key.order id)) (id : Id) :
    order ev.after id = order ev.before id := hev.unwritten holder (hview id)

end commits

section call
variable {ev : Event Doc Call.Reply} {id : Id}

theorem pushed_step (hev : ev.Sound machine) (holder : Store.Older ev.base ev.before)
    {filter : Order → Bool} {now : Instant} {stop : Id → StopEvent} {r : Option Id}
    (hrun : (pushStop id filter stop).run ev.env (View.start ev.base.docs) = .ok (r, ev.view))
    (hfilter : ∀ o, filter o = true → o.clear now = true) (hid : ∀ i, (stop i).id = i)
    (hsome : ∀ i, r = some i → ev.label.pushes ev.reply = some (id, now, stop i))
    (hnone : r = none → ev.label.pushes ev.reply = none)
    (hmark : ev.label.marks ev.reply = none) (hmove : ev.label.moves = none) :
    CallStep ev.before ev.after ev.label ev.reply := by
  rcases pushStop_ok hrun with ⟨i, o, hr, ho, ho', hnew, hmem, hview⟩ | ⟨hr, hview⟩
  · apply CallStep.pushed (hsome i hr) (hfilter o ho')
    · intro e he
      rw [hid]
      exact hnew e he
    · exact rewrites_of_put hev holder ho hmem fun id' => hview _
  · exact .kept (hnone hr) hmark hmove (kept_of_view hev holder fun id' => hview _)

theorem marked_step (hev : ev.Sound machine) (holder : Store.Older ev.base ev.before)
    {filter : Order → Bool} {stopId : Id} {m : Mark} {set : StopEvent → StopEvent} {r : Bool}
    (hrun : (updateStop id filter (m.free stopId) set).run ev.env (View.start ev.base.docs) =
      .ok (r, ev.view))
    (hset : ∀ e, Continues e (set e) ∧ m.on (set e) = true)
    (htrue : r = true → ev.label.marks ev.reply = some (id, stopId, m))
    (hfalse : r = false → ev.label.marks ev.reply = none)
    (hpush : ev.label.pushes ev.reply = none) (hmove : ev.label.moves = none) :
    CallStep ev.before ev.after ev.label ev.reply := by
  rcases updateStop_ok hrun with ⟨o, hr, ho, hfree, hview⟩ | ⟨hr, hview⟩
  · apply CallStep.marked (htrue hr) hset hfree
    apply rewrites_of_put hev holder ho
    · rw [hview]
      exact View.mem_put_self _ _ _
    · intro id'
      rw [hview]
  · apply CallStep.kept hpush (hfalse hr) hmove
    apply kept_of_view hev holder
    intro id'
    rw [hview]
    rfl

theorem moved_step (hev : ev.Sound machine) (holder : Store.Older ev.base ev.before)
    {source target : OrderStatus} {b : Bool} {u : View Doc} {r : OrderDocument}
    (hsame : ∀ id', u.find (Key.order id') = ev.base.find (Key.order id'))
    (hrun : (transition id source target b).run ev.env u = .ok (r, ev.view))
    (hmove : ev.label.moves = some (id, source, target, b)) :
    CallStep ev.before ev.after ev.label ev.reply := by
  obtain ⟨o, ho, rfl, hpermits, hview⟩ := transition_ok hrun
  apply CallStep.moved hmove hpermits
  rw [hsame] at ho
  apply rewrites_of_view hev holder ho
  · rw [hview]
    exact View.mem_put_self _ _ _
  · rw [hview, View.find_put_self]
  · intro id' hne
    rw [hview, View.find_put_ne _ _ (by simpa using hne), hsame]

end call

theorem call_step {ev : Event Doc Call.Reply} (hev : ev.Sound machine)
    (holder : Store.Older ev.base ev.before) :
    CallStep ev.before ev.after ev.label ev.reply := by
  have hkept := kept_of_view hev holder
  obtain ⟨i, label, base, env, began, ended, reply, view, before, after⟩ := ev
  have hran : (Call.body label).run env (View.start base.docs) = .ok (reply, view) := hev.ran
  cases label with
  | createOrder id company =>
      have hinsert : (Tx.insert (Key.order id)
        (⟨.pendingApproval, company, none, none, []⟩ : Order) : Action Unit).run env
          (View.start base.docs) = .ok (reply, view) := hran
      obtain ⟨hnone, -, rfl⟩ := Tx.insert_ok hinsert
      obtain ⟨hbefore, hafter⟩ := hev.wrote holder (View.mem_put_self _ (Key.order id) _)
      apply CallStep.created
      · exact hbefore.symm.trans hnone
      · exact hafter.trans (View.find_put_self _ _ _)
      · intro id' hne
        exact hev.unwritten holder (View.find_put_ne _ _ (by simpa using hne))
  | setParties id t d =>
      rcases Tx.updateOne_ok hran with ⟨o, ho, -, -, rfl, rfl⟩ | ⟨rfl, rfl, -⟩
      · exact .handed (rewrites_of_put hev holder ho (View.mem_put_self _ _ _) fun _ => rfl)
      · exact .kept rfl rfl rfl (hkept fun _ => rfl)
  | putUser id user =>
      have hupsert : (Tx.upsert (Key.user id) user fun _ => user : Action Unit).run env
        (View.start base.docs) = .ok (reply, view) := hran
      obtain ⟨-, rfl⟩ := Tx.upsert_ok hupsert
      exact .kept rfl rfl rfl (hkept fun _ => View.find_put_ne _ _ (by simp))
  | raiseStop id now detectedAt location =>
      apply pushed_step hev holder hran (fun _ h => h) (fun _ => rfl)
      · rintro i rfl
        rfl
      · rintro rfl
        rfl
      · rfl
      · rfl
  | declareStop id driverId now input =>
      apply pushed_step hev holder hran (fun _ h => (Bool.and_eq_true_iff.mp h).2) (fun _ => rfl)
      · rintro i rfl
        rfl
      · rintro rfl
        rfl
      · rfl
      · rfl
  | reportBlocked id driverId now location input =>
      apply pushed_step hev holder hran (fun _ h => (Bool.and_eq_true_iff.mp h).2) (fun _ => rfl)
      · rintro i rfl
        rfl
      · rintro rfl
        rfl
      · rfl
      · rfl
  | submitReason id driverId stopId now input =>
      apply marked_step hev holder (m := .answered) hran (answer_marks now input)
      · rintro rfl
        rfl
      · rintro rfl
        rfl
      · rfl
      · rfl
  | resolveByAdmin id stopId resolvedAt adminUserId =>
      apply marked_step hev holder (m := .resolved) hran (resolve_marks resolvedAt adminUserId)
      · rintro rfl
        rfl
      · rintro rfl
        rfl
      · rfl
      · rfl
  | claim o stopId escalatedAt =>
      apply marked_step hev holder (m := .claimed) hran (escalated_marks escalatedAt)
      · rintro rfl
        rfl
      · rintro rfl
        rfl
      · rfl
      · rfl
  | transition id source target b => exact moved_step hev holder (fun _ => rfl) hran rfl
  | cancel o source =>
      obtain ⟨_, u, hu, hrun⟩ := Tx.bind_ok hran
      exact moved_step hev holder (release_ok hu) hrun rfl
  | completeDelivery o =>
      obtain ⟨_, u, hu, hrun⟩ := Tx.bind_ok hran
      exact moved_step hev holder (release_ok hu) hrun rfl
  | forceComplete o source =>
      obtain ⟨_, u, hu, hrun⟩ := Tx.bind_ok hran
      exact moved_step hev holder (release_ok hu) hrun rfl
  | notify n =>
      obtain ⟨i, u, hi, h⟩ := Tx.bind_ok hran
      obtain ⟨-, rfl⟩ := Tx.freshId_ok hi
      obtain ⟨taken, u, htaken, h⟩ := Tx.bind_ok h
      obtain ⟨rfl, rfl⟩ := Tx.find_ok htaken
      split_ifs at h
      · cases h
      · obtain ⟨-, -, rfl⟩ := Tx.insert_ok h
        exact .kept rfl rfl rfl (hkept fun _ => View.find_put_ne _ _ (by simp))

end CiroFuel.Stops
