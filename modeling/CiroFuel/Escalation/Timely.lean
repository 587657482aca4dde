import CiroFuel.Escalation.Messages
import CiroFuel.Snapshot.Single
import CiroFuel.Snapshot.Execution
import CiroFuel.Snapshot.History

/-!
# One message, in time

Nothing about an order is taken back: it stays acknowledged, it stays at its end,
and a message that was sent stays sent. So a message is the only one and comes in
time exactly if the store says so when it is sent. The job has looked at the store
before, and its own record comes afterwards.
-/
namespace CiroFuel.Escalation
open Snapshot

def order (s : Store Doc) (id : Id) : Option Order := s.find (Key.order id)

/-- What the provider has taken for the order. -/
def outbox (s : Store Doc) (id : Id) : List Sms :=
  let taken : Option (List Sms) := s.find (Key.outbox id)
  taken.getD []

def Order.over (o : Order) : Bool := o.status = .delivered || o.status = .cancelled

/-! ### Labels -/

namespace Call

/-- The order, where it comes from and where it goes, and whether that is an override. -/
def moves : Call → Option (Id × OrderStatus × OrderStatus × Bool)
  | .assign orderId _ => some (orderId, .routedToTransport, .assignedToDriver, false)
  | .transition orderId source target manualOverride =>
      some (orderId, source, target, manualOverride)
  | .cancel order source => some (order.id, source, .cancelled, false)
  | .completeDelivery order => some (order.id, .unloading, .delivered, false)
  | .forceComplete order source => some (order.id, source, .delivered, true)
  | _ => none

/-- The order that is acknowledged. -/
def acknowledges : (c : Call) → c.Reply → Option Id
  | .acknowledge order _, true => some order.id
  | _, _ => none

/-- The order about which the driver is sent a message. -/
def sends : Call → Option Id
  | .send order _ => some order.id
  | _ => none

end Call

/-- The commit delivers or cancels the order. -/
def Ends (ev : Event Doc Call.Reply) (id : Id) : Prop :=
  ∃ source target b, ev.label.moves = some (id, source, target, b) ∧
    (target = .delivered ∨ target = .cancelled)

/-- What holds of a message that is sent after the commits in `earlier`. -/
structure Rightful (earlier : List (Event Doc Call.Reply)) (id : Id) : Prop where
  once : ∀ ev ∈ earlier, ev.label.sends ≠ some id
  unacknowledged : ∀ ev ∈ earlier, ev.label.acknowledges ev.reply ≠ some id
  underway : ∀ ev ∈ earlier, ¬ Ends ev id

/-- When the message is handed over, its order has not been acknowledged or cancelled since
the job read it and has not been delivered, no message is on record, and none that was sent
has still to be recorded. -/
def Call.Timely : Call → Store Doc → Bool
  | .send o _, s => (order s o.id).any fun now =>
      now.assignmentAcknowledgedAt = o.assignmentAcknowledgedAt &&
        (now.status = o.status || now.status ≠ .cancelled) && now.status ≠ .delivered &&
        now.assignmentEscalationSmsAt.isNone &&
        ((outbox s o.id).isEmpty || now.assignmentEscalationSmsAt.isSome)
  | _, _ => true

/-! ### Nothing is taken back -/

/-- `o'` is a later state of `o`. -/
structure Order.Follows (o o' : Order) : Prop where
  acknowledged : o.assignmentAcknowledgedAt.isSome → o'.assignmentAcknowledgedAt.isSome
  status : o'.status = o.status ∨ ∃ b, permits o.status o'.status b = true

theorem Order.Follows.refl (o : Order) : o.Follows o := ⟨fun h => h, Or.inl rfl⟩

theorem permits_over {o : Order} (h : o.over = true) (target : OrderStatus) (b : Bool) :
    permits o.status target b = false := by
  rw [Order.over, Bool.or_eq_true, decide_eq_true_eq, decide_eq_true_eq] at h
  rcases h with h | h
  · rw [h]
    rfl
  · rw [h]
    rfl

theorem Order.Follows.over {o o' : Order} (h : o.Follows o') (hover : o.over = true) :
    o'.over = true := by
  rcases h.status with hsame | ⟨b, hpermits⟩
  · rw [Order.over, hsame]
    exact hover
  · rw [permits_over hover] at hpermits
    cases hpermits

/-- What a commit leaves of the orders and of the outboxes, and what it has done. -/
structure CallStep (s s' : Store Doc) (c : Call) (r : c.Reply) : Prop where
  orders : ∀ id o, order s id = some o → ∃ o', order s' id = some o' ∧ o.Follows o'
  kept : ∀ id, outbox s id ≠ [] → outbox s' id ≠ []
  acknowledged : ∀ id, c.acknowledges r = some id →
    ∃ o, order s' id = some o ∧ o.assignmentAcknowledgedAt.isSome
  moved : ∀ id source target b, c.moves = some (id, source, target, b) →
    ∃ o, order s' id = some o ∧ o.status = target
  sent : ∀ id, c.sends = some id → outbox s' id ≠ []

/-! ### Bodies -/

/-- The views differ in users at most. -/
structure SameDeliveries (v w : View Doc) : Prop where
  orders : ∀ id, w.find (Key.order id) = v.find (Key.order id)
  outboxes : ∀ id, w.find (Key.outbox id) = v.find (Key.outbox id)

section bodies
variable {env : Env} {v w : View Doc} {id : Id}

theorem SameDeliveries.refl (v : View Doc) : SameDeliveries v v := ⟨fun _ => rfl, fun _ => rfl⟩

theorem updateUser_ok {p : User → Bool} {f : User → User} {r : Bool}
    (h : (Tx.updateOne (Key.user id) p f : Action Bool).run env v = .ok (r, w)) :
    SameDeliveries v w := by
  rcases Tx.updateOne_ok h with ⟨x, -, -, -, -, rfl⟩ | ⟨-, rfl, -⟩
  · exact ⟨fun _ => View.find_put_ne _ _ (by simp), fun _ => View.find_put_ne _ _ (by simp)⟩
  · exact .refl _

theorem release_ok {o : OrderDocument} {r : Unit}
    (h : (releaseDriverIfAssigned o).run env v = .ok (r, w)) : SameDeliveries v w := by
  unfold releaseDriverIfAssigned at h
  split at h
  · obtain ⟨-, rfl⟩ := Tx.pure_ok h
    exact .refl _
  · obtain ⟨_, u, hu, h⟩ := Tx.bind_ok h
    obtain ⟨-, rfl⟩ := Tx.pure_ok h
    exact updateUser_ok hu

theorem transition_ok {source target : OrderStatus} {b : Bool} {extraSet : Order → Order}
    {r : OrderDocument} (h : (transition id source target b extraSet).run env v = .ok (r, w)) :
    ∃ o : Order, v.find (Key.order id) = some o ∧ o.status = source ∧
      permits source target b = true ∧
      w = v.put (Key.order id) { extraSet o with status := target } := by
  unfold transition at h
  split at h
  · exact (Tx.throw_ok h).elim
  · rename_i rule hrule
    split_ifs at h with hoverride
    · exact (Tx.throw_ok h).elim
    · obtain ⟨updated, u, hu, hrest⟩ := Tx.bind_ok h
      rcases Tx.findOneAndUpdate_ok hu with ⟨o, ho, hstatus, -, rfl, rfl⟩ | ⟨rfl, rfl, -⟩
      · obtain ⟨-, rfl⟩ := Tx.pure_ok hrest
        refine ⟨o, ho, of_decide_eq_true hstatus, ?_, rfl⟩
        simp only [permits, hrule]
        cases hr : rule.requiresManualOverride with
        | false => rfl
        | true => simpa [hr] using hoverride
      · obtain ⟨existing, u, -, hrefusal⟩ := Tx.bind_ok hrest
        cases existing with
        | none => exact (Tx.throw_ok hrefusal).elim
        | some o => exact (Tx.throw_ok hrefusal).elim

end bodies

/-! ### Commits -/

section commits
variable {ev : Event Doc Call.Reply} {id : Id}

theorem orders_of_view (hev : ev.Sound machine) (holder : Store.Older ev.base ev.before)
    (hview : ∀ id o, ev.base.find (Key.order id) = some o →
      ∃ o', ev.view.find (Key.order id) = some o' ∧ Order.Follows o o') (id : Id) (o : Order)
    (ho : order ev.before id = some o) : ∃ o', order ev.after id = some o' ∧ o.Follows o' := by
  rcases hev.cases holder (Key.order id) with ⟨hbase, hafter⟩ | ⟨-, hafter, -⟩
  · obtain ⟨o', ho', hfollows⟩ := hview id o (hbase.trans ho)
    exact ⟨o', hafter.trans ho', hfollows⟩
  · exact ⟨o, hafter.trans ho, .refl o⟩

theorem outbox_of_view (hev : ev.Sound machine) (holder : Store.Older ev.base ev.before)
    (hview : ∀ id, ev.view.find (Key.outbox id) = ev.base.find (Key.outbox id)) (id : Id)
    (h : outbox ev.before id ≠ []) : outbox ev.after id ≠ [] := by
  have hsame : ev.after.find (Key.outbox id) = ev.before.find (Key.outbox id) :=
    hev.unwritten holder (hview id)
  rw [outbox, hsame]
  exact h

/-- A commit that touches no order and no outbox. -/
theorem kept_step (hev : ev.Sound machine) (holder : Store.Older ev.base ev.before)
    (hview : SameDeliveries (View.start ev.base.docs) ev.view)
    (hack : ev.label.acknowledges ev.reply = none) (hmove : ev.label.moves = none)
    (hsend : ev.label.sends = none) : CallStep ev.before ev.after ev.label ev.reply := by
  constructor
  · apply orders_of_view hev holder
    intro id o ho
    exact ⟨o, (hview.orders id).trans ho, .refl o⟩
  · exact outbox_of_view hev holder hview.outboxes
  · intro id h
    cases hack.symm.trans h
  · intro id source target b h
    cases hmove.symm.trans h
  · intro id h
    cases hsend.symm.trans h

/-- A commit that has moved an order, after it has touched users at most. -/
theorem moved_step (hev : ev.Sound machine) (holder : Store.Older ev.base ev.before)
    {source target : OrderStatus} {b : Bool} {extraSet : Order → Order} {u : View Doc}
    {r : OrderDocument} (hsame : SameDeliveries (View.start ev.base.docs) u)
    (hset : ∀ o, (extraSet o).assignmentAcknowledgedAt = o.assignmentAcknowledgedAt)
    (hrun : (transition id source target b extraSet).run ev.env u = .ok (r, ev.view))
    (hmove : ev.label.moves = some (id, source, target, b))
    (hack : ev.label.acknowledges ev.reply = none) (hsend : ev.label.sends = none) :
    CallStep ev.before ev.after ev.label ev.reply := by
  obtain ⟨o, ho, rfl, hpermits, hview⟩ := transition_ok hrun
  have hbase : ev.base.find (Key.order id) = some o := (hsame.orders id).symm.trans ho
  have hself : ev.view.find (Key.order id) = some { extraSet o with status := target } := by
    rw [hview, View.find_put_self]
  constructor
  · apply orders_of_view hev holder
    intro id' o' ho'
    by_cases hid : id' = id
    · subst hid
      cases hbase.symm.trans ho'
      refine ⟨_, hself, ?_, Or.inr ⟨b, hpermits⟩⟩
      intro hacknowledged
      rw [← hset o] at hacknowledged
      exact hacknowledged
    · refine ⟨o', ?_, .refl o'⟩
      rw [hview, View.find_put_ne _ _ (by simpa using hid), hsame.orders]
      exact ho'
  · apply outbox_of_view hev holder
    intro id'
    rw [hview, View.find_put_ne _ _ (by simp), hsame.outboxes]
    rfl
  · intro id' h
    cases hack.symm.trans h
  · intro id' source' target' b' h
    cases hmove.symm.trans h
    have hwritten : Key.order id ∈ ev.view.writes := by
      rw [hview]
      exact View.mem_put_self _ _ _
    exact ⟨_, (hev.wrote holder hwritten).2.trans hself, rfl⟩
  · intro id' h
    cases hsend.symm.trans h

/-- A commit that has updated fields of an order, outside a session. -/
theorem updated_step (hev : ev.Sound machine) (hiso : ev.label.isolated = false)
    {f : Order → Order} {r : Bool}
    (hrun : (Tx.updateOne (Key.order id) (fun _ => true) f : Action Bool).run ev.env
      (View.start ev.base.docs) = .ok (r, ev.view))
    (hf : ∀ o, Order.Follows o (f o))
    (hack : ∀ id', ev.label.acknowledges ev.reply = some id' →
      r = true ∧ id' = id ∧ ∀ o, (f o).assignmentAcknowledgedAt.isSome)
    (hmove : ev.label.moves = none) (hsend : ev.label.sends = none) :
    CallStep ev.before ev.after ev.label ev.reply := by
  obtain ⟨hbase, hafter⟩ := hev.stored hiso
  have holder : Store.Older ev.base ev.before := hbase ▸ Store.Older.refl _
  have hnoMove : ∀ id source target b, ev.label.moves = some (id, source, target, b) →
      ∃ o, order ev.after id = some o ∧ o.status = target := by
    intro id source target b h
    cases hmove.symm.trans h
  have hnoSend : ∀ id, ev.label.sends = some id → outbox ev.after id ≠ [] := by
    intro id h
    cases hsend.symm.trans h
  rcases Tx.updateOne_ok hrun with ⟨o, ho, -, -, -, hview⟩ | ⟨rfl, hview, -⟩
  · have hself : ev.view.find (Key.order id) = some (f o) := by
      rw [hview, View.find_put_self]
    constructor
    · apply orders_of_view hev holder
      intro id' o' ho'
      by_cases hid : id' = id
      · subst hid
        cases ho.symm.trans ho'
        exact ⟨_, hself, hf _⟩
      · refine ⟨o', ?_, .refl o'⟩
        rw [hview, View.find_put_ne _ _ (by simpa using hid)]
        exact ho'
    · apply outbox_of_view hev holder
      intro id'
      rw [hview, View.find_put_ne _ _ (by simp)]
      rfl
    · intro id' h
      obtain ⟨-, rfl, hset⟩ := hack id' h
      exact ⟨f o, (hafter _).trans hself, hset o⟩
    · exact hnoMove
    · exact hnoSend
  · apply kept_step hev holder
    · rw [hview]
      exact .refl _
    · apply Option.eq_none_iff_forall_ne_some.mpr
      intro id' h
      cases (hack id' h).1
    · exact hmove
    · exact hsend

theorem sent_step (hev : ev.Sound machine) (o : OrderDocument) (sms : Sms)
    (hlabel : ev.label = .send o sms) : CallStep ev.before ev.after ev.label ev.reply := by
  obtain ⟨i, label, base, env, began, ended, reply, view, before, after⟩ := ev
  dsimp only at hlabel
  subst hlabel
  have hran : (Tx.upsert (Key.outbox o.id) [] fun taken : List Sms => taken ++ [sms] :
    Action Unit).run env (View.start base.docs) = .ok (reply, view) := hev.ran
  obtain ⟨-, hview⟩ := Tx.upsert_ok hran
  obtain ⟨hbase, hafter⟩ := hev.stored rfl
  dsimp only at hbase hafter
  subst hview
  have holder : Store.Older base before := hbase ▸ Store.Older.refl _
  have hself : outbox after o.id ≠ [] := by
    rw [outbox, hafter, View.find_put_self]
    exact List.concat_ne_nil _ _
  constructor
  · apply orders_of_view hev holder
    intro id' o' ho'
    exact ⟨o', (View.find_put_ne _ _ (by simp)).trans ho', .refl o'⟩
  · intro id' h
    by_cases hid : id' = o.id
    · rw [hid]
      exact hself
    · have hother : after.find (Key.outbox id') = before.find (Key.outbox id') := by
        rw [hafter, View.find_put_ne _ _ (by simpa using hid), ← hbase]
        rfl
      rw [outbox, hother]
      exact h
  · intro id' h
    cases h
  · intro id' source target b h
    cases h
  · intro id' h
    cases h
    exact hself

end commits

theorem call_step {ev : Event Doc Call.Reply} (hev : ev.Sound machine)
    (holder : Store.Older ev.base ev.before) :
    CallStep ev.before ev.after ev.label ev.reply := by
  have hsent := sent_step hev
  obtain ⟨i, label, base, env, began, ended, reply, view, before, after⟩ := ev
  have hran : (Call.body label).run env (View.start base.docs) = .ok (reply, view) := hev.ran
  cases label with
  | createOrder id =>
      have hinsert : (Tx.insert (Key.order id) ({} : Order) : Action Unit).run env
        (View.start base.docs) = .ok (reply, view) := hran
      obtain ⟨hnone, -, rfl⟩ := Tx.insert_ok hinsert
      constructor
      · apply orders_of_view hev holder
        intro id' o' ho'
        refine ⟨o', ?_, .refl o'⟩
        rw [View.find_put_ne]
        · exact ho'
        · rintro heq
          cases heq
          cases hnone.symm.trans ho'
      · exact outbox_of_view hev holder fun _ => View.find_put_ne _ _ (by simp)
      · intro id' h
        cases h
      · intro id' source target b h
        cases h
      · intro id' h
        cases h
  | putUser id user =>
      have hupsert : (Tx.upsert (Key.user id) user fun _ => user : Action Unit).run env
        (View.start base.docs) = .ok (reply, view) := hran
      obtain ⟨-, rfl⟩ := Tx.upsert_ok hupsert
      apply kept_step hev holder
      · exact ⟨fun _ => View.find_put_ne _ _ (by simp), fun _ => View.find_put_ne _ _ (by simp)⟩
      · rfl
      · rfl
      · rfl
  | assign orderId driverId =>
      obtain ⟨booked, u, hu, hrun⟩ := Tx.bind_ok hran
      cases booked with
      | false => exact (Tx.throw_ok hrun).elim
      | true =>
          have hmoved : (transition orderId .routedToTransport .assignedToDriver false fun o =>
            { o with driverId := some driverId }).run env u = .ok (reply, view) := hrun
          refine moved_step hev holder (updateUser_ok hu) ?_ hmoved rfl rfl rfl
          intro o
          rfl
  | transition id source target b =>
      exact moved_step hev holder (.refl _) (fun _ => rfl) hran rfl rfl rfl
  | acknowledge o t =>
      apply updated_step hev rfl hran
      · exact fun _ => ⟨fun _ => rfl, Or.inl rfl⟩
      · intro id' h
        cases reply with
        | false => cases h
        | true =>
            cases h
            exact ⟨rfl, rfl, fun _ => rfl⟩
      · rfl
      · rfl
  | cancel o source =>
      obtain ⟨_, u, hu, hrun⟩ := Tx.bind_ok hran
      exact moved_step hev holder (release_ok hu) (fun _ => rfl) hrun rfl rfl rfl
  | completeDelivery o =>
      obtain ⟨_, u, hu, hrun⟩ := Tx.bind_ok hran
      exact moved_step hev holder (release_ok hu) (fun _ => rfl) hrun rfl rfl rfl
  | forceComplete o source =>
      obtain ⟨_, u, hu, hrun⟩ := Tx.bind_ok hran
      exact moved_step hev holder (release_ok hu) (fun _ => rfl) hrun rfl rfl rfl
  | send o sms => exact hsent o sms rfl
  | recordSent id t =>
      apply updated_step hev rfl hran
      · exact fun _ => ⟨fun h => h, Or.inl rfl⟩
      · intro id' h
        cases h
      · rfl
      · rfl
  | recordSkipped id reason =>
      apply updated_step hev rfl hran
      · exact fun _ => ⟨fun h => h, Or.inl rfl⟩
      · intro id' h
        cases h
      · rfl
      · rfl

/-! ### What the handlers have made sure of -/

/-- The job only sends about an order that it has read as applicable. -/
def Call.Ready : Call → Prop
  | .send o _ => o.applicable = true
  | _ => True

def prepared : Discipline Doc Call.Reply where
  inv _ := True
  rely _ _ := True
  pre l _ _ := l.Ready

theorem prepared_coherent : prepared.Coherent where
  refl _ := trivial
  trans _ _ := trivial
  stable h _ _ := h

section calls

theorem findById_ready (orderId : Id) : (findById orderId).Calls Call.Ready := by
  apply (Prog.calls_find _).bind
  intro found
  cases found <;> trivial

theorem sideEffect_ready : sideEffect.Calls Call.Ready := by
  intro ok
  cases ok <;> trivial

theorem sendSms_ready {o : OrderDocument} (h : o.applicable = true) (sms : Sms) :
    (sendSms o sms).Calls Call.Ready := by
  have hready : (Call.send o sms).Ready := h
  apply (Prog.calls_attempt hready).bind
  intro sent
  cases sent with
  | error e => trivial
  | ok r =>
      intro b
      trivial

theorem escalate_ready (orderId : Id) : (escalate orderId).Calls Call.Ready := by
  apply (Prog.calls_find _).bind
  intro found
  cases found with
  | none => trivial
  | some o =>
      simp only
      split_ifs with happlicable
      · trivial
      · have hready : o.applicable = true := by simpa using happlicable
        apply (Prog.calls_find _).bind
        intro driver
        split
        · exact (Prog.calls_perform trivial).bind fun _ => trivial
        · apply (sendSms_ready hready _).bind
          intro sent
          split_ifs
          · apply Prog.calls_getTime.bind
            intro sentAt
            exact (Prog.calls_perform trivial).bind fun _ => trivial
          · exact (Prog.calls_perform trivial).bind fun _ => trivial

theorem acknowledgeAssignment_ready (orderId driverId : Id) :
    (acknowledgeAssignment orderId driverId).Calls Call.Ready := by
  apply (findById_ready orderId).bind
  intro o
  split_ifs
  · trivial
  · trivial
  · apply Prog.calls_getTime.bind
    intro acknowledgedAt
    apply (Prog.calls_perform trivial).bind
    intro _
    exact sideEffect_ready.bind fun _ => trivial

theorem cancelOrder_ready (orderId : Id) (isClient : Bool) :
    (cancelOrder orderId isClient).Calls Call.Ready := by
  apply (findById_ready orderId).bind
  intro o
  split_ifs
  · trivial
  · trivial
  · apply (Prog.calls_perform trivial).bind
    intro updated
    exact sideEffect_ready.bind fun _ => sideEffect_ready.bind fun _ => trivial
  · exact (Prog.calls_perform trivial).bind fun _ => sideEffect_ready.bind fun _ => trivial
  · exact (Prog.calls_perform trivial).bind fun _ => sideEffect_ready.bind fun _ => trivial
  · exact (Prog.calls_perform trivial).bind fun _ => trivial

theorem forceComplete_ready (orderId : Id) : (forceComplete orderId).Calls Call.Ready := by
  apply (findById_ready orderId).bind
  intro o
  split_ifs
  · trivial
  · exact (Prog.calls_perform trivial).bind fun _ => sideEffect_ready.bind fun _ => trivial
  · exact (Prog.calls_perform trivial).bind fun _ => trivial

theorem verifyDelivery_ready (orderId driverId : Id) :
    (verifyDelivery orderId driverId).Calls Call.Ready := by
  apply (findById_ready orderId).bind
  intro o
  split_ifs
  · trivial
  · trivial
  · exact Prog.calls_perform trivial

theorem handle_ready (q : Request) : (handle q).Calls Call.Ready := by
  cases q with
  | createOrder id => exact (Prog.calls_perform trivial).bind fun _ => trivial
  | putUser id user => exact (Prog.calls_perform trivial).bind fun _ => trivial
  | transition orderId source target b => exact (Prog.calls_perform trivial).bind fun _ => trivial
  | assignDriver orderId driverId =>
      refine Prog.Calls.bind ?_ fun _ => trivial
      exact (Prog.calls_perform trivial).bind fun _ => sideEffect_ready.bind fun _ => trivial
  | acknowledgeAssignment orderId driverId =>
      exact (acknowledgeAssignment_ready orderId driverId).bind fun _ => trivial
  | cancelOrder orderId isClient => exact (cancelOrder_ready orderId isClient).bind fun _ => trivial
  | verifyDelivery orderId driverId =>
      exact (verifyDelivery_ready orderId driverId).bind fun _ => trivial
  | forceComplete orderId => exact (forceComplete_ready orderId).bind fun _ => trivial
  | escalate orderId => exact (escalate_ready orderId).bind fun _ => trivial

end calls

/-! ### Runs -/

section run
variable {P : Event Doc Call.Reply → Prop} {log earlier : List (Event Doc Call.Reply)}
variable {s : Sys Doc Call.Reply Refusal Answer} {ev : Event Doc Call.Reply}
variable {init : Store Doc} {id : Id}

theorem run_steps (h : Run machine init P log s) :
    Run machine init (fun ev => P ev ∧ ev.label.Ready ∧
      CallStep ev.before ev.after ev.label ev.reply) log s := by
  have hlawful : prepared.Lawful machine P :=
    { refl := prepared_coherent.refl
      trans := prepared_coherent.trans
      stable := prepared_coherent.stable
      handlers := fun q _ _ _ _ => Discipline.safe_calls (fun _ hl _ _ => hl) (handle_ready q)
      keep := fun _ _ _ _ _ _ _ _ => ⟨trivial, trivial, trivial⟩ }
  obtain ⟨-, hrun⟩ := hlawful.sound trivial h
  exact hrun.weaken fun ev hev hholds =>
    ⟨hholds.1, hholds.2.pre, call_step hev hholds.2.older⟩

/-- A trace that commits leave in the store, and no commit removes, is there. -/
theorem run_trace (did : Event Doc Call.Reply → Prop) (trace : Store Doc → Prop)
    (hleaves : ∀ ev, CallStep ev.before ev.after ev.label ev.reply → did ev → trace ev.after)
    (hstays : ∀ ev : Event Doc Call.Reply, CallStep ev.before ev.after ev.label ev.reply →
      trace ev.before → trace ev.after)
    (h : Run machine init P log s) (hev : ev ∈ log) (hdid : did ev) : trace s.store := by
  have hall : ∀ ev ∈ log, did ev → trace s.store := by
    refine Run.logged (J := fun log s => ∀ ev ∈ log, did ev → trace s) ?_ ?_ (run_steps h)
    · intro ev hev
      cases hev
    · intro log last _ hlast ih ev hev hdid
      rcases List.mem_cons.mp hev with rfl | hold
      · exact hleaves ev hlast.2.2 hdid
      · exact hstays last hlast.2.2 (ih ev hold hdid)
  exact hall ev hev hdid

theorem run_sent (h : Run machine init P log s) (hev : ev ∈ log)
    (hsends : ev.label.sends = some id) : outbox s.store id ≠ [] := by
  apply run_trace (fun ev => ev.label.sends = some id) (fun s => outbox s id ≠ []) ?_ ?_ h hev hsends
  · intro ev hstep hsends
    exact hstep.sent id hsends
  · intro ev hstep htrace
    exact hstep.kept id htrace

theorem run_acknowledged (h : Run machine init P log s) (hev : ev ∈ log)
    (hack : ev.label.acknowledges ev.reply = some id) :
    ∃ o, order s.store id = some o ∧ o.assignmentAcknowledgedAt.isSome := by
  apply run_trace (fun ev => ev.label.acknowledges ev.reply = some id)
    (fun s => ∃ o, order s id = some o ∧ o.assignmentAcknowledgedAt.isSome) ?_ ?_ h hev hack
  · intro ev hstep hack
    exact hstep.acknowledged id hack
  · rintro ev hstep ⟨o, ho, hack⟩
    obtain ⟨o', ho', hfollows⟩ := hstep.orders id o ho
    exact ⟨o', ho', hfollows.acknowledged hack⟩

theorem run_over (h : Run machine init P log s) (hev : ev ∈ log) (hends : Ends ev id) :
    ∃ o, order s.store id = some o ∧ o.over = true := by
  apply run_trace (fun ev => Ends ev id)
    (fun s => ∃ o, order s id = some o ∧ o.over = true) ?_ ?_ h hev hends
  · rintro ev hstep ⟨source, target, b, hmoves, htarget⟩
    obtain ⟨o, ho, hstatus⟩ := hstep.moved id source target b hmoves
    refine ⟨o, ho, ?_⟩
    rw [Order.over, hstatus]
    rcases htarget with rfl | rfl
    · rfl
    · rfl
  · rintro ev hstep ⟨o, ho, hover⟩
    obtain ⟨o', ho', hfollows⟩ := hstep.orders id o ho
    exact ⟨o', ho', hfollows.over hover⟩

/-- What the store shows when a message is handed over in time. -/
theorem timely_send {s : Store Doc} {o : OrderDocument} {sms : Sms}
    (htimely : (Call.send o sms).Timely s = true) (hready : (Call.send o sms).Ready) :
    outbox s o.id = [] ∧ ∃ now, order s o.id = some now ∧
      now.assignmentAcknowledgedAt = none ∧ now.over = false := by
  obtain ⟨now, hnow, h⟩ := (Option.any_eq_true _ _).mp htimely
  have happlicable : o.applicable = true := hready
  simp only [Order.applicable, Bool.and_eq_true, Option.isNone_iff_eq_none, decide_eq_true_eq]
    at happlicable
  simp only [Bool.and_eq_true, Bool.or_eq_true, decide_eq_true_eq, Option.isNone_iff_eq_none,
    List.isEmpty_iff] at h
  obtain ⟨⟨⟨⟨hack, hcancelled⟩, hdelivered⟩, hrecord⟩, hcaught⟩ := h
  constructor
  · rcases hcaught with hempty | hsome
    · exact hempty
    · rw [hrecord] at hsome
      cases hsome
  · refine ⟨now, hnow, hack.trans happlicable.1.1, ?_⟩
    have hnotCancelled : now.status ≠ .cancelled := by
      rcases hcancelled with hsame | hne
      · rw [hsame]
        exact happlicable.2
      · exact hne
    simp [Order.over, hdelivered, hnotCancelled]

/-- If every message is handed over in time, none is a second one, and none comes after its
assignment was acknowledged or its order has come to its end. -/
theorem messages_rightful
    (h : Run machine Store.empty (fun ev => ev.label.Timely ev.before = true) log s)
    (later : List (Event Doc Call.Reply)) (hlog : log = later ++ ev :: earlier)
    (hsends : ev.label.sends = some id) : Rightful earlier id := by
  subst hlog
  obtain ⟨-, ⟨htimely, hready, -⟩, s', hrun, hbefore⟩ := (run_steps h).upTo
  have hlabel : ∃ o sms, ev.label = .send o sms ∧ o.id = id := by
    cases hl : ev.label with
    | send o sms =>
        rw [hl] at hsends
        cases hsends
        exact ⟨o, sms, rfl, rfl⟩
    | _ =>
        rw [hl] at hsends
        cases hsends
  obtain ⟨o, sms, hlabel, rfl⟩ := hlabel
  rw [hlabel] at htimely hready
  obtain ⟨hempty, now, hnow, hunacknowledged, hunderway⟩ := timely_send htimely hready
  rw [← hbefore] at hempty hnow
  constructor
  · intro ev' hev' hsends'
    exact run_sent hrun hev' hsends' hempty
  · intro ev' hev' hack
    obtain ⟨o', ho', hacknowledged⟩ := run_acknowledged hrun hev' hack
    cases hnow.symm.trans ho'
    rw [hunacknowledged] at hacknowledged
    cases hacknowledged
  · intro ev' hev' hends
    obtain ⟨o', ho', hover⟩ := run_over hrun hev' hends
    cases hnow.symm.trans ho'
    rw [hunderway] at hover
    cases hover

end run
namespace Sample

/-- Order 1 is assigned to driver 30, who has a telephone. -/
def assigned : List (Act Request) :=
  serving (Request.createOrder 1) 0 2 ++
    serving (Request.putUser 30 { phone := some "+966500000001" }) 1 2 ++
    serving (Request.transition 1 .pendingApproval .approved false) 2 2 ++
    serving (Request.transition 1 .approved .routedToTransport false) 3 2 ++
    serving (Request.assignDriver 1 30) 4 3

def sending : List (Act Request) := assigned ++ serving (Request.escalate 1) 5 4

/-- The job stops after it has sent, the order is force-completed, the job is redelivered. -/
def redelivered : List (Act Request) :=
  sending ++ [Act.stop 5] ++ serving (Request.transition 1 .assignedToDriver .loading false) 6 2 ++
    serving (Request.forceComplete 1) 7 3 ++ serving (Request.escalate 1) 8 4

end Sample

theorem messages_rightful_sending : ∃ ev earlier s,
    Run machine Store.empty (fun ev => ev.label.Timely ev.before = true) (ev :: earlier) s ∧
      ev.label.sends = some 1 ∧ Rightful earlier 1 := by
  obtain ⟨log, s, hrun, htest⟩ := exists_run machine Store.empty
    (fun ev => ev.label.Timely ev.before = true) Sample.sending
    (fun log _ => log.head?.any fun ev : Event Doc Call.Reply => ev.label.sends = some 1)
    (by decide +kernel)
  cases log with
  | nil => cases htest
  | cons ev earlier =>
      have hsends : ev.label.sends = some 1 := of_decide_eq_true htest
      exact ⟨ev, earlier, s, hrun, hsends, messages_rightful hrun [] rfl hsends⟩

/-- A driver is sent a second message, about an order that has been delivered. -/
theorem messages_unrightful : ¬ ∀ (log : List (Event Doc Call.Reply))
    (s : Sys Doc Call.Reply Refusal Answer), Run machine Store.empty (fun _ => True) log s →
    ∀ later ev earlier, log = later ++ ev :: earlier → ∀ id, ev.label.sends = some id →
      Rightful earlier id := by
  intro hall
  obtain ⟨log, s, hrun, htest⟩ := exists_run machine Store.empty (fun _ => True)
    Sample.redelivered (fun log _ =>
      (log.head?.any fun ev : Event Doc Call.Reply => ev.label.sends = some 1) &&
      log.tail.any fun ev : Event Doc Call.Reply => ev.label.sends = some 1)
    (by decide +kernel)
  obtain ⟨hhead, hsent⟩ := Bool.and_eq_true_iff.mp htest
  cases log with
  | nil => cases hhead
  | cons ev earlier =>
      have hsends : ev.label.sends = some 1 := of_decide_eq_true hhead
      obtain ⟨ev', hev', hsends'⟩ := List.any_eq_true.mp hsent
      exact (hall _ s hrun [] ev earlier rfl 1 hsends).once ev' hev' (of_decide_eq_true hsends')

end CiroFuel.Escalation
