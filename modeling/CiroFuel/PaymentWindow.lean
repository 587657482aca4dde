import CiroFuel.Reachable

/-!
# The payment window

An order that awaits payment carries a deadline, and a delayed job returns it to
approval when the window has lapsed. The job names the order and nothing else.
A job added for an earlier window can therefore close a later one, and a handler
that read the order in an earlier window restores an outdated count. With
neither, no window closes before its deadline and every lapse is counted.
-/
namespace CiroFuel
open Snapshot

namespace StatusHistoryEntry

/-- The entry of a lapsed payment window. -/
def isLapse (e : StatusHistoryEntry) : Bool :=
  e.source = .pendingPayment && e.target = .approved

end StatusHistoryEntry

/-! ### What steps do to the window -/

section steps
variable {cfg : Settings} {time : ℕ → Instant} {c : Call} {o o' : Order}

/-- Only the timeout job records a lapse. -/
theorem OrderStep.lapse (h : OrderStep cfg time c o o') {es : List StatusHistoryEntry}
    (hhistory : o'.statusHistory = o.statusHistory ++ es) {e : StatusHistoryEntry} (he : e ∈ es)
    (hlapse : e.isLapse = true) :
    ∃ job order n, c = .timeOut job order ∧ o.status = .pendingPayment ∧ e.at_ = time n := by
  have entries : ∀ es', o'.statusHistory = o.statusHistory ++ es' → e ∈ es' := by
    intro es' hes'
    rw [← List.append_cancel_left (hhistory.symm.trans hes')]
    exact he
  cases h with
  | timeOut hstatus =>
      have hentry := entries _ (Order.moved_statusHistory _ _ _ _ _ _)
      rw [List.mem_singleton.mp hentry]
      exact ⟨_, _, _, rfl, hstatus, rfl⟩
  | route hstatus hedge =>
      rename_i order source transportCompanyId deliveryFee actor invoiceId n
      obtain ⟨priceBreakdown, finalPrice, heq⟩ := Order.awaiting_eq cfg o order.id source
        transportCompanyId deliveryFee actor invoiceId (time n) (time (n + 1)) (time (n + 2))
        (time (n + 3))
      have hentry := entries _ (by rw [heq]; exact List.append_assoc _ _ _)
      rcases List.mem_append.mp hentry with hfirst | hsecond
      · rw [List.mem_singleton.mp hfirst] at hlapse
        simp [StatusHistoryEntry.isLapse] at hlapse
      · rw [List.mem_singleton.mp hsecond] at hlapse
        simp [StatusHistoryEntry.isLapse] at hlapse
  | reassign => exact absurd (entries [] (List.append_nil _).symm) (List.not_mem_nil)
  | attempt => exact absurd (entries [] (List.append_nil _).symm) (List.not_mem_nil)
  | confirmInvoice => exact absurd (entries [] (List.append_nil _).symm) (List.not_mem_nil)
  | replaceInvoice => exact absurd (entries [] (List.append_nil _).symm) (List.not_mem_nil)
  | _ =>
      have hentry := entries _ (Order.moved_statusHistory _ _ _ _ _ _)
      rw [List.mem_singleton.mp hentry] at hlapse
      simp [StatusHistoryEntry.isLapse] at hlapse

/-- Only the timeout job writes the count. -/
theorem OrderStep.timeoutCount (h : OrderStep cfg time c o o') :
    ((∀ job order, c ≠ .timeOut job order) ∧ o'.paymentTimeoutCount = o.paymentTimeoutCount) ∨
      ∃ job order, c = .timeOut job order ∧
      o'.paymentTimeoutCount = order.paymentTimeoutCount + 1 ∧
      ∃ e : StatusHistoryEntry, o'.statusHistory = o.statusHistory ++ [e] ∧ e.isLapse = true := by
  cases h with
  | timeOut =>
      exact Or.inr ⟨_, _, rfl, rfl, _, Order.moved_statusHistory _ _ _ _ _ _, rfl⟩
  | route =>
      rename_i order source transportCompanyId deliveryFee actor invoiceId n _ _
      obtain ⟨priceBreakdown, finalPrice, heq⟩ := Order.awaiting_eq cfg o order.id source
        transportCompanyId deliveryFee actor invoiceId (time n) (time (n + 1)) (time (n + 2))
        (time (n + 3))
      exact Or.inl ⟨by simp, by rw [heq]⟩
  | assign =>
      rename_i order a driver truck tank client n _
      obtain ⟨clientSummary, ineligible, reason, heq⟩ :=
        Order.assigned_eq o a driver truck tank client (time n)
      exact Or.inl ⟨by simp, by rw [heq]⟩
  | _ => exact Or.inl ⟨by simp, rfl⟩

end steps

/-! ### The invariant -/

/-- A deadline is set while payment is awaited, and lies within one window of the
entry that began it. A cancelled order may keep the one it had. -/
structure Order.Windowed (cfg : Settings) (o : Order) : Prop where
  closed : o.status ≠ .pendingPayment → o.status ≠ .cancelled → o.paymentDeadline = none
  opened : o.status = .pendingPayment → ∀ deadline, o.paymentDeadline = some deadline →
    ∃ e, o.statusHistory.getLast? = some e ∧ deadline ≤ e.at_ + cfg.paymentWindow

namespace Order

/-- A transition out of other statuses into other statuses touches no deadline. -/
theorem Windowed.moved {cfg : Settings} {o : Order} (h : o.Windowed cfg) {source target : OrderStatus}
    {actor : TransitionActor} {options : TransitionOptions} {at_ : Instant}
    (hstatus : o.status = source) (htarget : target ≠ .pendingPayment)
    (hdeadline : target = .cancelled ∨
      (o.moved source target actor options at_).paymentDeadline = none ∨
      source ≠ .pendingPayment ∧ source ≠ .cancelled ∧
        (o.moved source target actor options at_).paymentDeadline = o.paymentDeadline) :
    (o.moved source target actor options at_).Windowed cfg where
  closed := by
    intro _ hcancelled
    rw [Order.moved_status] at hcancelled
    rcases hdeadline with hcancel | hnone | ⟨hpending, hnot, hsame⟩
    · exact absurd hcancel hcancelled
    · exact hnone
    · rw [hsame]
      exact h.closed (hstatus ▸ hpending) (hstatus ▸ hnot)
  opened := fun hpending => absurd ((Order.moved_status _ _ _ _ _ _).symm.trans hpending) htarget

theorem Windowed.same {cfg : Settings} {o o' : Order} (h : o.Windowed cfg)
    (hstatus : o'.status = o.status) (hdeadline : o'.paymentDeadline = o.paymentDeadline)
    (hhistory : o'.statusHistory = o.statusHistory) : o'.Windowed cfg := by
  refine ⟨?_, ?_⟩
  · rw [hstatus, hdeadline]
    exact h.closed
  · rw [hstatus, hdeadline, hhistory]
    exact h.opened

end Order

theorem OrderStep.windowed {cfg : Settings} {time : ℕ → Instant} {c : Call} {o o' : Order}
    (h : OrderStep cfg time c o o') (htime : Monotone time)
    (hroute : ∀ order source transportCompanyId deliveryFee actor,
      c = .route order source transportCompanyId deliveryFee actor →
      source = .approved ∨ source = .awaitingRouting)
    (ho : o.Windowed cfg) : o'.Windowed cfg := by
  have hnext : ∀ n, time n ≤ time (n + 1) := fun n => htime (Nat.le_succ n)
  cases h with
  | route hstatus hedge =>
      rename_i order source transportCompanyId deliveryFee actor invoiceId n
      obtain ⟨priceBreakdown, finalPrice, heq⟩ := Order.awaiting_eq cfg o order.id source
        transportCompanyId deliveryFee actor invoiceId (time n) (time (n + 1)) (time (n + 2))
        (time (n + 3))
      have hclosed : o.paymentDeadline = none := by
        rcases hroute _ _ _ _ _ rfl with rfl | rfl
        · exact ho.closed (by simp [hstatus]) (by simp [hstatus])
        · exact ho.closed (by simp [hstatus]) (by simp [hstatus])
      rw [heq]
      refine ⟨fun hpending => absurd rfl hpending, fun _ deadline hdeadline => ?_⟩
      refine ⟨_, List.getLast?_concat, ?_⟩
      by_cases hdirect : o.paymentMethod = .direct
      · simp only [hdirect, if_pos] at hdeadline
        cases hdeadline
        exact Nat.add_le_add_right (hnext _) _
      · simp [hdirect, hclosed] at hdeadline
  | reopen hstatus =>
      refine ⟨fun hpending => absurd (Order.moved_status _ _ _ _ _ _) hpending,
        fun _ deadline hdeadline => ⟨_, by rw [Order.moved_statusHistory]; exact List.getLast?_concat, ?_⟩⟩
      cases hdeadline
      exact Nat.add_le_add_right (hnext _) _
  | assign hstatus =>
      rename_i order a driver truck tank client n
      obtain ⟨clientSummary, ineligible, reason, heq⟩ :=
        Order.assigned_eq o a driver truck tank client (time n)
      refine ho.moved hstatus (by simp) (Or.inr (Or.inr ⟨by simp, by simp, ?_⟩))
      rw [heq]
  | accept hstatus => exact ho.moved hstatus (by simp) (Or.inr (Or.inl rfl))
  | settle hstatus => exact ho.moved hstatus (by simp) (Or.inr (Or.inl rfl))
  | timeOut hstatus => exact ho.moved hstatus (by simp) (Or.inr (Or.inl rfl))
  | cancel hstatus => exact ho.moved hstatus (by simp) (Or.inl rfl)
  | forceComplete hstatus hedge =>
      refine ho.moved hstatus (by simp) (Or.inr (Or.inr ⟨?_, ?_, rfl⟩)) <;> intro hs <;>
        simp [hs, permits, transitions] at hedge
  | reassign => exact ho.same rfl rfl rfl
  | attempt => exact ho.same rfl rfl rfl
  | confirmInvoice => exact ho.same rfl rfl rfl
  | replaceInvoice => exact ho.same rfl rfl rfl
  | depart hmatched hstage hstatus =>
      rename_i order attempt actor n
      have hrecorded : Order.Windowed cfg { o with verifications := o.verifications ++ [attempt] } :=
        ho.same rfl rfl rfl
      exact hrecorded.moved hstatus (by simp) (Or.inr (Or.inr ⟨by simp, by simp, rfl⟩))
  | _ hstatus => exact ho.moved hstatus (by simp) (Or.inr (Or.inr ⟨by simp, by simp, rfl⟩))

/-- The count is the number of lapsed windows on record. -/
def Order.Counted (o : Order) : Prop :=
  o.paymentTimeoutCount = o.statusHistory.countP (·.isLapse)

theorem OrderStep.counted {cfg : Settings} {time : ℕ → Instant} {c : Call} {o o' : Order}
    (h : OrderStep cfg time c o o')
    (hcurrent : ∀ job order, c = .timeOut job order →
      order.paymentTimeoutCount = o.paymentTimeoutCount)
    (ho : o.Counted) : o'.Counted := by
  unfold Order.Counted at ho ⊢
  rcases h.timeoutCount with ⟨hother, hsame⟩ | ⟨job, order, hlabel, hcount, e, hhistory, hlapse⟩
  · obtain ⟨es, hhistory, -⟩ := h.trail
    have hnone : es.countP (·.isLapse) = 0 := by
      refine List.countP_eq_zero.mpr fun e he hlapse => ?_
      obtain ⟨job, order, n, hlabel, -⟩ := h.lapse hhistory he hlapse
      exact hother job order hlabel
    rw [hsame, ho, hhistory, List.countP_append, hnone, Nat.add_zero]
  · rw [hcount, hcurrent job order hlabel, ho, hhistory, List.countP_append]
    simp [hlapse]

/-- The job was added for the window now open, and its handler read the order in
that window. -/
def Call.windowCurrent (c : Call) (s : Db) : Bool :=
  match c with
  | .timeOut job order => (s.order order.id).all fun o =>
      o.statusHistory = order.statusHistory && o.statusHistory.getLast?.all (·.at_ ≤ job.timestamp)
  | _ => true

/-- A window that the commit closes as lapsed was past its deadline. -/
def LapsesPastDeadline (ev : Event Doc Call.Reply) : Prop :=
  ∀ id o o' es, ev.before.order id = some o → ev.after.order id = some o' →
    o'.statusHistory = o.statusHistory ++ es → ∀ e ∈ es, e.isLapse = true →
    ∀ deadline, o.paymentDeadline = some deadline → deadline ≤ e.at_

theorem commit_lapses {cfg : Settings} {since : Db} {ev : Event Doc Call.Reply}
    (hev : ev.Sound (machine cfg)) (hcurrent : ev.label.windowCurrent ev.before = true)
    (hholds : (evolution cfg since).Holds ev)
    (hbefore : ∀ id o, ev.before.order id = some o → o.Windowed cfg) : LapsesPastDeadline ev := by
  intro id o o' es ho ho' hhistory e he hlapse deadline hdeadline
  rcases order_cases hev hholds.older hholds.pre id with ⟨-, heq⟩ |
    ⟨o₁, o₂, hid, -, ho₁, ho₂, -, hstep⟩ | ⟨fields, userId, -, hnone, -⟩
  · cases ho.symm.trans (heq.symm.trans ho')
    rw [List.self_eq_append_right.mp hhistory] at he
    cases he
  · cases ho₁.symm.trans ho
    cases ho₂.symm.trans ho'
    obtain ⟨job, order, n, hlabel, hstatus, hat⟩ := hstep.lapse hhistory he hlapse
    have hpre := hholds.pre
    rw [hlabel] at hid hcurrent hpre
    cases hid
    obtain ⟨-, -, -, hdelay, hdue⟩ := hpre
    obtain ⟨opening, hlast, hwindow⟩ := (hbefore _ o ho).opened hstatus deadline hdeadline
    have hjob : opening.at_ ≤ job.timestamp := by
      have hboth : o.statusHistory = order.statusHistory ∧ opening.at_ ≤ job.timestamp := by
        simpa [Call.windowCurrent, ho, hlast] using hcurrent
      exact hboth.2
    calc deadline ≤ opening.at_ + cfg.paymentWindow := hwindow
      _ ≤ job.timestamp + job.delay := hdelay ▸ Nat.add_le_add_right hjob _
      _ ≤ ev.began := hdue
      _ ≤ ev.env.time n := (hev.clock.2 n).1
      _ = e.at_ := hat.symm
  · exact absurd (hnone.symm.trans ho) (by simp)

/-- In every run whose timeout jobs belong to the window they close, no window
closes as lapsed before its deadline, and every order counts its lapsed windows. -/
theorem lapses_past_deadline {cfg : Settings} {log : List (Event Doc Call.Reply)}
    {s : Sys Doc Call.Reply Refusal Answer}
    (h : Run (machine cfg) Store.empty (fun ev => ev.label.windowCurrent ev.before = true) log s) :
    (∀ ev ∈ log, LapsesPastDeadline ev) ∧ ∀ id o, s.store.order id = some o → o.Counted := by
  have keep : ∀ ev id o o', ev.Sound (machine cfg) → ev.label.windowCurrent ev.before = true →
      (evolution cfg Store.empty).Holds ev → ev.label.subject = some id →
      ev.before.order id = some o → OrderStep cfg ev.env.time ev.label o o' →
      o.Windowed cfg ∧ o.Counted → o'.Windowed cfg ∧ o'.Counted := by
    intro ev id o o' hev hcurrent hholds hid hbefore hstep hI
    obtain ⟨o₁, -, hbase, hbefore₁, -⟩ := subject_step hev hholds.older hholds.pre hid
    cases hbefore₁.symm.trans hbefore
    have hpre := hholds.pre
    refine ⟨hstep.windowed hev.clock.1 (fun order source _ _ _ hlabel => ?_) hI.1,
      hstep.counted (fun job order hlabel => ?_) hI.2⟩
    · rw [hlabel] at hpre
      exact hpre.2
    · rw [hlabel] at hid hcurrent hpre
      cases hid
      obtain ⟨o₂, ho₂, hevolves⟩ := (hpre.1 order rfl).earlier
      cases ho₂.symm.trans hbase
      have hsame : o.statusHistory = order.statusHistory := by
        have hboth := hcurrent
        simp only [Call.windowCurrent, hbefore, Option.all_some, Bool.and_eq_true,
          decide_eq_true_eq] at hboth
        exact hboth.1
      exact (hevolves.count hsame).symm
  obtain ⟨hall, hrun⟩ := orders_invariant (I := fun _ o => o.Windowed cfg ∧ o.Counted)
    consistent_empty (fun id o ho => by cases ho)
    (fun _ fields => ⟨⟨fun _ _ => rfl, fun hpending => by cases hpending⟩, rfl⟩) keep h
  refine ⟨fun ev hev => ?_, fun id o ho => (hall id o ho).2⟩
  obtain ⟨hsound, hcurrent, hholds, hbefore⟩ := hrun.mem hev
  exact commit_lapses hsound hcurrent hholds fun id o ho => (hbefore id o ho).1

theorem lapses_past_deadline_twoWindows :
    ∃ log s, Run (machine Sample.cfg) Store.empty
        (fun ev => ev.label.windowCurrent ev.before = true) log s ∧
      ((s.store.order 100).any fun o => o.statusHistory.any (·.isLapse)) = true ∧
      (∀ ev ∈ log, LapsesPastDeadline ev) ∧ ∀ id o, s.store.order id = some o → o.Counted := by
  obtain ⟨log, s, hrun, htest⟩ := exists_run (machine Sample.cfg) Store.empty
    (fun ev => ev.label.windowCurrent ev.before = true) Sample.twoWindows
    (fun _ s => (s.store.order 100).any fun o => o.statusHistory.any (·.isLapse))
    (by decide +kernel)
  exact ⟨log, s, hrun, htest, lapses_past_deadline hrun⟩

/-- The first delivery of the job stops after its transaction and leaves the job
stored. The next window is opened, its job is not added, and the old one is
delivered again at once. -/
def Sample.redeliveredJob : List (Act Request) :=
  opening ++ serve (.create client (order .direct)) 10 6 100 ++
    serve (.approve fuelAdmin 100 none none) 11 17 200 ++
    [Act.tick 1800000, .arrive (Request.timeout ⟨100, 0, 1800000⟩), .step 12, .step 12, .step 12,
      .stop 12] ++
    serve (.redispatch client 100) 13 7 ++ serve (.timeout ⟨100, 0, 1800000⟩) 14 5

theorem lapses_past_deadline_redeliveredJob :
    ¬ ∀ (log : List (Event Doc Call.Reply)) (s : Sys Doc Call.Reply Refusal Answer),
      Run (machine Sample.cfg) Store.empty (fun _ => True) log s →
      (∀ ev ∈ log, LapsesPastDeadline ev) ∧ ∀ id o, s.store.order id = some o → o.Counted := by
  intro hclaim
  obtain ⟨log, s, hrun, htest⟩ := exists_run (machine Sample.cfg) Store.empty (fun _ => True)
    Sample.redeliveredJob
    (fun log _ => log.any fun ev => (ev.before.order 100).any fun o =>
      (ev.after.order 100).any fun o' => o.paymentDeadline = some 3600000 &&
        o'.statusHistory.take o.statusHistory.length = o.statusHistory &&
        (o'.statusHistory.drop o.statusHistory.length).any fun e =>
          e.isLapse && e.at_ = 1800000) (by decide +kernel)
  obtain ⟨ev, hev, htest⟩ := List.any_eq_true.mp htest
  obtain ⟨o, ho, htest⟩ := (Option.any_eq_true _ _).mp htest
  obtain ⟨o', ho', htest⟩ := (Option.any_eq_true _ _).mp htest
  simp only [Bool.and_eq_true, decide_eq_true_eq] at htest
  obtain ⟨⟨hdeadline, htake⟩, hentry⟩ := htest
  obtain ⟨e, he, hends⟩ := List.any_eq_true.mp hentry
  simp only [Bool.and_eq_true, decide_eq_true_eq] at hends
  have hhistory : o'.statusHistory =
      o.statusHistory ++ o'.statusHistory.drop o.statusHistory.length := by
    nth_rewrite 1 [← htake]
    exact (List.take_append_drop _ _).symm
  have hlate := (hclaim log s hrun).1 ev hev 100 o o' _ ho ho' hhistory e he hends.1 _ hdeadline
  rw [hends.2] at hlate
  exact absurd hlate (by decide)

end CiroFuel
