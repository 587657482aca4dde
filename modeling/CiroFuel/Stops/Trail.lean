import CiroFuel.Stops.Steps
import CiroFuel.Stops.Requests
import CiroFuel.Snapshot.History

/-!
# The trail of stops

The array of an order is only extended: no stop disappears, and none loses its
answer, its resolution or its escalation. At most one stop is open at a time,
because a stop is only pushed where none is open, in the same write, and no write
opens one again.
-/
namespace CiroFuel.Stops
open Snapshot

/-! ### Arrays -/

def openStops (stops : List StopEvent) : ℕ := stops.countP fun e => e.resolvedAt.isNone

/-- No two stops share an identifier, and at most one is open. -/
structure WellKept (stops : List StopEvent) : Prop where
  ids : (stops.map StopEvent.id).Nodup
  oneOpen : openStops stops ≤ 1

section clear
variable {o : Order} {now : Instant}

theorem clear_inTransit (h : o.clear now = true) : o.status = .inTransit :=
  of_decide_eq_true (Bool.and_eq_true_iff.mp h).1

theorem clear_unblocked (h : o.clear now = true) {e : StopEvent} (he : e ∈ o.stopEvents) :
    unblockedStopFilter now e = false := by
  have hany := (Bool.and_eq_true_iff.mp h).2
  rw [Bool.not_eq_true', List.any_eq_false] at hany
  simpa using hany e he

theorem clear_unsuppressed (h : o.clear now = true) {e : StopEvent} (he : e ∈ o.stopEvents)
    {u : Instant} (hu : e.suppressedUntil = some u) : u ≤ now := by
  have hfilter := clear_unblocked h he
  rw [unblockedStopFilter, hu, Bool.or_eq_false_iff] at hfilter
  simpa using hfilter.2

theorem clear_closed (h : o.clear now = true) : openStops o.stopEvents = 0 := by
  apply List.countP_eq_zero.mpr
  intro e he hopen
  have hfilter := clear_unblocked h he
  rw [unblockedStopFilter, Bool.or_eq_false_iff, hopen] at hfilter
  cases hfilter.1

end clear

theorem WellKept.push {stops : List StopEvent} {stop : StopEvent} (h : WellKept stops)
    (hclosed : openStops stops = 0) (hnew : ∀ e ∈ stops, e.id ≠ stop.id) :
    WellKept (stops ++ [stop]) := by
  constructor
  · rw [List.map_append, List.nodup_append]
    refine ⟨h.ids, List.nodup_singleton _, ?_⟩
    intro i hi j hj
    obtain ⟨e, he, rfl⟩ := List.mem_map.mp hi
    obtain ⟨e', he', rfl⟩ := List.mem_map.mp hj
    rw [List.mem_singleton.mp he']
    exact hnew e he
  · have hcount : openStops (stops ++ [stop]) = openStops stops + openStops [stop] :=
      List.countP_append
    have hone : openStops [stop] ≤ 1 := List.countP_le_length
    omega

theorem WellKept.setFirst {stops : List StopEvent} {p : StopEvent → Bool}
    {set : StopEvent → StopEvent} (h : WellKept stops) (hset : ∀ e, Continues e (set e)) :
    WellKept (Query.setFirst p set stops) := by
  constructor
  · rw [Query.setFirst_map fun e => (hset e).id]
    exact h.ids
  · apply le_trans ?_ h.oneOpen
    apply Query.countP_setFirst_le
    intro e _ hopen
    cases hresolved : e.resolvedAt with
    | none => rfl
    | some t =>
        have hstill := (hset e).resolved (by rw [hresolved]; rfl)
        rw [Option.isNone_iff_eq_none] at hopen
        rw [hopen] at hstill
        cases hstill

/-! ### Commits -/

/-- How an order comes to have the array after a commit. -/
inductive ArrayStep (s : Store Doc) (c : Call) (r : c.Reply) (id : Id) (stops : List StopEvent) :
    Prop where
  | opened (hnew : order s id = none) (hstops : stops = [])
  | same {o : Order} (ho : order s id = some o) (hstops : stops = o.stopEvents)
  | pushed {o : Order} {now : Instant} {stop : StopEvent} (ho : order s id = some o)
      (hpush : c.pushes r = some (id, now, stop)) (hclear : o.clear now = true)
      (hnew : ∀ e ∈ o.stopEvents, e.id ≠ stop.id) (hstops : stops = o.stopEvents ++ [stop])
  | marked {o : Order} {p : StopEvent → Bool} {set : StopEvent → StopEvent}
      (ho : order s id = some o) (hset : ∀ e, Continues e (set e))
      (hstops : stops = Query.setFirst p set o.stopEvents)

section step
variable {s s' : Store Doc} {c : Call} {r : c.Reply} {id : Id} {o o' : Order} {stop : StopEvent}

theorem Rewrites.cases {k : Id} (h : Rewrites s s' k o o') {a : Order}
    (ha : order s' id = some a) : id = k ∧ a = o' ∨ order s id = some a := by
  by_cases hid : id = k
  · subst hid
    exact Or.inl ⟨rfl, Option.some.inj (ha.symm.trans h.after)⟩
  · rw [h.others id hid] at ha
    exact Or.inr ha

theorem CallStep.array (h : CallStep s s' c r) (ho' : order s' id = some o') :
    ArrayStep s c r id o'.stopEvents := by
  cases h with
  | kept _ _ _ hsame => exact .same ((hsame id).symm.trans ho') rfl
  | @created new company _ hnew hself hothers =>
      by_cases hid : id = new
      · subst hid
        cases ho'.symm.trans hself
        exact .opened hnew rfl
      · exact .same ((hothers id hid).symm.trans ho') rfl
  | handed hrw =>
      rcases hrw.cases ho' with ⟨rfl, rfl⟩ | hsame
      · exact .same hrw.before rfl
      · exact .same hsame rfl
  | pushed hpush hclear hnew hrw =>
      rcases hrw.cases ho' with ⟨rfl, rfl⟩ | hsame
      · exact .pushed hrw.before hpush hclear hnew rfl
      · exact .same hsame rfl
  | marked _ hset _ hrw =>
      rcases hrw.cases ho' with ⟨rfl, rfl⟩ | hsame
      · exact .marked hrw.before (fun e => (hset e).1) rfl
      · exact .same hsame rfl
  | moved _ _ hrw =>
      rcases hrw.cases ho' with ⟨rfl, rfl⟩ | hsame
      · exact .same hrw.before rfl
      · exact .same hsame rfl

/-- No order disappears. -/
theorem CallStep.present (h : CallStep s s' c r) (ho : order s id = some o) :
    ∃ o', order s' id = some o' := by
  have hrewritten : ∀ {k : Id} {a b : Order}, Rewrites s s' k a b → ∃ o', order s' id = some o' := by
    intro k a b hrw
    by_cases hid : id = k
    · subst hid
      exact ⟨b, hrw.after⟩
    · exact ⟨o, (hrw.others id hid).trans ho⟩
  cases h with
  | kept _ _ _ hsame => exact ⟨o, (hsame id).trans ho⟩
  | @created new company _ hnew hself hothers =>
      by_cases hid : id = new
      · subst hid
        exact ⟨_, hself⟩
      · exact ⟨o, (hothers id hid).trans ho⟩
  | handed hrw => exact hrewritten hrw
  | pushed _ _ _ hrw => exact hrewritten hrw
  | marked _ _ _ hrw => exact hrewritten hrw
  | moved _ _ hrw => exact hrewritten hrw

/-- Only a push makes an array longer. -/
theorem CallStep.appended (h : CallStep s s' c r) (ho : order s id = some o)
    (ho' : order s' id = some o') (hstops : o'.stopEvents = o.stopEvents ++ [stop]) :
    ∃ now, c.pushes r = some (id, now, stop) ∧ o.clear now = true := by
  have hlonger : o'.stopEvents.length = o.stopEvents.length + 1 := by
    rw [hstops, List.length_append, List.length_singleton]
  cases h.array ho' with
  | opened hnew _ => cases ho.symm.trans hnew
  | same hsame hl =>
      cases ho.symm.trans hsame
      rw [hl] at hlonger
      omega
  | pushed hsame hpush hclear _ hl =>
      cases ho.symm.trans hsame
      cases List.append_cancel_left (hstops.symm.trans hl)
      exact ⟨_, hpush, hclear⟩
  | marked hsame _ hl =>
      cases ho.symm.trans hsame
      rw [hl, Query.length_setFirst] at hlonger
      omega

theorem CallStep.wellKept (h : CallStep s s' c r)
    (hs : ∀ id o, order s id = some o → WellKept o.stopEvents) (ho' : order s' id = some o') :
    WellKept o'.stopEvents := by
  cases h.array ho' with
  | opened _ hl =>
      rw [hl]
      exact ⟨List.nodup_nil, Nat.zero_le _⟩
  | same ho hl =>
      rw [hl]
      exact hs id _ ho
  | pushed ho _ hclear hnew hl =>
      rw [hl]
      exact (hs id _ ho).push (clear_closed hclear) hnew
  | marked ho hset hl =>
      rw [hl]
      exact (hs id _ ho).setFirst hset

end step

/-- Every order of `s` is one of `s'`, and its stops have only been added to. -/
def Grows (s s' : Store Doc) : Prop :=
  ∀ id o, order s id = some o →
    ∃ o', order s' id = some o' ∧ Query.Extends Continues o.stopEvents o'.stopEvents

theorem Grows.refl (s : Store Doc) : Grows s s :=
  fun _ o ho => ⟨o, ho, Query.Extends.refl Continues.refl _⟩

theorem Grows.trans {a b c : Store Doc} (h : Grows a b) (h' : Grows b c) : Grows a c := by
  intro id o ho
  obtain ⟨o', ho', hext⟩ := h id o ho
  obtain ⟨o'', ho'', hext'⟩ := h' id o' ho'
  exact ⟨o'', ho'', hext.trans (fun _ _ _ => Continues.trans) hext'⟩

theorem CallStep.grows {s s' : Store Doc} {c : Call} {r : c.Reply} (h : CallStep s s' c r) :
    Grows s s' := by
  intro id o ho
  obtain ⟨o', ho'⟩ := h.present ho
  refine ⟨o', ho', ?_⟩
  cases h.array ho' with
  | opened hnew _ => cases ho.symm.trans hnew
  | same hsame hl =>
      cases ho.symm.trans hsame
      rw [hl]
      exact Query.Extends.refl Continues.refl _
  | pushed hsame _ _ _ hl =>
      cases ho.symm.trans hsame
      rw [hl]
      exact Query.Extends.push Continues.refl _ _
  | marked hsame hset hl =>
      cases ho.symm.trans hsame
      rw [hl]
      exact Query.Extends.rewritten Continues.refl (fun e _ => hset e) _

/-! ### Runs -/

/-- The commit appends the stop to the array of the order, which was `o`. -/
structure Appends (ev : Event Doc Call.Reply) (id : Id) (stop : StopEvent) (o : Order) : Prop where
  before : order ev.before id = some o
  after : ∃ o', order ev.after id = some o' ∧ o'.stopEvents = o.stopEvents ++ [stop]

/-- What holds of the stops after the commits in `log`. -/
structure Trail (log : List (Event Doc Call.Reply)) (s : Store Doc) : Prop where
  oneOpen : ∀ id o, order s id = some o → openStops o.stopEvents ≤ 1
  appended : ∀ id o, order s id = some o → ∀ stop ∈ o.stopEvents,
    ∃ ev ∈ log, ∃ stop₀ o₀, Appends ev id stop₀ o₀ ∧ Continues stop₀ stop
  inTransit : ∀ ev ∈ log, ∀ id stop o, Appends ev id stop o → o.status = .inTransit
  unsuppressed : ∀ ev ∈ log, ∀ id stop o, Appends ev id stop o → ∀ e ∈ o.stopEvents, ∀ u,
    e.suppressedUntil = some u → u ≤ stop.detectedAt ∧ stop.detectedAt ≤ ev.ended
  settled : ∀ later earlier, log = later ++ earlier → Grows (leaves Store.empty earlier) s

/-- The condition is evaluated before the instant that is stored, and that before the write. -/
theorem pushes_timely {c : Call} {r : c.Reply} {id : Id} {now began : Instant} {stop : StopEvent}
    (hready : c.Ready began) (hpush : c.pushes r = some (id, now, stop)) :
    now ≤ stop.detectedAt ∧ stop.detectedAt ≤ began := by
  cases c with
  | raiseStop orderId now' detectedAt location =>
      cases r with
      | none => cases hpush
      | some stopId =>
          cases hpush
          exact hready
  | declareStop orderId driverId now' input =>
      cases r with
      | none => cases hpush
      | some stopId =>
          cases hpush
          exact ⟨le_rfl, hready⟩
  | reportBlocked orderId driverId now' location input =>
      cases r with
      | none => cases hpush
      | some stopId =>
          cases hpush
          exact ⟨le_rfl, hready⟩
  | _ => cases hpush

section run
variable {P : Event Doc Call.Reply → Prop} {log : List (Event Doc Call.Reply)}
variable {s : Sys Doc Call.Reply HttpError Answer} {ev : Event Doc Call.Reply} {id : Id}
variable {o : Order} {stop : StopEvent}

theorem Appends.clear (h : Appends ev id stop o)
    (hstep : CallStep ev.before ev.after ev.label ev.reply) :
    ∃ now, ev.label.pushes ev.reply = some (id, now, stop) ∧ o.clear now = true := by
  obtain ⟨o', ho', hstops⟩ := h.after
  exact hstep.appended h.before ho' hstops

theorem Appends.unsuppressed (h : Appends ev id stop o)
    (hstep : CallStep ev.before ev.after ev.label ev.reply) (hready : ev.label.Ready ev.began)
    (hclock : ev.env.Within ev.began ev.ended) {e : StopEvent} (he : e ∈ o.stopEvents)
    {u : Instant} (hu : e.suppressedUntil = some u) :
    u ≤ stop.detectedAt ∧ stop.detectedAt ≤ ev.ended := by
  obtain ⟨now, hpush, hclear⟩ := h.clear hstep
  obtain ⟨hnow, hbegan⟩ := pushes_timely hready hpush
  obtain ⟨hlo, hhi⟩ := hclock.2 0
  constructor
  · exact (clear_unsuppressed hclear he hu).trans hnow
  · exact hbegan.trans (hlo.trans hhi)

/-- The commits of a run as steps on the orders. -/
theorem run_steps {init : Store Doc} (h : Run machine init P log s) :
    Run machine init (fun ev => P ev ∧ ev.label.Ready ev.began ∧
      CallStep ev.before ev.after ev.label ev.reply) log s := by
  apply (run_prepared h).weaken
  intro ev hev hprepared
  exact ⟨hprepared.1, hprepared.2.1, call_step hev hprepared.2.2⟩

/-- In every run no order ever shares stops' identifiers or has two open stops. -/
theorem run_wellKept (h : Run machine Store.empty P log s) (id : Id) (o : Order)
    (ho : order s.store id = some o) : WellKept o.stopEvents := by
  have hall : ∀ id o, order s.store id = some o → WellKept o.stopEvents := by
    refine Run.logged (J := fun _ s => ∀ id o, order s id = some o → WellKept o.stopEvents)
      ?_ ?_ (run_steps h)
    · intro id o ho
      cases ho
    · intro log ev _ hev hs id o ho
      exact hev.2.2.wellKept hs ho
  exact hall id o ho

/-- Every stop of every order has been appended to it. -/
def Appended (log : List (Event Doc Call.Reply)) (s : Store Doc) : Prop :=
  ∀ id o, order s id = some o → ∀ stop ∈ o.stopEvents,
    ∃ ev ∈ log, ∃ stop₀ o₀, Appends ev id stop₀ o₀ ∧ Continues stop₀ stop

theorem Appended.step (h : Appended log ev.before)
    (hstep : CallStep ev.before ev.after ev.label ev.reply) : Appended (ev :: log) ev.after := by
  intro id o' ho' stop hstop
  have hold : ∀ o, order ev.before id = some o → ∀ e ∈ o.stopEvents,
      ∃ ev' ∈ ev :: log, ∃ stop₀ o₀, Appends ev' id stop₀ o₀ ∧ Continues stop₀ e := by
    intro o ho e he
    obtain ⟨ev', hmem, happends⟩ := h id o ho e he
    exact ⟨ev', List.mem_cons_of_mem _ hmem, happends⟩
  cases hstep.array ho' with
  | opened _ hl =>
      rw [hl] at hstop
      cases hstop
  | same ho hl =>
      rw [hl] at hstop
      exact hold _ ho stop hstop
  | @pushed o now new ho _ _ _ hl =>
      rw [hl] at hstop
      rcases List.mem_append.mp hstop with hmem | hmem
      · exact hold _ ho stop hmem
      · rw [List.mem_singleton.mp hmem]
        exact ⟨ev, List.mem_cons_self, new, o, ⟨ho, o', ho', hl⟩, Continues.refl new⟩
  | marked ho hset hl =>
      rw [hl] at hstop
      obtain ⟨e, he, heq⟩ := Query.of_mem_setFirst hstop
      obtain ⟨ev', hmem, stop₀, o₀, happends, hcontinues⟩ := hold _ ho e he
      refine ⟨ev', hmem, stop₀, o₀, happends, ?_⟩
      rcases heq with rfl | rfl
      · exact hcontinues
      · exact hcontinues.trans (hset e)

theorem run_appended (h : Run machine Store.empty P log s) : Appended log s.store := by
  apply Run.logged ?_ ?_ (run_steps h)
  · intro id o ho
    cases ho
  · intro log ev _ hev happended
    exact happended.step hev.2.2

theorem run_grows {init : Store Doc} (h : Run machine init P log s)
    {later earlier : List (Event Doc Call.Reply)} (hlog : log = later ++ earlier) :
    Grows (leaves init earlier) s.store := by
  subst hlog
  exact (run_steps h).since (Grows.refl _) fun ev _ _ hev hgrows => hgrows.trans hev.2.2.grows

end run

/-- However sweeps, drivers, administrators and transitions interleave, the stops keep
their trail. -/
theorem stops_trailed {P : Event Doc Call.Reply → Prop} {log : List (Event Doc Call.Reply)}
    {s : Sys Doc Call.Reply HttpError Answer} (h : Run machine Store.empty P log s) :
    Trail log s.store := by
  have hsteps := run_steps h
  constructor
  · intro id o ho
    exact (run_wellKept h id o ho).oneOpen
  · exact run_appended h
  · intro ev hev id stop o happends
    obtain ⟨-, -, -, hstep⟩ := hsteps.mem hev
    obtain ⟨now, -, hclear⟩ := happends.clear hstep
    exact clear_inTransit hclear
  · intro ev hev id stop o happends e he u hu
    obtain ⟨hsound, -, hready, hstep⟩ := hsteps.mem hev
    exact happends.unsuppressed hstep hready hsound.clock he hu
  · intro later earlier hlog
    exact run_grows h hlog

namespace Sample

/-- A delivery of driver 3 that is on its way; the requests are threads 0 to 7. -/
def departed : List (Act Request) :=
  serving (Request.createOrder 1 7) 0 2 ++ serving (Request.setParties 1 (some 8) (some 3)) 1 2 ++
    serving (Request.transition 1 .pendingApproval .approved false) 2 2 ++
    serving (Request.transition 1 .approved .routedToTransport false) 3 2 ++
    serving (Request.transition 1 .routedToTransport .assignedToDriver false) 4 2 ++
    serving (Request.transition 1 .assignedToDriver .loading false) 5 2 ++
    serving (Request.transition 1 .loading .inTransit false) 6 2 ++
    serving (Request.putUser 3 ⟨some 8, .driver, true, some 1, some 0, none⟩) 7 2

/-- The driver declares a stop of a minute; two sweeps find the driver standing after it. -/
def declared : List (Act Request) :=
  departed ++ serving (Request.declareStop 1 3 ⟨⟨.traffic, none⟩, 1⟩) 8 4 20 ++ [Act.tick 60001] ++
    serving (Request.sweep 0) 9 6 30 ++ serving (Request.sweep 0) 10 6 40 ++
    List.replicate 4 (Act.step 9 true 50)

end Sample

theorem stops_trailed_declared : ∃ log s, Run machine Store.empty (fun _ => True) log s ∧
    (order s.store 1).map (fun o => o.stopEvents.map StopEvent.id) = some [20, 30] ∧
    Trail log s.store := by
  obtain ⟨log, s, hrun, htest⟩ := exists_run machine Store.empty (fun _ => True) Sample.declared
    (fun _ s => decide
      ((order s.store 1).map (fun o => o.stopEvents.map StopEvent.id) = some [20, 30]))
    (by decide +kernel)
  exact ⟨log, s, hrun, of_decide_eq_true htest, stops_trailed hrun⟩

end CiroFuel.Stops
