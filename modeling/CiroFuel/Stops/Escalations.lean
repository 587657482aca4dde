import CiroFuel.Stops.Trail

/-!
# Claims for escalation

A job claims a stop in one write, which finds it neither answered nor resolved nor
claimed. Marks stay, so each stop is claimed once at most, and never after it was
answered or resolved. The status of the order is not part of that condition: the
job has read it before, and the delivery may have come to its end in between.
-/
namespace CiroFuel.Stops
open Snapshot

/-- The commit claims the stop. -/
def Claims (ev : Event Doc Call.Reply) (id stopId : Id) : Prop :=
  ev.label.marks ev.reply = some (id, stopId, .claimed)

instance (ev : Event Doc Call.Reply) (id stopId : Id) : Decidable (Claims ev id stopId) :=
  inferInstanceAs (Decidable (_ = _))

def Order.over (o : Order) : Bool := o.status = .delivered || o.status = .cancelled

/-- The commit delivers or cancels the order. -/
def Ends (ev : Event Doc Call.Reply) (id : Id) : Prop :=
  ∃ source target b, ev.label.moves = some (id, source, target, b) ∧
    (target = .delivered ∨ target = .cancelled)

/-- The order has come to its end since the job read it, and the stop can still be claimed. -/
def Call.Overtaken : Call → Store Doc → Bool
  | .claim o stopId _, s =>
      (order s o.id).any fun now =>
        now.status ≠ o.status && now.over && now.stopEvents.any (unclaimed stopId)
  | _, _ => false

/-- What holds of a claim that comes after the commits in `earlier`. -/
structure Rightful (earlier : List (Event Doc Call.Reply)) (ev : Event Doc Call.Reply)
    (id stopId : Id) : Prop where
  once : ∀ ev' ∈ earlier, ¬ Claims ev' id stopId
  unanswered : ∀ ev' ∈ earlier, ev'.label.marks ev'.reply ≠ some (id, stopId, .answered)
  unresolved : ∀ ev' ∈ earlier, ev'.label.marks ev'.reply ≠ some (id, stopId, .resolved)
  live : ∃ o, order ev.before id = some o ∧ ∃ stop ∈ o.stopEvents, stop.id = stopId ∧
    stop.reasonGivenAt = none ∧ stop.resolvedAt = none
  underway : ∀ ev' ∈ earlier, ¬ Ends ev' id

/-! ### Labels -/

section labels
variable {c : Call} {r : c.Reply}

theorem pushes_only {x : Id × Instant × StopEvent} (h : c.pushes r = some x) :
    c.marks r = none ∧ c.moves = none := by
  cases c with
  | raiseStop => exact ⟨rfl, rfl⟩
  | declareStop => exact ⟨rfl, rfl⟩
  | reportBlocked => exact ⟨rfl, rfl⟩
  | _ => cases h

theorem marks_only {x : Id × Id × Mark} (h : c.marks r = some x) : c.moves = none := by
  cases c with
  | submitReason => rfl
  | resolveByAdmin => rfl
  | claim => rfl
  | _ => cases h

theorem moves_only {x : Id × OrderStatus × OrderStatus × Bool} (h : c.moves = some x) :
    c.marks r = none := by
  cases c with
  | transition => rfl
  | cancel => rfl
  | completeDelivery => rfl
  | forceComplete => rfl
  | _ => cases h

end labels

theorem permits_over {o : Order} (h : o.over = true) (target : OrderStatus) (b : Bool) :
    permits o.status target b = false := by
  rw [Order.over, Bool.or_eq_true, decide_eq_true_eq, decide_eq_true_eq] at h
  rcases h with h | h
  · rw [h]
    rfl
  · rw [h]
    rfl

/-! ### Marks stay -/

section steps
variable {s s' : Store Doc} {c : Call} {r : c.Reply} {id stopId : Id} {m : Mark}

/-- The order has a stop of that identifier with the mark. -/
def Marked (s : Store Doc) (id stopId : Id) (m : Mark) : Prop :=
  ∃ o, order s id = some o ∧ ∃ stop ∈ o.stopEvents, stop.id = stopId ∧ m.on stop = true

theorem Marked.later (h : Marked s id stopId m) (hgrows : Grows s s') :
    Marked s' id stopId m := by
  obtain ⟨o, ho, stop, hstop, hid, hon⟩ := h
  obtain ⟨o', ho', hext⟩ := hgrows id o ho
  obtain ⟨stop', hstop', hcontinues⟩ := hext.mem hstop
  exact ⟨o', ho', stop', hstop', hcontinues.id.trans hid, Mark.stays hcontinues hon⟩

/-- What a marking write has found and what it leaves. -/
theorem CallStep.marks (h : CallStep s s' c r) (hmark : c.marks r = some (id, stopId, m)) :
    (∃ o, order s id = some o ∧ ∃ stop ∈ o.stopEvents, m.free stopId stop = true) ∧
      Marked s' id stopId m := by
  cases h with
  | kept _ hnone _ _ => cases hnone.symm.trans hmark
  | created => cases hmark
  | handed => cases hmark
  | pushed hpush => cases (pushes_only hpush).1.symm.trans hmark
  | moved hmove => cases (moves_only hmove).symm.trans hmark
  | @marked _ _ _ _ _ o set hmark' hset hfree hrw =>
      cases hmark'.symm.trans hmark
      obtain ⟨stop, hstop, hstopfree⟩ := hfree
      obtain ⟨e, -, hefree, hmem⟩ := Query.setFirst_mem (f := set) hstop hstopfree
      constructor
      · exact ⟨o, hrw.before, stop, hstop, hstopfree⟩
      · exact ⟨_, hrw.after, set e, hmem, (hset e).1.id.trans (Mark.free_id hefree), (hset e).2⟩

/-- A stop that is free to be claimed has no mark. -/
theorem unclaimed_unmarked {stop : StopEvent} (h : unclaimed stopId stop = true) (m : Mark) :
    m.on stop = false := by
  simp only [unclaimed, Bool.and_eq_true, Option.isNone_iff_eq_none] at h
  obtain ⟨⟨⟨-, hclaimed⟩, hanswered⟩, hresolved⟩ := h
  cases m with
  | answered => rw [Mark.on, hanswered]; rfl
  | resolved => rw [Mark.on, hresolved]; rfl
  | claimed => rw [Mark.on, hclaimed]; rfl

theorem unclaimed_not_marked {o : Order} {stop : StopEvent} (hkept : WellKept o.stopEvents)
    (ho : order s id = some o) (hstop : stop ∈ o.stopEvents)
    (hfree : unclaimed stopId stop = true) : ¬ Marked s id stopId m := by
  rintro ⟨o', ho', stop', hstop', hid, hon⟩
  cases ho'.symm.trans ho
  have hsame : stop' = stop := by
    apply List.inj_on_of_nodup_map hkept.ids hstop' hstop
    exact hid.trans (Mark.free_id (m := .claimed) hfree).symm
  subst hsame
  rw [unclaimed_unmarked hfree m] at hon
  cases hon

/-! ### The end of an order is its end -/

/-- A relation between what an order was and what it is. -/
theorem Rewrites.relates {k : Id} {o o' a b : Order} {J : Order → Order → Prop}
    (h : Rewrites s s' k o o') (hrefl : ∀ a, J a a) (hJ : J o o') (ha : order s id = some a)
    (hb : order s' id = some b) : J a b := by
  rcases h.cases hb with ⟨rfl, rfl⟩ | hsame
  · cases ha.symm.trans h.before
    exact hJ
  · cases ha.symm.trans hsame
    exact hrefl a

/-- An order keeps its status or takes an edge of the state machine. -/
theorem CallStep.status (h : CallStep s s' c r) {o o' : Order} (ho : order s id = some o)
    (ho' : order s' id = some o') :
    o'.status = o.status ∨ ∃ b, permits o.status o'.status b = true := by
  let J : Order → Order → Prop := fun a b =>
    b.status = a.status ∨ ∃ m, permits a.status b.status m = true
  have hrefl : ∀ a, J a a := fun _ => Or.inl rfl
  change J o o'
  cases h with
  | kept _ _ _ hsame =>
      cases ho'.symm.trans ((hsame id).trans ho)
      exact hrefl o
  | @created new company _ hnew hself hothers =>
      have hid : id ≠ new := by
        rintro rfl
        cases hnew.symm.trans ho
      cases ho'.symm.trans ((hothers id hid).trans ho)
      exact hrefl o
  | handed hrw => exact hrw.relates hrefl (Or.inl rfl) ho ho'
  | pushed _ _ _ hrw => exact hrw.relates hrefl (Or.inl rfl) ho ho'
  | marked _ _ _ hrw => exact hrw.relates hrefl (Or.inl rfl) ho ho'
  | moved _ hpermits hrw => exact hrw.relates hrefl (Or.inr ⟨_, hpermits⟩) ho ho'

theorem CallStep.over (h : CallStep s s' c r) {o : Order} (ho : order s id = some o)
    (hover : o.over = true) : ∃ o', order s' id = some o' ∧ o'.over = true := by
  obtain ⟨o', ho'⟩ := h.present ho
  refine ⟨o', ho', ?_⟩
  rcases h.status ho ho' with hsame | ⟨b, hpermits⟩
  · rw [Order.over, hsame]
    exact hover
  · rw [permits_over hover] at hpermits
    cases hpermits

theorem CallStep.ends {source target : OrderStatus} {b : Bool} (h : CallStep s s' c r)
    (hmove : c.moves = some (id, source, target, b))
    (htarget : target = .delivered ∨ target = .cancelled) :
    ∃ o, order s' id = some o ∧ o.over = true := by
  cases h with
  | kept _ _ hnone _ => cases hnone.symm.trans hmove
  | created => cases hmove
  | handed => cases hmove
  | pushed hpush => cases (pushes_only hpush).2.symm.trans hmove
  | marked hmark => cases (marks_only hmark).symm.trans hmove
  | moved hmove' _ hrw =>
      cases hmove'.symm.trans hmove
      refine ⟨_, hrw.after, ?_⟩
      rcases htarget with rfl | rfl
      · rfl
      · rfl

end steps

/-! ### Runs -/

section run
variable {P : Event Doc Call.Reply → Prop} {log earlier : List (Event Doc Call.Reply)}
variable {s : Sys Doc Call.Reply HttpError Answer} {ev : Event Doc Call.Reply}
variable {init : Store Doc} {id stopId : Id}

/-- Whatever a run has marked is still marked. -/
theorem run_marked (h : Run machine init P log s) (hev : ev ∈ log) {m : Mark}
    (hmark : ev.label.marks ev.reply = some (id, stopId, m)) : Marked s.store id stopId m := by
  have hall : ∀ ev ∈ log, ∀ id stopId m, ev.label.marks ev.reply = some (id, stopId, m) →
      Marked s.store id stopId m := by
    refine Run.logged (J := fun log s => ∀ ev ∈ log, ∀ id stopId m,
      ev.label.marks ev.reply = some (id, stopId, m) → Marked s id stopId m) ?_ ?_ (run_steps h)
    · intro ev hev
      cases hev
    · intro log last _ hlast ih ev hev id stopId m hmark
      rcases List.mem_cons.mp hev with rfl | hev
      · exact (hlast.2.2.marks hmark).2
      · exact (ih ev hev id stopId m hmark).later hlast.2.2.grows
  exact hall ev hev id stopId m hmark

/-- Whatever a run has ended is over. -/
theorem run_over (h : Run machine init P log s) (hev : ev ∈ log) (hends : Ends ev id) :
    ∃ o, order s.store id = some o ∧ o.over = true := by
  have hall : ∀ ev ∈ log, ∀ id, Ends ev id → ∃ o, order s.store id = some o ∧ o.over = true := by
    refine Run.logged (J := fun log s => ∀ ev ∈ log, ∀ id, Ends ev id →
      ∃ o, order s id = some o ∧ o.over = true) ?_ ?_ (run_steps h)
    · intro ev hev
      cases hev
    · intro log last _ hlast ih ev hev id hends
      rcases List.mem_cons.mp hev with rfl | hev
      · obtain ⟨source, target, b, hmove, htarget⟩ := hends
        exact hlast.2.2.ends hmove htarget
      · obtain ⟨o, ho, hover⟩ := ih ev hev id hends
        exact hlast.2.2.over ho hover
  exact hall ev hev id hends

/-- The job has read the order of its claim in a status that is not final. -/
theorem claims_read (hclaims : Claims ev id stopId) (hready : ev.label.Ready ev.began) :
    ∃ o t, ev.label = .claim o stopId t ∧ o.id = id ∧ o.status ∉ FINAL_STATUSES := by
  obtain ⟨i, label, base, env, began, ended, reply, view, before, after⟩ := ev
  cases label with
  | claim o stopId' t =>
      have hmarks : (Call.claim o stopId' t).marks reply = some (id, stopId, .claimed) := hclaims
      cases reply with
      | false => cases hmarks
      | true =>
          cases hmarks
          exact ⟨o, t, rfl, rfl, hready⟩
  | submitReason orderId driverId stopId' now input =>
      cases reply <;> cases hclaims
  | resolveByAdmin orderId stopId' resolvedAt adminUserId =>
      cases reply <;> cases hclaims
  | _ => cases hclaims

theorem over_final {o : Order} (h : o.over = true) : o.status ∈ FINAL_STATUSES := by
  rw [Order.over, Bool.or_eq_true, decide_eq_true_eq, decide_eq_true_eq] at h
  rcases h with h | h
  · rw [h]
    decide
  · rw [h]
    decide

/-- A claim on an order that is over has been overtaken. -/
theorem claims_overtaken (hclaims : Claims ev id stopId) (hready : ev.label.Ready ev.began)
    {o : Order} (ho : order ev.before id = some o) (hover : o.over = true) {stop : StopEvent}
    (hstop : stop ∈ o.stopEvents) (hfree : unclaimed stopId stop = true) :
    ev.label.Overtaken ev.before = true := by
  obtain ⟨read, t, hlabel, rfl, hfinal⟩ := claims_read hclaims hready
  have hmoved : o.status ≠ read.status := by
    intro hsame
    apply hfinal
    rw [← hsame]
    exact over_final hover
  have hany : o.stopEvents.any (unclaimed stopId) = true := List.any_eq_true.mpr ⟨stop, hstop, hfree⟩
  rw [hlabel, Call.Overtaken, ho, Option.any_some, hover, hany]
  simpa using hmoved

/-- Unless a delivery comes to its end between the read and the write of a job, claims are
about live stops of deliveries that are under way, and made once. -/
theorem claims_rightful
    (h : Run machine Store.empty (fun ev => ev.label.Overtaken ev.before = false) log s)
    (later : List (Event Doc Call.Reply)) (hlog : log = later ++ ev :: earlier)
    (hclaims : Claims ev id stopId) : Rightful earlier ev id stopId := by
  subst hlog
  obtain ⟨-, ⟨hovertaken, hready, hstep⟩, s', hrun, hbefore⟩ := (run_steps h).upTo
  obtain ⟨⟨o, ho, stop, hstop, hfree⟩, -⟩ := hstep.marks hclaims
  have hkept : WellKept o.stopEvents := by
    apply run_wellKept hrun id o
    rw [hbefore]
    exact ho
  have hunmarked : ∀ m, ∀ ev' ∈ earlier, ev'.label.marks ev'.reply ≠ some (id, stopId, m) := by
    intro m ev' hev' hmark
    apply unclaimed_not_marked hkept ho hstop hfree
    rw [← hbefore]
    exact run_marked hrun hev' hmark
  have hnone := unclaimed_unmarked hfree
  constructor
  · exact hunmarked .claimed
  · exact hunmarked .answered
  · exact hunmarked .resolved
  · refine ⟨o, ho, stop, hstop, Mark.free_id (m := .claimed) hfree, ?_, ?_⟩
    · simpa [Mark.on] using hnone .answered
    · simpa [Mark.on] using hnone .resolved
  · intro ev' hev' hends
    obtain ⟨o', ho', hover⟩ := run_over hrun hev' hends
    rw [hbefore] at ho'
    cases ho.symm.trans ho'
    rw [claims_overtaken hclaims hready ho hover hstop hfree] at hovertaken
    cases hovertaken

end run

namespace Sample

/-- The sweep finds the driver standing and raises stop 20; nobody answers. -/
def standing : List (Act Request) :=
  departed ++ [Act.tick 1] ++ serving (Request.sweep 0) 8 10 20 ++ [Act.tick 300000]

def escalating : List (Act Request) := standing ++ serving (Request.escalate 20 1) 9 4

/-- The delivery is force-completed while the job is at work. -/
def completed : List (Act Request) :=
  standing ++ serving (Request.escalate 20 1) 9 2 ++ serving (Request.forceComplete 1) 10 3 ++
    [Act.step 9, .step 9]

end Sample

theorem claims_rightful_escalating : ∃ ev earlier s,
    Run machine Store.empty (fun ev => ev.label.Overtaken ev.before = false) (ev :: earlier) s ∧
      Claims ev 1 20 ∧ Rightful earlier ev 1 20 := by
  obtain ⟨log, s, hrun, htest⟩ := exists_run machine Store.empty
    (fun ev => ev.label.Overtaken ev.before = false) Sample.escalating
    (fun log _ => log.head?.any fun ev => decide (Claims ev 1 20)) (by decide +kernel)
  cases log with
  | nil => cases htest
  | cons ev earlier =>
      have hclaims : Claims ev 1 20 := of_decide_eq_true htest
      exact ⟨ev, earlier, s, hrun, hclaims, claims_rightful hrun [] rfl hclaims⟩

/-- A stop is claimed after its delivery has been completed. -/
theorem claims_unrightful : ¬ ∀ (log : List (Event Doc Call.Reply))
    (s : Sys Doc Call.Reply HttpError Answer), Run machine Store.empty (fun _ => True) log s →
    ∀ later ev earlier, log = later ++ ev :: earlier → ∀ id stopId, Claims ev id stopId →
      Rightful earlier ev id stopId := by
  intro hall
  obtain ⟨log, s, hrun, htest⟩ := exists_run machine Store.empty (fun _ => True) Sample.completed
    (fun log _ => (log.head?.any fun ev => decide (Claims ev 1 20)) &&
      log.tail.any fun ev => decide (ev.label.moves = some (1, .inTransit, .delivered, true)))
    (by decide +kernel)
  simp only [Bool.and_eq_true] at htest
  obtain ⟨hhead, htail⟩ := htest
  cases log with
  | nil => cases hhead
  | cons ev earlier =>
      have hclaims : Claims ev 1 20 := of_decide_eq_true hhead
      obtain ⟨ev', hev', hmoves⟩ := List.any_eq_true.mp htail
      have hends : Ends ev' 1 := ⟨_, _, _, of_decide_eq_true hmoves, Or.inl rfl⟩
      exact (hall _ s hrun [] ev earlier rfl 1 20 hclaims).underway ev' hev' hends

end CiroFuel.Stops
