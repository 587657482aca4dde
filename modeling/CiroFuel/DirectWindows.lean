import CiroFuel.Races

/-!
# Windows of direct orders

Only a direct order is paid at a gateway, so only a direct order may lapse. Routing
opens a window for direct orders alone. Re-opening asks for no method: an order that
was left at approval gets a window whatever its method is.
-/
namespace CiroFuel
open Snapshot Discipline Handler

/-- The requests that take an order from creation to payment. -/
def Request.settling : Request → Bool
  | .create .. | .approve .. | .route .. | .redispatch .. | .accept .. | .webhook .. | .timeout _
  | .administer _ => true
  | _ => false

/-- A window is re-opened for a direct order. -/
def Call.reopensDirect (c : Call) (s : Db) : Bool :=
  match c with
  | .reopen order _ => (s.order order.id).all (·.paymentMethod = .direct)
  | _ => true

def IsDirect (s : Db) (id : Id) : Prop := ∃ o, s.order id = some o ∧ o.paymentMethod = .direct

theorem IsDirect.progress {a b : Db} {id : Id} (h : IsDirect a id) (hab : Progress a b) :
    IsDirect b id := by
  obtain ⟨o, ho, hmethod⟩ := h
  obtain ⟨o', ho', hevolves⟩ := hab.orders id o ho
  exact ⟨o', ho', hevolves.paymentMethod.trans hmethod⟩

/-! ### Timeouts are for direct orders -/

/-- The calls of the settling requests that ask nothing of the order they are about. -/
def Call.methodFree : Call → Bool
  | .schedule _ | .timeOut .. | .cancel .. => false
  | _ => true

/-- What a call asks of the method of its order. -/
def Call.asksDirect : Call → Db → Prop
  | .schedule id, s => IsDirect s id
  | .timeOut _ order, s => IsDirect s order.id
  | .cancel .., _ => False
  | _, _ => True

/-- What a reply tells about the method of its order. -/
def Call.tellsDirect : (c : Call) → c.Reply → Db → Prop
  | .route .., (awaiting : OrderDocument), s =>
      awaiting.paymentMethod = .direct → IsDirect s awaiting.id
  | .reopen order _, _, s => IsDirect s order.id
  | _, _, _ => True

/-- Jobs are stored for direct orders, and orders keep their method. -/
def lapsing : Discipline Doc Call.Reply where
  inv s := ∀ id job, s.find (Key.timeoutJob id) = some (some job) → IsDirect s id
  rely a b := ∀ id, IsDirect a id → IsDirect b id
  pre c s _ := c.asksDirect s
  post := Call.tellsDirect

theorem lapsing_coherent : lapsing.Coherent where
  refl := fun _ _ h => h
  trans := fun hab hbc id h => hbc id (hab id h)
  stable := by
    intro c s s' t hpre hrely _
    cases c with
    | schedule id => exact hrely id hpre
    | timeOut job order => exact hrely order.id hpre
    | cancel => exact hpre.elim
    | _ => trivial

section handlers
variable {cfg : Settings} {s : Db} {c : ℕ}

theorem safe_methodFree {A : Type} {p : Handler A} (h : p.Calls fun l => l.methodFree = true) :
    lapsing.Harmless p s c := by
  refine safe_calls (fun l hl s c => ?_) h
  cases l <;> trivial

theorem create_methodFree (user : AuthenticatedUser) (dto : CreateOrderDto) :
    (create user dto).Calls fun l => l.methodFree = true := by
  have callFree : ∀ {B : Type} {p : Handler B}, p.CallFree →
      p.Calls fun l => l.methodFree = true := fun hp => hp.mono fun _ hl => hl.elim
  unfold create
  refine Prog.Calls.bind calls_require fun companyId => ?_
  refine Prog.Calls.bind (Prog.calls_find _) fun found => ?_
  refine Prog.Calls.bind calls_require fun client => ?_
  have record : ∀ fields, (Handler.perform (.create fields user.userId) >>= fun r =>
      (pure (.order r.1) : Handler Answer)).Calls fun l => l.methodFree = true := fun fields =>
    Prog.Calls.bind (Prog.calls_perform rfl) fun _ => trivial
  cases dto.quoteToken with
  | none => exact Prog.Calls.bind (callFree (createUnquoted_callFree _ _ _ _)) record
  | some token => exact Prog.Calls.bind (callFree (createPriced_callFree _ _ _ _)) record

theorem accept_methodFree (user : AuthenticatedUser) (id : Id) :
    (acceptFinalPrice user id).Calls fun l => l.methodFree = true := by
  refine Prog.Calls.bind (calls_findOneForUser user id) fun order => ?_
  refine Prog.Calls.bind calls_refuseIf fun _ => Prog.Calls.bind calls_refuseIf fun _ => ?_
  refine Prog.Calls.bind calls_refuseIf fun _ => Prog.Calls.bind (Prog.calls_perform rfl) fun _ => ?_
  exact Prog.Calls.bind (calls_enqueue rfl) fun _ => trivial

theorem webhook_methodFree (gateway : PaymentGateway) (dto : PaymentWebhook) (signed : Bool) :
    (handleWebhook gateway dto signed).Calls fun l => l.methodFree = true := by
  refine (handleWebhook_calls gateway dto signed).mono fun l hl => ?_
  cases l <;> trivial

/-- Routing schedules a timeout once it has seen that the order is direct. -/
theorem routeOrder_lapsing {order : OrderDocument} {actor : TransitionActor}
    {source : OrderStatus} {chosen : Option Id} :
    lapsing.Harmless (routeOrder cfg order actor source chosen) s c := by
  refine safe_find fun s₁ c₁ hl₁ => safe_require fun regionCode _ => safe_scan fun s₂ c₂ hl₂ => ?_
  refine safe_reads lapsing_coherent hl₂.inv (resolveTransporter_callFree _ _)
    fun resolved s₃ c₃ hl₃ => ?_
  cases resolved with
  | none =>
      dsimp only
      split_ifs
      · exact safe_sideEffect trivial
      · exact safe_perform (fun _ _ _ => trivial) fun _ _ _ _ _ => safe_sideEffect trivial
  | some transportCompanyId =>
      refine safe_reads lapsing_coherent hl₃.inv (feeForCompany_callFree _ _ _ _)
        fun deliveryFee s₄ c₄ hl₄ => ?_
      refine safe_perform (fun _ _ _ => trivial) fun awaiting s₅ c₅ hl₅ htold => ?_
      refine safe_sideEffect ?_
      have hrest : ∀ s c, lapsing.Harmless (do
          sideEffect
          let fresh : Option Order ← Prog.find (Key.order awaiting.id)
          return ((fresh.map (·.withId awaiting.id)).getD awaiting, []) :
            Handler (OrderDocument × List Id)) s c := fun s c =>
        safe_sideEffect (safe_find fun _ _ _ => trivial)
      split_ifs with hdirect
      · exact safe_queue (fun s' c' hl => hl.rely _ (htold hdirect)) fun _ s₆ c₆ _ => hrest s₆ c₆
      · exact hrest s₅ c₅

theorem approveOrder_lapsing (hs : lapsing.inv s) (user : AuthenticatedUser) (id : Id)
    (finalPrice : Option ℚ) (chosen : Option Id) :
    lapsing.Harmless (approveOrder cfg user id finalPrice chosen) s c := by
  refine Safe.bind lapsing_coherent hs (safe_methodFree (calls_findById id))
    fun order s₁ c₁ hl₁ _ => ?_
  refine safe_perform (fun _ _ _ => trivial) fun approved s₂ c₂ hl₂ _ => ?_
  refine Safe.bind lapsing_coherent hl₂.inv (safe_methodFree (calls_findById _))
    fun approved s₃ c₃ hl₃ _ => ?_
  exact Safe.bind lapsing_coherent hl₃.inv routeOrder_lapsing fun _ _ _ _ _ => trivial

theorem route_lapsing (hs : lapsing.inv s) (user : AuthenticatedUser) (id : Id)
    (chosen : Option Id) : lapsing.Harmless (route cfg user id chosen) s c := by
  refine Safe.bind lapsing_coherent hs (safe_methodFree (calls_findById id))
    fun order s₁ c₁ hl₁ _ => safe_refuseIf fun _ => ?_
  exact Safe.bind lapsing_coherent hl₁.inv routeOrder_lapsing
    fun _ _ _ _ _ => safe_refuseIf fun _ => trivial

/-- Re-opening schedules a timeout for the order it re-opened. -/
theorem redispatch_lapsing (hs : lapsing.inv s) (user : AuthenticatedUser) (id : Id) :
    lapsing.Harmless (redispatch user id) s c := by
  refine Safe.bind lapsing_coherent hs (safe_methodFree (calls_findOneForUser user id))
    fun order s₁ c₁ hl₁ _ => safe_refuseIf fun _ => safe_refuseIf fun _ => ?_
  refine safe_perform (fun _ _ _ => trivial) fun updated s₂ c₂ hl₂ htold => ?_
  exact safe_queue (fun s' c' hl => hl.rely _ htold) fun _ _ _ _ => trivial

/-- A job that is delivered is stored, hence for a direct order. -/
theorem timeOutJob_lapsing {job : TimeoutJob} (hdirect : IsDirect s job.orderId) :
    lapsing.Harmless (timeOutJob job) s c := by
  have finish : ∀ s c, lapsing.Harmless (Handler.perform (.finishJob job) >>= fun _ =>
      (pure .done : Handler Answer)) s c := fun s c =>
    safe_perform (fun _ _ _ => trivial) fun _ _ _ _ _ => trivial
  refine safe_find fun s₁ c₁ hl₁ => ?_
  cases s₁.find (Key.order job.orderId) with
  | none => exact finish s₁ c₁
  | some o =>
      dsimp only
      split_ifs
      · refine safe_attempt (fun s' c' hl => hl.rely _ (hl₁.rely _ hdirect)) fun _ s₂ c₂ _ _ => ?_
        exact finish s₂ c₂
      · exact finish s₁ c₁

theorem handler_lapsing (hs : lapsing.inv s) {q : Request} (hsettling : q.settling = true)
    (hq : q.admitted s.docs c = true) : lapsing.Harmless (q.handler cfg) s c := by
  cases q with
  | create user dto => exact safe_methodFree (create_methodFree user dto)
  | approve user id finalPrice chosen => exact approveOrder_lapsing hs user id finalPrice chosen
  | route user id chosen => exact route_lapsing hs user id chosen
  | accept user id => exact safe_methodFree (accept_methodFree user id)
  | redispatch user id => exact redispatch_lapsing hs user id
  | webhook gateway dto signed => exact safe_methodFree (webhook_methodFree gateway dto signed)
  | timeout job =>
      simp only [Request.admitted, Request.permitted, Bool.true_and, Bool.and_eq_true,
        decide_eq_true_eq] at hq
      exact timeOutJob_lapsing (hs _ job hq.1)
  | administer edit => exact safe_perform (fun _ _ _ => trivial) fun _ _ _ _ _ => trivial
  | _ => cases hsettling

end handlers

/-! ### Commits -/

section commit
variable {cfg : Settings} {since : Db} {ev : Event Doc Call.Reply}

/-- The order that routing answers with has the id and the method of the stored one. -/
theorem routeToTransport_reply {env : Env} {v w : View Doc} {order r : OrderDocument}
    {source : OrderStatus} {transportCompanyId : Id} {deliveryFee : ℚ} {actor : TransitionActor}
    (h : (routeToTransport cfg order source transportCompanyId deliveryFee actor).run env v =
      .ok (r, w)) :
    ∃ o, v.find (Key.order order.id) = some o ∧ r.id = order.id ∧
      r.paymentMethod = o.paymentMethod := by
  obtain ⟨routed, u, hrouted, h⟩ := Tx.bind_ok h
  obtain ⟨o, entry, ho, -, -, rfl, rfl, rfl⟩ := transition_ok hrouted
  obtain ⟨pricedAt, u₁, htime₁, h⟩ := Tx.bind_ok h
  obtain ⟨-, rfl⟩ := Tx.getTime_ok htime₁
  obtain ⟨now, u₂, htime₂, h⟩ := Tx.bind_ok h
  obtain ⟨-, rfl⟩ := Tx.getTime_ok htime₂
  obtain ⟨awaiting, u₃, hawaiting, h⟩ := Tx.bind_ok h
  obtain ⟨o₁, entry₁, ho₁, -, -, rfl, rfl, -⟩ := transition_ok hawaiting
  cases (View.find_put_self _ _ _).symm.trans ho₁
  obtain ⟨invoice, u₄, hissue, h⟩ := Tx.bind_ok h
  obtain ⟨rfl, -⟩ := Tx.pure_ok h
  let routed := o.moved source .routedToTransport actor
    { extraSet := [.transportCompanyId transportCompanyId] } (env.time v.readings)
  have hmethod : ∀ at_, (routed.moved .routedToTransport .pendingPayment actor
      { extraSet := settlementFields cfg (routed.withId order.id) deliveryFee pricedAt now }
      at_).paymentMethod = routed.paymentMethod := by
    intro at_
    obtain ⟨priceBreakdown, heq⟩ := Order.settling_eq cfg routed (routed.withId order.id) deliveryFee
      actor pricedAt now at_
    rw [heq]
  exact ⟨o, ho, rfl, hmethod _⟩

theorem commit_lapsing (hev : ev.Sound (machine cfg)) (hholds : (evolution cfg since).Holds ev)
    (hreopen : ev.label.reopensDirect ev.before = true) (hbase : lapsing.inv ev.base)
    (hbefore : lapsing.inv ev.before) (hasks : ev.label.asksDirect ev.base) :
    lapsing.inv ev.after ∧ lapsing.rely ev.before ev.after ∧
      ev.label.tellsDirect ev.reply ev.after := by
  have hrely : ∀ id, IsDirect ev.before id → IsDirect ev.after id :=
    fun id h => h.progress hholds.before_after
  have hsince : ∀ id, IsDirect ev.base id → IsDirect ev.after id :=
    fun id h => hrely id (h.progress hholds.base_before)
  refine ⟨fun id job hjob => ?_, hrely, ?_⟩
  · rcases hev.cases hholds.older (Key.timeoutJob id) with ⟨-, ha⟩ | ⟨-, ha, -⟩
    · rcases Call.body_job hev.ran (ha.symm.trans hjob) with hold | ⟨hlabel, -⟩
      · exact hsince id (hbase id job hold)
      · rw [hlabel] at hasks
        exact hsince id hasks
    · exact hrely id (hbefore id job (ha.symm.trans hjob))
  · obtain ⟨thread, label, base, env, began, ended, reply, view, before, after⟩ := ev
    cases label with
    | route order source transportCompanyId deliveryFee actor =>
        intro hdirect
        have hran : (routeToTransport cfg order source transportCompanyId deliveryFee actor).run env
            (View.start base.docs) = .ok (reply, view) := hev.ran
        obtain ⟨o, ho, hid, hmethod⟩ := routeToTransport_reply hran
        rw [hid]
        exact hsince order.id ⟨o, ho, hmethod.symm.trans hdirect⟩
    | reopen order actor =>
        obtain ⟨o, -, -, hbefore₁, -⟩ := subject_step hev hholds.older hholds.pre rfl
        refine hrely order.id ⟨o, hbefore₁, ?_⟩
        have hall : (before.order order.id).all (·.paymentMethod = .direct) = true := hreopen
        rw [hbefore₁, Option.all_some, decide_eq_true_eq] at hall
        exact hall
    | _ => trivial

end commit

/-! ### Orders -/

/-- A deadline is set for a direct order that awaits payment. -/
def Order.DirectWindow (o : Order) : Prop :=
  o.paymentDeadline.isSome = true → o.paymentMethod = .direct ∧ o.status = .pendingPayment

theorem Order.DirectWindow.unset {o o' : Order} (h : o.DirectWindow)
    (hstatus : o.status ≠ .pendingPayment) (hsame : o'.paymentDeadline = o.paymentDeadline) :
    o'.DirectWindow := by
  intro hset
  rw [hsame] at hset
  exact absurd (h hset).2 hstatus

section steps
variable {cfg : Settings} {time : ℕ → Instant} {c : Call} {o o' : Order}

theorem OrderStep.directWindow (h : OrderStep cfg time c o o')
    (hcancel : ∀ order actor reason, c ≠ .cancel order actor reason)
    (hreopen : ∀ order actor, c = .reopen order actor → o.paymentMethod = .direct)
    (ho : o.DirectWindow) : o'.DirectWindow := by
  cases h with
  | route =>
      rename_i order source transportCompanyId deliveryFee actor invoiceId n _ _
      obtain ⟨priceBreakdown, finalPrice, heq⟩ := Order.awaiting_eq cfg o order.id source
        transportCompanyId deliveryFee actor invoiceId (time n) (time (n + 1)) (time (n + 2))
        (time (n + 3))
      rw [heq]
      intro hset
      by_cases hdirect : o.paymentMethod = .direct
      · exact ⟨hdirect, rfl⟩
      · simp only [if_neg hdirect] at hset
        exact absurd (ho hset).1 hdirect
  | reopen => exact fun _ => ⟨hreopen _ _ rfl, Order.moved_status _ _ _ _ _ _⟩
  | accept => exact fun hset => by cases hset
  | settle => exact fun hset => by cases hset
  | timeOut => exact fun hset => by cases hset
  | cancel => exact absurd rfl (hcancel _ _ _)
  | assign hstatus =>
      rename_i order a driver truck tank client n
      obtain ⟨clientSummary, ineligible, reason, heq⟩ :=
        Order.assigned_eq o a driver truck tank client (time n)
      exact ho.unset (by simp [hstatus]) (by rw [heq])
  | forceComplete hstatus hedge =>
      refine ho.unset (fun hpending => ?_) rfl
      rw [← hstatus, hpending] at hedge
      cases hedge
  | reassign => exact ho
  | attempt => exact ho
  | confirmInvoice => exact ho
  | replaceInvoice => exact ho
  | depart hmatched hstage hstatus => exact ho.unset (by simp [hstatus]) rfl
  | _ hstatus => exact ho.unset (by simp [hstatus]) rfl

/-- Only a timeout takes an order from payment back to approval. -/
theorem OrderStep.lapsed (h : OrderStep cfg time c o o') (hpending : o.status = .pendingPayment)
    (happroved : o'.status = .approved) : ∃ job order, c = .timeOut job order := by
  cases h with
  | timeOut => exact ⟨_, _, rfl⟩
  | approve hstatus => exact absurd (hpending.symm.trans hstatus) (by simp)
  | reassign => exact absurd (hpending.symm.trans happroved) (by simp)
  | attempt => exact absurd (hpending.symm.trans happroved) (by simp)
  | confirmInvoice => exact absurd (hpending.symm.trans happroved) (by simp)
  | replaceInvoice => exact absurd (hpending.symm.trans happroved) (by simp)
  | _ => exact absurd ((Order.moved_status _ _ _ _ _ _).symm.trans happroved) (by simp)

end steps

section runs
variable {cfg : Settings} {log : List (Event Doc Call.Reply)}
variable {s : Sys Doc Call.Reply Refusal Answer}

/-- In every run that settles orders and re-opens windows for direct orders only, every
deadline is that of a direct order awaiting payment, and only direct orders lapse. -/
theorem only_direct_lapse
    (h : Run ((machine cfg).only Request.settling) Store.empty
      (fun ev => ev.label.reopensDirect ev.before = true) log s) :
    (∀ id o, s.store.order id = some o → o.DirectWindow) ∧
    ∀ ev ∈ log, ∀ id o o', ev.before.order id = some o → ev.after.order id = some o' →
      o.status = .pendingPayment → o'.status = .approved → o.paymentMethod = .direct := by
  have hevolved := ((lawful.only Request.settling).sound
    ⟨consistent_empty, Progress.refl Store.empty⟩ h).2
  have hlapsing : lapsing.Lawful ((machine cfg).only Request.settling)
      (fun ev => ev.label.reopensDirect ev.before = true ∧ (evolution cfg Store.empty).Holds ev) :=
    { lapsing_coherent with
      handlers := fun q s c hs hq => handler_lapsing hs (Bool.and_eq_true_iff.mp hq).1
        (Bool.and_eq_true_iff.mp hq).2
      keep := fun ev hev hP hbase hbefore _ _ hasks =>
        commit_lapsing hev.of_only hP.2 hP.1 hbase hbefore hasks }
  have hrun := (hlapsing.sound (fun id job hjob => by cases hjob) hevolved).2.of_only
  constructor
  · refine (orders_invariant (I := fun _ o => o.DirectWindow) consistent_empty
      (fun id o ho => by cases ho) (fun _ _ hset => by cases hset) ?_ hrun).1
    intro ev id o o' hev hP hholds hid hbefore hstep ho
    apply hstep.directWindow _ _ ho
    · intro order actor reason hlabel
      have hasks : ev.label.asksDirect ev.base := hP.2.pre
      rw [hlabel] at hasks
      exact hasks
    · intro order actor hlabel
      have hdirect := hP.1.1
      rw [hlabel] at hdirect hid
      cases hid
      simpa [Call.reopensDirect, hbefore] using hdirect
  · intro ev hev id o o' hbefore hafter hpending happroved
    obtain ⟨hsound, ⟨-, hholds⟩, hlaps⟩ := hrun.mem hev
    rcases order_cases hsound hholds.older hholds.pre id with ⟨-, hsame⟩ |
      ⟨o₁, o₂, hid, hbase, hbefore₁, hafter₁, -, hstep⟩ | ⟨_, _, -, hnone, -⟩
    · cases hafter.symm.trans (hsame.trans hbefore)
      exact absurd (hpending.symm.trans happroved) (by simp)
    · cases hbefore₁.symm.trans hbefore
      cases hafter₁.symm.trans hafter
      obtain ⟨job, order, hlabel⟩ := hstep.lapsed hpending happroved
      have hasks : ev.label.asksDirect ev.base := hlaps.pre
      rw [hlabel] at hasks hid
      cases hid
      obtain ⟨o₃, ho₃, hdirect⟩ := IsDirect.progress hasks hholds.base_before
      cases ho₃.symm.trans hbefore
      exact hdirect
    · exact absurd (hnone.symm.trans hbefore) (by simp)

end runs

/-- A direct order lapses and its window is re-opened. -/
theorem only_direct_lapse_twoWindows :
    ∃ log s, Run ((machine Sample.cfg).only Request.settling) Store.empty
        (fun ev => ev.label.reopensDirect ev.before = true) log s ∧
      (∃ o, s.store.order 100 = some o ∧ o.paymentDeadline = some 3600000 ∧ o.DirectWindow) ∧
      ∀ ev ∈ log, ∀ id o o', ev.before.order id = some o → ev.after.order id = some o' →
        o.status = .pendingPayment → o'.status = .approved → o.paymentMethod = .direct := by
  obtain ⟨log, s, hrun, htest⟩ := exists_run ((machine Sample.cfg).only Request.settling)
    Store.empty (fun ev => ev.label.reopensDirect ev.before = true) Sample.twoWindows
    (fun _ s => (s.store.order 100).any fun o => o.paymentDeadline = some 3600000)
    (by decide +kernel)
  obtain ⟨o, ho, hdeadline⟩ := (Option.any_eq_true _ _).mp htest
  obtain ⟨hwindows, hlapses⟩ := only_direct_lapse hrun
  exact ⟨log, s, hrun, ⟨o, ho, of_decide_eq_true hdeadline, hwindows 100 o ho⟩, hlapses⟩

/-- The client has no credit, so the order is approved and not routed. -/
def Sample.strandedCredit : List (Act Request) :=
  opening ++ serve (Request.create client (order .credit)) 10 6 100 ++
    serve (Request.approve fuelAdmin 100 none none) 11 10 200 ++
    serve (Request.redispatch client 100) 12 7 ++ [Act.tick 1800000] ++
    serve (Request.timeout ⟨100, 0, 1800000⟩) 13 5

theorem only_direct_lapse_strandedCredit :
    ¬ ∀ (log : List (Event Doc Call.Reply)) (s : Sys Doc Call.Reply Refusal Answer),
      Run ((machine Sample.cfg).only Request.settling) Store.empty (fun _ => True) log s →
      (∀ id o, s.store.order id = some o → o.DirectWindow) ∧
      ∀ ev ∈ log, ∀ id o o', ev.before.order id = some o → ev.after.order id = some o' →
        o.status = .pendingPayment → o'.status = .approved → o.paymentMethod = .direct := by
  intro hclaim
  obtain ⟨log, s, hrun, htest⟩ := exists_run ((machine Sample.cfg).only Request.settling)
    Store.empty (fun _ => True) Sample.strandedCredit
    (fun log _ => log.any fun ev =>
      ((ev.before.order 100).any fun o => o.status = .pendingPayment && o.paymentMethod = .credit) &&
        (ev.after.order 100).any fun o => o.status = .approved) (by decide +kernel)
  obtain ⟨ev, hev, htest⟩ := List.any_eq_true.mp htest
  obtain ⟨hbefore, hafter⟩ := Bool.and_eq_true_iff.mp htest
  obtain ⟨o, ho, hpending⟩ := (Option.any_eq_true _ _).mp hbefore
  obtain ⟨o', ho', happroved⟩ := (Option.any_eq_true _ _).mp hafter
  simp only [Bool.and_eq_true, decide_eq_true_eq] at hpending happroved
  have hdirect := (hclaim log s hrun).2 ev hev 100 o o' ho ho' hpending.1 happroved
  exact absurd (hpending.2.symm.trans hdirect) (by simp)

end CiroFuel
