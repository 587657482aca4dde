import CiroFuel.Evolution

/-!
# The handlers keep the discipline

Each handler establishes what `evolution` asks of the calls it makes, from what
it has read, whatever commits between its steps. The platform is therefore
lawful: every commit of every run from a consistent database is made on a
document that is an earlier state of the stored one, with the handler's checks
behind it.
-/
namespace CiroFuel
open Snapshot Discipline Handler

section steps
variable {G : Discipline Doc Call.Reply} {A B : Type} {V : A → Db → ℕ → Prop} {s : Db} {c : ℕ}

theorem safe_require {e : Refusal} {o : Option B} {f : B → Handler A}
    (h : ∀ b, o = some b → G.Safe V (f b) s c) : G.Safe V (require e o >>= f) s c := by
  cases o with
  | none => trivial
  | some b => exact h b rfl

theorem safe_refuseIf {b : Bool} {e : Refusal} {f : Unit → Handler A}
    (h : b = false → G.Safe V (f ()) s c) : G.Safe V (refuseIf b e >>= f) s c := by
  cases b with
  | false => exact h rfl
  | true => trivial

theorem safe_sideEffect {f : Unit → Handler A} (h : G.Safe V (f ()) s c) :
    G.Safe V (sideEffect >>= f) s c := by
  intro b
  cases b with
  | false => trivial
  | true => exact h

theorem safe_verifyOtp {f : Unit → Handler A} (h : G.Safe V (f ()) s c) :
    G.Safe V (verifyOtp >>= f) s c := by
  intro b
  cases b with
  | false => trivial
  | true => exact h

/-- A queue call, which may fail before it takes effect or after. -/
theorem safe_queue {l : Call} {f : l.Reply → Handler A}
    (hpre : ∀ s' c', G.Later s c s' c' → G.pre l s' c')
    (h : ∀ a s' c', G.Later s c s' c' → G.Safe V (f a) s' c') :
    G.Safe V (enqueue l >>= f) s c := by
  intro b
  cases b with
  | false => trivial
  | true =>
      refine ⟨hpre, fun r s' c' hl _ => ?_⟩
      cases r with
      | error e => trivial
      | ok a =>
          intro b
          cases b with
          | false => trivial
          | true => exact h a s' c' hl

end steps

section rules
variable {cfg : Settings} {since : Db} {A B : Type} {V : A → Db → ℕ → Prop} {s : Db} {c : ℕ}

/-- A call prepared from a document. -/
theorem prepared {l : Call} {order : OrderDocument} (hdoc : l.document = some order)
    (hearlier : order.ReadBetween since s) (hchecked : ∀ s' c', Progress s s' → c ≤ c' →
      l.Checked cfg s' c') :
    ∀ s' c', (evolution cfg since).Later s c s' c' → (evolution cfg since).pre l s' c' := by
  intro s' c' hl
  refine ⟨fun order' hdoc' => ?_, hchecked s' c' hl.rely hl.clock⟩
  cases hdoc.symm.trans hdoc'
  exact hearlier.progress hl.rely

/-- A call that depends on no document. -/
theorem unprepared {l : Call} (hdoc : l.document = none) (hchecked : ∀ s' c', l.Checked cfg s' c') :
    ∀ s' c', (evolution cfg since).Later s c s' c' → (evolution cfg since).pre l s' c' :=
  fun s' c' _ => ⟨fun order hdoc' => by simp [hdoc] at hdoc', hchecked s' c'⟩

/-- A call that depends on no document but on what was checked of the store. -/
theorem unprepared_later {l : Call} (hdoc : l.document = none)
    (hchecked : ∀ s' c', Progress s s' → c ≤ c' → l.Checked cfg s' c') :
    ∀ s' c', (evolution cfg since).Later s c s' c' → (evolution cfg since).pre l s' c' :=
  fun s' c' hl => ⟨fun order hdoc' => by simp [hdoc] at hdoc', hchecked s' c' hl.rely hl.clock⟩

theorem safe_call {l : Call} {f : l.Reply → Handler A}
    (hpre : ∀ s' c', (evolution cfg since).Later s c s' c' → (evolution cfg since).pre l s' c')
    (h : ∀ a s' c', (evolution cfg since).Later s c s' c' → l.Promised a s' →
      (evolution cfg since).Safe V (f a) s' c') :
    (evolution cfg since).Safe V (Handler.perform l >>= f) s c := safe_perform hpre h

/-- A queue call depends on no document. -/
theorem safe_enqueue {l : Call} {f : l.Reply → Handler A} (hdoc : l.document = none)
    (hchecked : ∀ s' c', l.Checked cfg s' c')
    (h : ∀ a s' c', (evolution cfg since).Later s c s' c' → (evolution cfg since).Safe V (f a) s' c') :
    (evolution cfg since).Safe V (enqueue l >>= f) s c := safe_queue (unprepared hdoc hchecked) h

theorem safe_findById {id : Id} {f : OrderDocument → Handler A}
    (h : ∀ (order : OrderDocument) s' c', (evolution cfg since).Later s c s' c' → order.ReadBetween since s' →
      order.id = id → (evolution cfg since).Safe V (f order) s' c') :
    (evolution cfg since).Safe V (findById id >>= f) s c := by
  intro s' c' hl
  change (evolution cfg since).Safe V ((require .orderNotFound (s'.order id) >>= fun order =>
    pure (Order.withId order id)) >>= f) s' c'
  cases ho : s'.order id with
  | none => trivial
  | some o => exact h (Order.withId o id) s' c' hl (Order.readBetween hl.inv.2 ho) rfl

theorem safe_findOneForUser {user : AuthenticatedUser} {id : Id} {f : OrderDocument → Handler A}
    (hs : (evolution cfg since).inv s)
    (h : ∀ (order : OrderDocument) s' c', (evolution cfg since).Later s c s' c' → order.ReadBetween since s' →
      order.id = id → (evolution cfg since).Safe V (f order) s' c') :
    (evolution cfg since).Safe V (findOneForUser user id >>= f) s c := by
  refine Safe.bind (U := fun order s' _ => OrderDocument.ReadBetween order since s' ∧ order.id = id)
    (evolution_coherent cfg since) hs ?_ fun order s' c' hl ho => h order s' c' hl ho.1 ho.2
  refine safe_findById fun order s' c' hl hearlier hid => ?_
  exact safe_refuseIf fun _ => safe_pure ⟨hearlier, hid⟩

theorem safe_assertDriverAssigned {user : AuthenticatedUser} {id : Id} {expected : OrderStatus}
    {f : OrderDocument → Handler A} (hs : (evolution cfg since).inv s)
    (h : ∀ (order : OrderDocument) s' c', (evolution cfg since).Later s c s' c' → order.ReadBetween since s' →
      (evolution cfg since).Safe V (f order) s' c') :
    (evolution cfg since).Safe V (assertDriverAssigned user id expected >>= f) s c := by
  refine Safe.bind (U := fun order s' _ => OrderDocument.ReadBetween order since s')
    (evolution_coherent cfg since) hs ?_ fun order s' c' hl ho => h order s' c' hl ho
  refine safe_findById fun order s' c' hl hearlier _ => ?_
  exact safe_refuseIf fun _ => safe_refuseIf fun _ => safe_pure hearlier

end rules

/-! ### The parts that only read -/

theorem require_callFree {A : Type} {e : Refusal} {o : Option A} : (require e o).CallFree := by
  cases o <;> trivial

theorem refuseIf_callFree {b : Bool} {e : Refusal} : (refuseIf b e).CallFree := by
  cases b <;> trivial

theorem readRates_callFree (fuelCompanyId : Id) (fuelType : FuelType) :
    (readRates fuelCompanyId fuelType).CallFree :=
  (Prog.calls_find _).bind fun _ => (Prog.calls_find _).bind fun _ => require_callFree

theorem priceWithoutQuote_callFree (fuelCompanyId : Id) (fuelType : FuelType) (q : ℚ) :
    (priceWithoutQuote fuelCompanyId fuelType q).CallFree := by
  refine (readRates_callFree _ _).bind fun rates => ?_
  exact Prog.calls_getTime.bind fun _ => trivial

theorem redeem_callFree (token : Option QuotePayload) (fuelCompanyId : Id) (fuelType : FuelType)
    (q : ℚ) : (redeem token fuelCompanyId fuelType q).CallFree := by
  refine require_callFree.bind fun payload => Prog.calls_getTime.bind fun now => ?_
  refine refuseIf_callFree.bind fun _ => (readRates_callFree _ _).bind fun rates => ?_
  refine refuseIf_callFree.bind fun _ => refuseIf_callFree.bind fun _ => ?_
  exact Prog.calls_getTime.bind fun _ => trivial

theorem findOwnedByClient_callFree (stationId clientId : Id) :
    (findOwnedByClient stationId clientId).CallFree := by
  refine (Prog.calls_find _).bind fun _ => require_callFree.bind fun _ => ?_
  exact refuseIf_callFree.bind fun _ => trivial

theorem createPriced_callFree (companyId : Id) (user : AuthenticatedUser) (dto : CreateOrderDto)
    (token : Option QuotePayload) : (createPriced companyId user dto token).CallFree := by
  refine require_callFree.bind fun _ => (findOwnedByClient_callFree _ _).bind fun _ => ?_
  exact (redeem_callFree _ _ _ _).bind fun _ => trivial

theorem createUnquoted_callFree (companyId : Id) (user : AuthenticatedUser) (client : User)
    (dto : CreateOrderDto) : (createUnquoted companyId user client dto).CallFree := by
  unfold createUnquoted
  cases dto.stationId with
  | none =>
      refine require_callFree.bind fun _ => ?_
      exact (priceWithoutQuote_callFree _ _ _).bind fun _ => trivial
  | some stationId =>
      refine Prog.Calls.bind ((findOwnedByClient_callFree _ _).bind fun _ => trivial) fun _ => ?_
      refine require_callFree.bind fun _ => ?_
      exact (priceWithoutQuote_callFree _ _ _).bind fun _ => trivial

theorem feeForCompany_callFree (cfg : Settings) (transportCompanyId : Id) (target : DeliveryTarget)
    (fuelType : FuelType) : (feeForCompany cfg transportCompanyId target fuelType).CallFree := by
  refine (Prog.calls_find _).bind fun _ => require_callFree.bind fun _ => ?_
  refine require_callFree.bind fun _ => Prog.calls_scan.bind fun _ => ?_
  exact require_callFree.bind fun _ => trivial

theorem resolveTransporter_callFree (candidates : List Id) (chosen : Option Id) :
    (resolveTransporter candidates chosen).CallFree := by
  unfold resolveTransporter
  split
  · exact refuseIf_callFree.bind fun _ => trivial
  · trivial
  · trivial

theorem measureAgainstWarehouse_callFree (cfg : Settings) (order : OrderDocument)
    (stage : VerificationStage) (reported : Option GeoPoint) :
    (measureAgainstWarehouse cfg order stage reported).CallFree := by
  unfold measureAgainstWarehouse
  split_ifs
  · trivial
  · exact require_callFree.bind fun _ => require_callFree.bind fun _ => trivial

/-! ### The handlers -/

section handlers
variable {cfg : Settings} {since s : Db} {c : ℕ}

theorem create_harmless (user : AuthenticatedUser) (dto : CreateOrderDto) :
    (evolution cfg since).Harmless (create user dto) s c := by
  unfold create
  refine safe_require fun companyId _ => safe_find fun s₁ c₁ hl₁ => ?_
  refine safe_require fun client _ => ?_
  have record : ∀ (fields : OrderFields) s c,
      (evolution cfg since).Harmless (Handler.perform (.create fields user.userId) >>= fun r =>
        (pure (.order r.1) : Handler Answer)) s c := fun fields s c =>
    safe_call (unprepared rfl fun _ _ => trivial) fun _ _ _ _ _ => trivial
  cases dto.quoteToken with
  | none =>
      exact safe_reads (evolution_coherent cfg since) hl₁.inv (createUnquoted_callFree _ _ _ _)
        fun fields s₂ c₂ _ => record fields s₂ c₂
  | some token =>
      exact safe_reads (evolution_coherent cfg since) hl₁.inv (createPriced_callFree _ _ _ _)
        fun fields s₂ c₂ _ => record fields s₂ c₂

theorem routeOrder_harmless {order : OrderDocument} {actor : TransitionActor}
    {source : OrderStatus} {chosen : Option Id} (hearlier : order.ReadBetween since s)
    (hsource : source = .approved ∨ source = .awaitingRouting) :
    (evolution cfg since).Harmless (routeOrder cfg order actor source chosen) s c := by
  refine safe_find fun s₁ c₁ hl₁ => safe_require fun regionCode _ => ?_
  refine safe_scan fun s₂ c₂ hl₂ => ?_
  refine safe_reads (evolution_coherent cfg since) hl₂.inv (resolveTransporter_callFree _ _)
    fun resolved s₃ c₃ hl₃ => ?_
  have hearlier₃ := ((hearlier.progress hl₁.rely).progress hl₂.rely).progress hl₃.rely
  cases resolved with
  | none =>
      dsimp only
      split_ifs
      · exact safe_sideEffect trivial
      · refine safe_call (prepared rfl hearlier₃ fun _ _ _ _ => trivial) fun updated s₄ c₄ _ _ => ?_
        exact safe_sideEffect trivial
  | some transportCompanyId =>
      refine safe_reads (evolution_coherent cfg since) hl₃.inv (feeForCompany_callFree _ _ _ _)
        fun fee s₄ c₄ hl₄ => ?_
      refine safe_call (prepared rfl (hearlier₃.progress hl₄.rely) fun _ _ _ _ => hsource)
        fun awaiting s₅ c₅ _ _ => safe_sideEffect ?_
      have hrest : ∀ s c, (evolution cfg since).Harmless (do
          sideEffect
          let fresh : Option Order ← Prog.find (Key.order awaiting.id)
          return ((fresh.map (·.withId awaiting.id)).getD awaiting, []) :
            Handler (OrderDocument × List Id)) s c := fun s c =>
        safe_sideEffect (safe_find fun _ _ _ => trivial)
      split_ifs
      · exact safe_enqueue rfl (fun _ _ => trivial) fun _ s₆ c₆ _ => hrest s₆ c₆
      · exact hrest s₅ c₅

theorem approveOrder_harmless (user : AuthenticatedUser) (id : Id)
    (finalPrice : Option ℚ) (chosen : Option Id) :
    (evolution cfg since).Harmless (approveOrder cfg user id finalPrice chosen) s c := by
  refine safe_findById fun order s₁ c₁ hl₁ hearlier _ => ?_
  refine safe_call (prepared rfl hearlier fun _ _ _ _ => trivial) fun approved s₂ c₂ hl₂ _ => ?_
  refine safe_findById fun approved s₃ c₃ hl₃ hearlier₃ _ => ?_
  refine Safe.bind (U := fun _ _ _ => True) (evolution_coherent cfg since) hl₃.inv ?_
    fun _ _ _ _ _ => trivial
  exact routeOrder_harmless hearlier₃ (Or.inl rfl)

theorem route_harmless (user : AuthenticatedUser) (id : Id)
    (chosen : Option Id) : (evolution cfg since).Harmless (route cfg user id chosen) s c := by
  refine safe_findById fun order s₁ c₁ hl₁ hearlier _ => safe_refuseIf fun hstatus => ?_
  refine Safe.bind (U := fun _ _ _ => True) (evolution_coherent cfg since) hl₁.inv ?_
    fun routed _ _ _ _ => safe_refuseIf fun _ => trivial
  refine routeOrder_harmless hearlier ?_
  by_cases happroved : order.status = .approved
  · exact Or.inl happroved
  · right
    simpa [happroved] using hstatus

theorem acceptFinalPrice_harmless (hs : (evolution cfg since).inv s) (user : AuthenticatedUser) (id : Id) :
    (evolution cfg since).Harmless (acceptFinalPrice user id) s c := by
  refine safe_findOneForUser hs fun order s₁ c₁ hl₁ hearlier _ => safe_refuseIf fun _ => ?_
  refine safe_refuseIf fun hstatus => safe_refuseIf fun hmethod => ?_
  refine safe_call (prepared rfl hearlier fun _ _ _ _ => ?_) fun resumed s₂ c₂ _ _ => ?_
  · exact ⟨by simpa using hstatus, by simpa using hmethod⟩
  · exact safe_enqueue rfl (fun _ _ => trivial) fun _ _ _ _ => trivial

theorem redispatch_harmless (hs : (evolution cfg since).inv s) (user : AuthenticatedUser) (id : Id) :
    (evolution cfg since).Harmless (redispatch user id) s c := by
  refine safe_findOneForUser hs fun order s₁ c₁ hl₁ hearlier _ => safe_refuseIf fun hstatus => ?_
  refine safe_refuseIf fun _ => ?_
  refine safe_call (prepared rfl hearlier fun _ _ _ _ => ?_) fun updated s₂ c₂ _ _ => ?_
  · simpa [Call.Checked] using hstatus
  · exact safe_enqueue rfl (fun _ _ => trivial) fun _ _ _ _ => trivial

theorem correctOutcome_harmless (eventId : Id) (outcome : PaymentEventOutcome) (notify : Bool) :
    (evolution cfg since).Harmless (correctOutcome eventId outcome notify) s c := by
  refine safe_call (unprepared rfl fun _ _ => trivial) fun _ s₁ c₁ _ _ => ?_
  cases notify with
  | false => trivial
  | true => exact safe_sideEffect trivial

theorem afterSettlement_harmless (order : OrderDocument) (eventId : Id) :
    (evolution cfg since).Harmless (afterSettlement order eventId) s c := by
  have hcorrect : ∀ s c, (evolution cfg since).Harmless (correctOutcome eventId .outOfSequence true) s c :=
    fun s c => correctOutcome_harmless _ _ _
  intro reached
  cases reached with
  | false => exact hcorrect s c
  | true =>
      refine ⟨unprepared rfl fun _ _ => trivial, fun r s₁ c₁ _ _ => ?_⟩
      cases r with
      | error e => exact hcorrect s₁ c₁
      | ok _ =>
          intro answered
          cases answered with
          | false => exact hcorrect s₁ c₁
          | true =>
              intro notified
              cases notified with
              | false => exact hcorrect s₁ c₁
              | true => trivial

theorem handleWebhook_harmless (gateway : PaymentGateway) (dto : PaymentWebhook) (signed : Bool) :
    (evolution cfg since).Harmless (handleWebhook gateway dto signed) s c := by
  unfold handleWebhook
  cases signed with
  | false => exact safe_attempt (unprepared rfl fun _ _ => trivial) fun _ _ _ _ _ => trivial
  | true =>
      refine safe_find fun s₁ c₁ hl₁ => safe_require fun o ho => ?_
      have hearlier : (Order.withId o dto.orderId).ReadBetween since s₁ :=
        Order.readBetween hl₁.inv.2 ho
      refine safe_attempt (prepared rfl hearlier fun _ _ _ _ => trivial) fun r s₂ c₂ hl₂ hr => ?_
      have hearlier₂ := hearlier.progress hl₂.rely
      cases r with
      | error e => cases e <;> trivial
      | ok eventId =>
          dsimp only
          split_ifs
          · exact correctOutcome_harmless _ _ _
          · exact correctOutcome_harmless _ _ _
          · refine safe_attempt (prepared rfl hearlier₂ fun s' c' hp _ => ?_)
              fun r s₃ c₃ _ _ => ?_
            · exact Call.Checked.progress (t := c') hr hp
            · cases r with
              | ok _ => exact afterSettlement_harmless _ _
              | error e => exact correctOutcome_harmless _ _ _

theorem timeOutJob_harmless (job : TimeoutJob) (hdelay : job.delay = cfg.paymentWindow)
    (hdue : job.due ≤ c) : (evolution cfg since).Harmless (timeOutJob job) s c := by
  unfold timeOutJob
  have finish : ∀ s c, (evolution cfg since).Harmless (Handler.perform (.finishJob job) >>= fun _ =>
      (pure .done : Handler Answer)) s c := fun s c =>
    safe_call (unprepared rfl fun _ _ => trivial) fun _ _ _ _ _ => trivial
  refine safe_find fun s₁ c₁ hl₁ => ?_
  cases ho : s₁.find (Key.order job.orderId) with
  | none => exact finish s₁ c₁
  | some o =>
      have hearlier : (Order.withId o job.orderId).ReadBetween since s₁ :=
        Order.readBetween hl₁.inv.2 ho
      dsimp only
      split_ifs with hstatus
      · refine safe_attempt (prepared rfl hearlier fun s' c' _ hclock => ?_)
          fun _ s₂ c₂ _ _ => finish s₂ c₂
        exact ⟨hstatus, rfl, hdelay, hdue.trans (hl₁.clock.trans hclock)⟩
      · exact finish s₁ c₁

theorem settleManually_harmless (user : AuthenticatedUser) (id : Id) (ref : Option ℕ) :
    (evolution cfg since).Harmless (settleManually user id ref) s c := by
  refine safe_find fun s₁ c₁ hl₁ => safe_require fun x hx => safe_refuseIf fun hmethod => ?_
  refine safe_refuseIf fun _ => safe_refuseIf fun _ => ?_
  refine safe_call (unprepared_later rfl fun s' c' hp _ => ?_) fun _ _ _ _ _ => trivial
  have hchecked : (Call.settleInvoice id ref).Checked cfg s₁ c' := ⟨x, hx, by simpa using hmethod⟩
  exact hchecked.progress hp

theorem cancelOrder_harmless (hs : (evolution cfg since).inv s) (user : AuthenticatedUser) (id : Id)
    (reason : Option String) : (evolution cfg since).Harmless (cancelOrder user id reason) s c := by
  refine safe_findOneForUser hs fun order s₁ c₁ hl₁ hearlier _ => safe_refuseIf fun _ => ?_
  refine safe_refuseIf fun _ => safe_refuseIf fun _ => ?_
  refine safe_call (prepared rfl hearlier fun _ _ _ _ => trivial) fun updated s₂ c₂ _ _ => ?_
  split_ifs
  · exact safe_enqueue rfl (fun _ _ => trivial) fun _ _ _ _ => safe_sideEffect trivial
  · exact safe_sideEffect trivial
  · exact safe_enqueue rfl (fun _ _ => trivial) fun _ _ _ _ => trivial
  · trivial

theorem assign_harmless (orderId driverId truckId tankId : Id) (reason : Option String) :
    (evolution cfg since).Harmless (assign cfg orderId driverId truckId tankId reason) s c := by
  refine safe_findById fun order s₁ c₁ hl₁ hearlier _ => safe_refuseIf fun hstatus => ?_
  refine safe_find fun s₂ c₂ hl₂ => safe_refuseIf fun _ => safe_scan fun s₃ c₃ hl₃ => ?_
  refine safe_require fun warehouse _ => ?_
  have hearlier₃ := (hearlier.progress hl₂.rely).progress hl₃.rely
  refine safe_attempt (prepared rfl hearlier₃ fun _ _ _ _ => ?_) fun r s₄ c₄ _ _ => ?_
  · simpa [Call.Checked] using hstatus
  · cases r with
    | ok _ => exact safe_sideEffect trivial
    | error e => cases e <;> trivial

theorem reassign_harmless (orderId truckId tankId : Id) :
    (evolution cfg since).Harmless (reassign orderId truckId tankId) s c := by
  refine safe_findById fun order s₁ c₁ hl₁ hearlier _ => safe_refuseIf fun hstatus => ?_
  refine safe_call (prepared rfl hearlier fun _ _ _ _ => ?_) fun _ _ _ _ _ => trivial
  simpa [Call.Checked] using hstatus

theorem verifyVehicle_harmless (user : AuthenticatedUser) (id : Id)
    (presentedTruckId : Option Id) (method : VerificationMethod) (reported : Option GeoPoint) :
    (evolution cfg since).Harmless (verifyVehicle cfg user id presentedTruckId method reported) s c := by
  refine safe_findById fun order s₁ c₁ hl₁ hearlier _ => safe_refuseIf fun _ => ?_
  refine safe_require fun stage hstage => safe_find fun s₂ c₂ hl₂ => ?_
  refine safe_reads (evolution_coherent cfg since) hl₂.inv (measureAgainstWarehouse_callFree _ _ _ _)
    fun distance s₃ c₃ hl₃ => safe_getTime fun s₄ c₄ hl₄ => ?_
  have hearlier₄ := ((hearlier.progress hl₂.rely).progress hl₃.rely).progress hl₄.rely
  refine safe_call (prepared rfl hearlier₄ fun _ _ _ _ => ⟨hstage, fun hmatched => ?_⟩)
    fun updated s₅ c₅ _ _ => ?_
  · simp only [Bool.and_eq_true, decide_eq_true_eq] at hmatched
    exact hmatched.1
  · exact safe_refuseIf fun _ => safe_refuseIf fun _ => trivial

theorem confirmLoadingAt_harmless (hs : (evolution cfg since).inv s) (user : AuthenticatedUser) (id : Id) :
    (evolution cfg since).Harmless (confirmLoadingAt user id) s c := by
  refine safe_assertDriverAssigned hs fun order s₁ c₁ hl₁ hearlier => ?_
  refine safe_refuseIf fun hverified => safe_getTime fun s₂ c₂ hl₂ => ?_
  refine safe_call (prepared rfl (hearlier.progress hl₂.rely) fun _ _ _ _ => ?_)
    fun _ _ _ _ _ => trivial
  obtain ⟨v, hv, hstage⟩ := List.any_eq_true.mp (by simpa using hverified :
    (order.verifications.any fun v => v.stage = .loading && v.matched) = true)
  exact ⟨v, hv, by simpa using hstage⟩

theorem overrideVerification_harmless (user : AuthenticatedUser) (id : Id) (reason : String) :
    (evolution cfg since).Harmless (overrideVerification user id reason) s c := by
  refine safe_findById fun order s₁ c₁ hl₁ hearlier _ => ?_
  split_ifs
  · exact safe_call (prepared rfl hearlier fun _ _ _ _ => trivial) fun _ _ _ _ _ => trivial
  · refine safe_getTime fun s₂ c₂ hl₂ => ?_
    exact safe_call (prepared rfl (hearlier.progress hl₂.rely) fun _ _ _ _ => trivial)
      fun _ _ _ _ _ => trivial
  · trivial

theorem verifyArrivalAt_harmless (hs : (evolution cfg since).inv s) (user : AuthenticatedUser) (id : Id) :
    (evolution cfg since).Harmless (verifyArrivalAt user id) s c := by
  refine safe_assertDriverAssigned hs fun order s₁ c₁ hl₁ hearlier => safe_verifyOtp ?_
  exact safe_call (prepared rfl hearlier fun _ _ _ _ => trivial) fun _ _ _ _ _ => trivial

theorem verifyDelivery_harmless (hs : (evolution cfg since).inv s) (user : AuthenticatedUser) (id : Id) :
    (evolution cfg since).Harmless (verifyDelivery user id) s c := by
  refine safe_assertDriverAssigned hs fun order s₁ c₁ hl₁ hearlier => safe_verifyOtp ?_
  refine safe_call (prepared rfl hearlier fun _ _ _ _ => trivial) fun _ _ _ _ _ => ?_
  exact safe_sideEffect trivial

theorem forceCompleteOrder_harmless (user : AuthenticatedUser) (id : Id) (reason : String) :
    (evolution cfg since).Harmless (forceCompleteOrder user id reason) s c := by
  refine safe_findById fun order s₁ c₁ hl₁ hearlier _ => safe_refuseIf fun _ => ?_
  refine safe_call (prepared rfl hearlier fun _ _ _ _ => trivial) fun _ _ _ _ _ => ?_
  exact safe_sideEffect trivial

theorem safe_assertEligible {A : Type} {V : A → Db → ℕ → Prop} {order : OrderDocument}
    {dto : SupplierInvoiceInput} {f : Unit → Handler A}
    (h : dto.confirmed.fuelType = order.fuelType → (evolution cfg since).Safe V (f ()) s c) :
    (evolution cfg since).Safe V (assertEligible order dto >>= f) s c := by
  unfold assertEligible
  cases decide (order.status = .cancelled) || decide (order.status = .rejected) with
  | true => trivial
  | false =>
      refine safe_refuseIf (A := A) fun hgrade => ?_
      exact h (by simpa using hgrade)

theorem confirmInvoice_harmless (user : AuthenticatedUser) (id : Id) (dto : SupplierInvoiceInput) :
    (evolution cfg since).Harmless (confirmInvoice user id dto) s c := by
  refine safe_findById fun order s₁ c₁ hl₁ hearlier _ => safe_assertEligible fun hgrade => ?_
  refine safe_refuseIf fun _ => ?_
  exact safe_call (prepared rfl hearlier fun _ _ _ _ => hgrade) fun _ _ _ _ _ => trivial

theorem replaceInvoice_harmless (user : AuthenticatedUser) (id : Id) (dto : SupplierInvoiceInput) :
    (evolution cfg since).Harmless (replaceInvoice user id dto) s c := by
  refine safe_findById fun order s₁ c₁ hl₁ hearlier _ => safe_assertEligible fun hgrade => ?_
  exact safe_call (prepared rfl hearlier fun _ _ _ _ => hgrade) fun _ _ _ _ _ => trivial

/-- Every request that arrives keeps the discipline. A timeout job is stored and
due when it is delivered, which is what its transaction relies on. -/
theorem handler_harmless (hs : (evolution cfg since).inv s) {q : Request}
    (hq : q.admitted s.docs c = true) : (evolution cfg since).Harmless (q.handler cfg) s c := by
  cases q with
  | create user dto => exact create_harmless user dto
  | approve user id finalPrice chosen => exact approveOrder_harmless user id finalPrice chosen
  | route user id chosen => exact route_harmless user id chosen
  | reject user id reason =>
      exact safe_call (unprepared rfl fun _ _ => trivial) fun _ _ _ _ _ => trivial
  | accept user id => exact acceptFinalPrice_harmless hs user id
  | cancel user id reason => exact cancelOrder_harmless hs user id reason
  | redispatch user id => exact redispatch_harmless hs user id
  | webhook gateway dto signed => exact handleWebhook_harmless gateway dto signed
  | timeout job =>
      simp only [Request.admitted, Request.permitted, Bool.true_and, Bool.and_eq_true,
        decide_eq_true_eq] at hq
      obtain ⟨hstored, hdue⟩ := hq
      exact timeOutJob_harmless job (hs.1.jobs _ job hstored).2 hdue
  | settle user id ref => exact settleManually_harmless user id ref
  | assign user id driverId truckId tankId reason =>
      exact assign_harmless id driverId truckId tankId reason
  | reassign user id truckId tankId => exact reassign_harmless id truckId tankId
  | verifyVehicle user id presentedTruckId method reported =>
      exact verifyVehicle_harmless user id presentedTruckId method reported
  | confirmLoading user id => exact confirmLoadingAt_harmless hs user id
  | overrideVerification user id reason => exact overrideVerification_harmless user id reason
  | verifyArrival user id => exact verifyArrivalAt_harmless hs user id
  | verifyDelivery user id => exact verifyDelivery_harmless hs user id
  | forceComplete user id reason => exact forceCompleteOrder_harmless user id reason
  | confirmInvoice user id dto => exact confirmInvoice_harmless user id dto
  | replaceInvoice user id dto => exact replaceInvoice_harmless user id dto
  | correct user key litres reason =>
      exact safe_call (unprepared rfl fun _ _ => trivial) fun _ _ _ _ _ => trivial
  | recordPayment user amount reference documentFileId =>
      simp only [Request.admitted, Request.permitted, Bool.and_true, Bool.and_eq_true,
        decide_eq_true_eq] at hq
      refine safe_require fun companyId _ => safe_refuseIf fun _ => ?_
      exact safe_call (unprepared rfl fun _ _ => hq.2) fun _ _ _ _ _ => trivial
  | confirmPayment user movementId =>
      exact safe_call (unprepared rfl fun _ _ => trivial) fun _ _ _ _ _ => trivial
  | recordCashbackPayout user companyId amount reference =>
      simp only [Request.admitted, Request.permitted, Bool.and_true, Bool.and_eq_true,
        decide_eq_true_eq] at hq
      refine safe_attempt (unprepared rfl fun _ _ => hq.2) fun r s' c' _ _ => ?_
      cases r with
      | ok movementId => trivial
      | error e => cases e <;> trivial
  | administer edit =>
      exact safe_call (unprepared rfl fun _ _ => trivial) fun _ _ _ _ _ => trivial

end handlers

/-! ### Runs of the platform -/

section runs
variable {cfg : Settings} {since : Db} {P : Event Doc Call.Reply → Prop}

theorem lawful : (evolution cfg since).Lawful (machine cfg) P where
  toCoherent := evolution_coherent cfg since
  handlers := fun _ _ _ hs hq => handler_harmless hs hq
  keep := by
    intro ev hev _ hbase hbefore _ holder hpre
    have hprogress := commit_progress hev hbase.1 holder hpre
    have hconsistent := commit_consistent hev hbase.1 hbefore.1 holder hpre
    exact ⟨⟨hconsistent, hbefore.2.trans hprogress⟩, hprogress, commit_promised hev holder⟩

theorem consistent_empty : Consistent cfg Store.empty where
  invoiceOf := fun _ _ _ h => by cases h
  orderOf := fun _ _ h => by cases h
  jobs := fun _ _ h => by cases h

/-- In every run, every commit is made on an earlier state of the store, with the
checks of its handler behind it. -/
theorem disciplined {init : Db} (hinit : Consistent cfg init) {log : List (Event Doc Call.Reply)}
    {s : Sys Doc Call.Reply Refusal Answer} (h : Run (machine cfg) init P log s) :
    (Consistent cfg s.store ∧ Progress init s.store) ∧
      Run (machine cfg) init (fun ev => P ev ∧ (evolution cfg init).Holds ev) log s := by
  obtain ⟨hok, hrun⟩ := lawful.sound ⟨hinit, Progress.refl init⟩ h
  exact ⟨hok.1, hrun⟩

end runs
end CiroFuel
