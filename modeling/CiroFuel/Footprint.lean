import CiroFuel.Handlers

/-!
# What each call writes

`Call.touches` over-approximates the keys a call may change, collection by
collection. `Call.body_frame` is the frame rule: every other key keeps its
document. The lemmas before it say the same of the operations, for any set of
keys that contains the ones they write.
-/
namespace CiroFuel
open Snapshot Tx

section operations
variable {S : Key → Prop} {A : Arithmetic}

theorem transition_confined {id : Id} (h : S (.order id)) (source target : OrderStatus)
    (actor : TransitionActor) (options : TransitionOptions) :
    Confined S (transition id source target actor options) := by
  unfold transition
  split
  · exact Obeys.throw _
  · split_ifs
    · exact Obeys.throw _
    · exact Obeys.throw _
    · refine Obeys.bind Obeys.getTime fun at_ => ?_
      refine Obeys.bind (Confined.findOneAndUpdate h) fun updated => ?_
      cases updated with
      | some o => exact Obeys.pure _
      | none =>
          refine Obeys.bind (Obeys.find _) fun existing => ?_
          cases existing <;> exact Obeys.throw _

/-! ### Billing -/

theorem createMovement_confined (h : ∀ i, S (.accountMovement i)) (m : AccountMovement) :
    Confined S (createMovement m) :=
  Obeys.bind Obeys.freshId fun i => Obeys.bind (Confined.insert (h i)) fun _ => Obeys.pure _

theorem createReversals_confined (h : ∀ i, S (.accountMovement i))
    (ms : List (Id × AccountMovement)) : Confined S (createReversals ms) := by
  induction ms with
  | nil => exact Obeys.pure _
  | cons m ms ih => exact Obeys.bind (createMovement_confined h _) fun _ => ih

theorem reverseMovementsForInvoice_confined (h : ∀ i, S (.accountMovement i)) (id : Id) :
    Confined S (reverseMovementsForInvoice id) :=
  Obeys.bind Obeys.scan fun _ => createReversals_confined h _

theorem accrueCommission_confined (h : ∀ i, S (.accountMovement i)) (order : OrderDocument)
    (invoice : InvoiceDocument) : Confined S (accrueCommission A order invoice) := by
  refine Obeys.bind (Obeys.bind Obeys.scan fun _ => Obeys.pure _) fun term => ?_
  cases term with
  | none => exact Obeys.pure _
  | some term =>
      dsimp only
      split_ifs
      · exact Obeys.pure _
      · exact Obeys.bind (createMovement_confined h _) fun _ => Obeys.pure _

theorem accrueCashback_confined (h : ∀ i, S (.accountMovement i)) (invoice : InvoiceDocument) :
    Confined S (accrueCashback A invoice) := by
  refine Obeys.bind (Obeys.bind Obeys.scan fun _ => Obeys.pure _) fun programme => ?_
  cases programme with
  | none => exact Obeys.pure _
  | some programme =>
      dsimp only
      split_ifs
      · exact Obeys.pure _
      · exact Obeys.bind (createMovement_confined h _) fun _ => Obeys.pure _

theorem getConfirmedBalance_confined (companyId : Id) (kind : AccountMovementKind) :
    Confined S (getConfirmedBalance A companyId kind) :=
  Obeys.bind Obeys.scan fun _ => Obeys.pure _

theorem assertUnderCeiling_confined (cfg : Settings) (companyId : Id) :
    Confined S (assertUnderCeiling cfg companyId) := by
  refine Obeys.bind (Obeys.bind (getConfirmedBalance_confined _ _) fun _ =>
    Obeys.bind (getConfirmedBalance_confined _ _) fun _ => Obeys.pure _) fun balance => ?_
  refine Obeys.bind (Obeys.bind (Obeys.find _) fun _ => Obeys.pure _) fun ceiling => ?_
  split_ifs
  · exact Obeys.throw _
  · exact Obeys.pure _

/-- The credit check rewrites the client with what is there. -/
theorem getAvailableCredit_confined (clientId : Id) :
    Confined S (getAvailableCredit clientId) := by
  refine Obeys.bind (Obeys.findOneAndUpdate fun d x hx _ => sameOff_put_stored S hx) fun client => ?_
  cases client with
  | none => exact Obeys.throw _
  | some client => exact Obeys.bind Obeys.scan fun _ => Obeys.pure _

theorem assertCredit_confined (order : OrderDocument) (amount : ℚ) :
    Confined S (assertCredit order amount) := by
  unfold assertCredit
  split_ifs
  · refine Obeys.bind (getAvailableCredit_confined _) fun available => ?_
    split_ifs
    · exact Obeys.throw _
    · exact Obeys.pure _
  · exact Obeys.pure _

theorem issueInvoice_confined (cfg : Settings) {order : OrderDocument}
    (hmovements : ∀ i, S (.accountMovement i)) (hinvoices : ∀ i, S (.invoice i))
    (horder : S (.order order.id)) : Confined S (issueInvoice cfg order) := by
  have rest : Confined S (do
      let id ← Tx.freshId
      let invoice := Order.invoiceFor order
      Tx.insert (Key.invoice id) invoice
      let _ ← updateOrder order.id (fun _ => true) fun o => { o with invoiceId := some id }
      accrueCommission cfg.arithmetic order (invoice.withId id)
      return invoice.withId id : Action InvoiceDocument) := by
    refine Obeys.bind Obeys.freshId fun id => ?_
    refine Obeys.bind (Confined.insert (hinvoices id)) fun _ => ?_
    refine Obeys.bind (Confined.findOneAndUpdate horder) fun _ => ?_
    exact Obeys.bind (accrueCommission_confined hmovements _ _) fun _ => Obeys.pure _
  refine Obeys.bind (assertCredit_confined _ _) fun _ => ?_
  dsimp only
  split_ifs
  · exact Obeys.bind (assertUnderCeiling_confined _ _) fun _ => rest
  · exact rest

theorem applySettlement_confined {invoice : InvoiceDocument}
    (hmovements : ∀ i, S (.accountMovement i)) (hinvoice : S (.invoice invoice.id))
    (ref : Option ℕ) : Confined S (applySettlement A invoice ref) := by
  unfold applySettlement
  split_ifs
  · exact Obeys.pure _
  · refine Obeys.bind Obeys.getTime fun at_ => ?_
    refine Obeys.bind (Confined.findOneAndUpdate hinvoice) fun _ => ?_
    exact Obeys.bind (accrueCashback_confined hmovements _) fun _ => Obeys.pure _

theorem settleInvoiceForOrder_confined (hmovements : ∀ i, S (.accountMovement i))
    (hinvoices : ∀ i, S (.invoice i)) (orderId : Id) (ref : Option ℕ) :
    Confined S (settleInvoiceForOrder A orderId ref) := by
  refine Obeys.bind Obeys.scan fun d => ?_
  split
  · exact Obeys.throw _
  · exact applySettlement_confined hmovements (hinvoices _) ref

theorem settleById_confined {id : Id} (hmovements : ∀ i, S (.accountMovement i))
    (hinvoice : S (.invoice id)) (ref : Option ℕ) : Confined S (settleById A id ref) := by
  refine Obeys.bind (Obeys.find _) fun invoice => ?_
  cases invoice with
  | none => exact Obeys.throw _
  | some x => exact applySettlement_confined hmovements hinvoice ref

theorem voidInvoice_confined (hmovements : ∀ i, S (.accountMovement i))
    (hinvoices : ∀ i, S (.invoice i)) (orderId : Id) : Confined S (voidInvoice orderId) := by
  refine Obeys.bind Obeys.scan fun d => ?_
  split
  · exact Obeys.pure _
  · split_ifs
    · exact Obeys.pure _
    · refine Obeys.bind (Confined.findOneAndUpdate (hinvoices _)) fun updated => ?_
      cases updated with
      | none => exact Obeys.pure _
      | some _ => exact reverseMovementsForInvoice_confined hmovements _

/-! ### Litres -/

theorem recordReconciliation_confined {key : BalanceKey} (h : S (.litreBalance key))
    (orderId : Id) (ordered supplied : ℚ) (actorId : Id) :
    Confined S (recordReconciliation A key orderId ordered supplied actorId) := by
  unfold recordReconciliation
  dsimp only
  split_ifs
  · exact Obeys.bind (Obeys.find _) fun _ => Obeys.pure _
  all_goals
    refine Obeys.bind (Confined.upsert h) fun _ => Obeys.bind Obeys.getTime fun _ => ?_
    refine Obeys.bind (Confined.findOneAndUpdate h) fun updated => ?_
    cases updated with
    | none => exact Obeys.throw _
    | some _ => exact Obeys.pure _

theorem restateReconciliation_confined {key : BalanceKey} (h : S (.litreBalance key))
    (orderId : Id) (ordered supplied : ℚ) (actorId : Id) :
    Confined S (restateReconciliation A key orderId ordered supplied actorId) := by
  refine Obeys.bind (Obeys.find _) fun existing => ?_
  dsimp only
  split
  · exact Obeys.bind (Confined.findOneAndUpdate h) fun _ =>
      recordReconciliation_confined h _ _ _ _
  · exact recordReconciliation_confined h _ _ _ _

theorem drawdownAttempts_confined {key : BalanceKey} (h : S (.litreBalance key))
    (orderId : Id) (requested : ℚ) (actorId : Id) (attempts : ℕ) :
    Confined S (drawdownAttempts A key orderId requested actorId attempts) := by
  induction attempts with
  | zero => exact Obeys.throw _
  | succ attempts ih =>
      refine Obeys.bind (Obeys.find _) fun current => ?_
      dsimp only
      split_ifs
      · exact Obeys.pure _
      · exact Obeys.pure _
      · refine Obeys.bind Obeys.getTime fun _ => ?_
        refine Obeys.bind (Confined.findOneAndUpdate h) fun updated => ?_
        cases updated with
        | none => exact ih
        | some _ => exact Obeys.pure _

theorem returnDrawdown_confined {key : BalanceKey} (h : S (.litreBalance key))
    (orderId actorId : Id) : Confined S (returnDrawdown A key orderId actorId) := by
  refine Obeys.bind (Obeys.find _) fun balance => ?_
  cases balance with
  | none => exact Obeys.pure _
  | some balance =>
      dsimp only
      split_ifs
      · exact Obeys.pure _
      · split
        · exact Obeys.pure _
        · refine Obeys.bind Obeys.getTime fun _ => ?_
          exact Obeys.bind (Confined.findOneAndUpdate h) fun _ => Obeys.pure _

theorem recordCorrection_confined {key : BalanceKey} (h : S (.litreBalance key)) (litres : ℚ)
    (reason : String) (actorId : Id) : Confined S (recordCorrection A key litres reason actorId) := by
  unfold recordCorrection
  split_ifs
  · exact Obeys.throw _
  · refine Obeys.bind Obeys.getTime fun _ => ?_
    refine Obeys.bind (Confined.findOneAndUpdate h) fun updated => ?_
    cases updated with
    | none => exact Obeys.throw _
    | some _ => exact Obeys.pure _

/-! ### Bookings -/

theorem releaseDriver_confined {driverId : Option Id} (h : ∀ id, driverId = some id → S (.user id))
    (orderId : Id) : Confined S (releaseDriver driverId orderId) := by
  cases driverId with
  | none => exact Obeys.pure _
  | some id => exact Obeys.bind (Confined.findOneAndUpdate (h id rfl)) fun _ => Obeys.pure _

theorem releaseTruck_confined {truckId : Option Id} (h : ∀ id, truckId = some id → S (.truck id))
    (orderId : Id) : Confined S (releaseTruck truckId orderId) := by
  cases truckId with
  | none => exact Obeys.pure _
  | some id => exact Obeys.bind (Confined.findOneAndUpdate (h id rfl)) fun _ => Obeys.pure _

theorem releaseTank_confined {tankId : Option Id} (h : ∀ id, tankId = some id → S (.tank id))
    (orderId : Id) : Confined S (releaseTank tankId orderId) := by
  cases tankId with
  | none => exact Obeys.pure _
  | some id => exact Obeys.bind (Confined.findOneAndUpdate (h id rfl)) fun _ => Obeys.pure _

theorem releaseDriverIfAssigned_confined {order : OrderDocument}
    (hdriver : ∀ id, order.driverId = some id → S (.user id))
    (htruck : ∀ id, order.truckId = some id → S (.truck id))
    (htank : ∀ id, order.tankId = some id → S (.tank id)) :
    Confined S (releaseDriverIfAssigned order) :=
  Obeys.bind (releaseDriver_confined hdriver _) fun _ =>
    Obeys.bind (releaseTruck_confined htruck _) fun _ => releaseTank_confined htank _

theorem assertTankFits_confined (tank : Tank) (order : OrderDocument) :
    Confined S (assertTankFits tank order) := by
  unfold assertTankFits
  split_ifs
  · exact Obeys.throw _
  · exact Obeys.throw _
  · exact Obeys.pure _

theorem assignDriver_confined {order : OrderDocument} {a : Assignment}
    (horder : S (.order order.id)) (hdriver : S (.user a.driverId)) (htruck : S (.truck a.truckId))
    (htank : S (.tank a.tankId)) : Confined S (assignDriver order a) := by
  refine Obeys.bind (Confined.findOneAndUpdate hdriver) fun driver => ?_
  cases driver with
  | none => exact Obeys.throw _
  | some driver =>
      refine Obeys.bind (Confined.findOneAndUpdate htruck) fun truck => ?_
      cases truck with
      | none => exact Obeys.throw _
      | some truck =>
          refine Obeys.bind (Confined.findOneAndUpdate htank) fun tank => ?_
          cases tank with
          | none => exact Obeys.throw _
          | some tank =>
              refine Obeys.bind (assertTankFits_confined _ _) fun _ => ?_
              exact Obeys.bind (Obeys.find _) fun _ => transition_confined horder _ _ _ _

theorem reassignVehicle_confined {order : OrderDocument} {truckId tankId : Id}
    (horder : S (.order order.id)) (htruck : S (.truck truckId)) (htank : S (.tank tankId))
    (holdTruck : ∀ id, order.truckId = some id → S (.truck id))
    (holdTank : ∀ id, order.tankId = some id → S (.tank id)) :
    Confined S (reassignVehicle order truckId tankId) := by
  refine Obeys.bind (releaseTruck_confined holdTruck _) fun _ => ?_
  refine Obeys.bind (releaseTank_confined holdTank _) fun _ => ?_
  refine Obeys.bind (Confined.findOneAndUpdate htruck) fun truck => ?_
  cases truck with
  | none => exact Obeys.throw _
  | some truck =>
      refine Obeys.bind (Confined.findOneAndUpdate htank) fun tank => ?_
      cases tank with
      | none => exact Obeys.throw _
      | some tank =>
          refine Obeys.bind (assertTankFits_confined _ _) fun _ => ?_
          refine Obeys.bind (Confined.findOneAndUpdate horder) fun updated => ?_
          cases updated with
          | none => exact Obeys.throw _
          | some _ => exact Obeys.pure _

theorem pushConfirmed_confined {order : OrderDocument} (h : S (.order order.id))
    (dto : SupplierInvoiceInput) (actorId : Id) : Confined S (pushConfirmed order dto actorId) := by
  refine Obeys.bind Obeys.getTime fun _ => ?_
  refine Obeys.bind (Confined.findOneAndUpdate h) fun updated => ?_
  cases updated with
  | none => exact Obeys.throw _
  | some _ => exact Obeys.pure _

theorem recordVerification_confined {order : OrderDocument} (h : S (.order order.id))
    (attempt : VehicleVerification) (actor : TransitionActor) :
    Confined S (recordVerification order attempt actor) := by
  refine Obeys.bind (Confined.findOneAndUpdate h) fun _ => ?_
  split_ifs
  · exact Obeys.pure _
  · exact transition_confined h _ _ _ _
  · refine Obeys.bind (Obeys.find _) fun o => ?_
    cases o with
    | none => exact Obeys.throw _
    | some _ => exact Obeys.pure _

end operations

namespace Call

/-- The order a call acts on. A creation acts on an order that is not there yet. -/
def subject : Call → Option Id
  | .approve order .. | .awaitRouting order .. | .route order .. | .reopen order ..
  | .accept order .. | .settle order .. | .timeOut _ order | .assign order ..
  | .reassign order .. | .cancel order .. | .complete order .. | .forceComplete order ..
  | .verify order .. | .confirmLoading order .. | .overrideDeparture order ..
  | .overrideLoading order .. | .verifyArrival order .. | .confirmInvoice order ..
  | .replaceInvoice order .. => some order.id
  | .reject orderId .. => some orderId
  | _ => none

def creates : Call → Bool
  | .create .. => true
  | _ => false

/-- The calls that issue, settle or void an invoice. -/
def bills : Call → Bool
  | .route .. | .settle .. | .settleInvoice .. | .cancel .. => true
  | _ => false

/-- The payments and payouts on the platform account. -/
def pays : Call → Bool
  | .recordPayment .. | .confirmPayment .. | .recordCashbackPayout .. => true
  | _ => false

/-- The keys a call may change. -/
def touches (c : Call) : Key → Bool
  | .order id => c.creates || c.subject = some id
  | .user id =>
      match c with
      | .timeOut _ order | .cancel order .. | .complete order .. | .forceComplete order .. =>
          order.driverId = some id
      | .assign _ a => a.driverId = id
      | .administer _ => true
      | _ => false
  | .truck id =>
      match c with
      | .assign _ a => a.truckId = id
      | .reassign order truckId _ => truckId = id || order.truckId = some id
      | .cancel order .. | .complete order .. | .forceComplete order .. => order.truckId = some id
      | .administer _ => true
      | _ => false
  | .tank id =>
      match c with
      | .assign _ a => a.tankId = id
      | .reassign order _ tankId => tankId = id || order.tankId = some id
      | .cancel order .. | .complete order .. | .forceComplete order .. => order.tankId = some id
      | .administer _ => true
      | _ => false
  | .invoice _ => c.bills
  | .accountMovement _ => c.bills || c.pays
  | .paymentEvent id =>
      match c with
      | .recordInvalid .. | .recordPaid .. => true
      | .markOutcome eventId _ => eventId = id
      | _ => false
  | .litreBalance key =>
      match c with
      | .create fields _ => fields.order.balanceKey = key
      | .cancel order .. => order.balanceKey = key
      | .confirmInvoice order dto _ | .replaceInvoice order dto _ =>
          BalanceKey.mk order.fuelCompanyId order.clientId dto.confirmed.fuelType = key
      | .correct key' .. => key' = key
      | _ => false
  | .timeoutJob id =>
      match c with
      | .schedule orderId | .unschedule orderId => orderId = id
      | .finishJob job => job.orderId = id
      | _ => false
  | .company _ | .warehouse _ | .station _ | .commissionTerm _ | .cashbackProgramme _ =>
      match c with
      | .administer _ => true
      | _ => false

/-- The collections administrators write. -/
def reference : Key → Prop
  | .order _ | .invoice _ | .accountMovement _ | .paymentEvent _ | .litreBalance _
  | .timeoutJob _ => False
  | _ => True

theorem edit_confined (edit : AdminEdit) : Confined reference edit.body := by
  cases edit with
  | putCompany id c =>
      simp only [AdminEdit.body]
      exact Confined.upsert trivial
  | putWarehouse id w =>
      simp only [AdminEdit.body]
      exact Confined.upsert trivial
  | putStation id s =>
      simp only [AdminEdit.body]
      exact Confined.upsert trivial
  | addCommissionTerm id t => exact Confined.insert (by trivial)
  | addCashbackProgramme id p => exact Confined.insert (by trivial)
  | addUser => exact Confined.insert (by trivial)
  | setCreditLimit => exact Obeys.bind (Confined.findOneAndUpdate (by trivial)) fun _ => Obeys.pure _
  | setOnline => exact Obeys.bind (Confined.findOneAndUpdate (by trivial)) fun _ => Obeys.pure _
  | deactivateUser =>
      refine Obeys.bind (Confined.findOneAndUpdate (by trivial)) fun _ => ?_
      exact Obeys.bind (Confined.findOneAndUpdate (by trivial)) fun _ => Obeys.pure _
  | activateUser => exact Obeys.bind (Confined.findOneAndUpdate (by trivial)) fun _ => Obeys.pure _
  | addTruck => exact Confined.insert (by trivial)
  | setTruckActive => exact Obeys.bind (Confined.findOneAndUpdate (by trivial)) fun _ => Obeys.pure _
  | addTank => exact Confined.insert (by trivial)
  | setTankActive => exact Obeys.bind (Confined.findOneAndUpdate (by trivial)) fun _ => Obeys.pure _

theorem subject_touches {c : Call} {id : Id} (h : c.subject = some id) :
    c.touches (.order id) = true := by
  simp [touches, h]

theorem transition_touches {c : Call} {id : Id} (h : c.subject = some id)
    (source target : OrderStatus) (actor : TransitionActor) (options : TransitionOptions) :
    Confined (fun k => c.touches k = true) (transition id source target actor options) := by
  refine transition_confined ?_ _ _ _ _
  exact subject_touches h

/-- The frame rule, for bodies. -/
theorem body_confined (cfg : Settings) (c : Call) :
    Confined (fun k => c.touches k = true) (c.body cfg) := by
  cases c with
  | create fields userId =>
      refine Obeys.bind Obeys.freshId fun id => ?_
      refine Obeys.bind (Confined.insert (by simp [touches, creates])) fun _ => ?_
      exact Obeys.bind (drawdownAttempts_confined (by simp [touches]) _ _ _ _) fun _ => Obeys.pure _
  | approve =>
      simp only [body, CiroFuel.approve]
      exact transition_touches rfl _ _ _ _
  | reject =>
      simp only [body, CiroFuel.reject]
      exact transition_touches rfl _ _ _ _
  | awaitRouting =>
      simp only [body, CiroFuel.awaitRouting]
      exact transition_touches rfl _ _ _ _
  | route order source transportCompanyId deliveryFee actor =>
      have horder : (route order source transportCompanyId deliveryFee actor).touches
          (.order order.id) = true := subject_touches rfl
      refine Obeys.bind_ok (transition_touches (by rfl) _ _ _ _) fun env v routed u hrouted => ?_
      obtain ⟨o, entry, -, -, -, -, rfl, -⟩ := transition_ok hrouted
      refine Obeys.bind Obeys.getTime fun pricedAt => Obeys.bind Obeys.getTime fun now => ?_
      refine Obeys.bind_ok (transition_touches (by rfl) _ _ _ _) fun env v awaiting u hawaiting => ?_
      obtain ⟨o, entry, -, -, -, -, rfl, -⟩ := transition_ok hawaiting
      refine Obeys.bind (issueInvoice_confined cfg ?_ ?_ horder) fun _ => Obeys.pure _
      · exact fun _ => rfl
      · exact fun _ => rfl
  | reopen =>
      exact Obeys.bind Obeys.getTime fun _ => transition_touches (by rfl) _ _ _ _
  | accept =>
      simp only [body, settleAndResume]
      exact transition_touches rfl _ _ _ _
  | recordInvalid =>
      refine Obeys.bind Obeys.freshId fun _ => Obeys.bind Obeys.freshId fun _ => ?_
      exact Obeys.bind (Confined.insert (by simp [touches])) fun _ => Obeys.pure _
  | recordPaid =>
      refine Obeys.bind Obeys.freshId fun _ => ?_
      exact Obeys.bind (Confined.insert (by simp [touches])) fun _ => Obeys.pure _
  | markOutcome => exact Confined.updateOne (by simp [touches])
  | settle =>
      refine Obeys.bind (settleInvoiceForOrder_confined ?_ ?_ _ _) fun _ => ?_
      · exact fun _ => rfl
      · exact fun _ => rfl
      · exact transition_touches (by rfl) _ _ _ _
  | timeOut =>
      refine Obeys.bind (releaseDriver_confined (by simp [touches]) _) fun _ => ?_
      exact transition_touches (by rfl) _ _ _ _
  | settleInvoice => exact settleById_confined (by simp [touches, bills]) (by simp [touches, bills]) _
  | assign =>
      exact assignDriver_confined (by exact subject_touches rfl) (by simp [touches]) (by simp [touches])
        (by simp [touches])
  | reassign =>
      exact reassignVehicle_confined (by exact subject_touches rfl) (by simp [touches]) (by simp [touches])
        (by simp +contextual [touches]) (by simp +contextual [touches])
  | cancel order actor reason =>
      refine Obeys.bind (releaseDriverIfAssigned_confined (by simp [touches]) (by simp [touches])
        (by simp [touches])) fun _ => ?_
      refine Obeys.bind (transition_touches (by rfl) _ _ _ _) fun _ => ?_
      have hreturn : Confined (fun k => (cancel order actor reason).touches k = true)
          (returnDrawdown cfg.arithmetic order.balanceKey order.id actor.actorId) :=
        returnDrawdown_confined (by simp [touches]) _ _
      split_ifs
      · refine Obeys.bind (voidInvoice_confined ?_ ?_ _) fun _ => ?_
        · exact fun _ => rfl
        · exact fun _ => rfl
        · exact Obeys.bind hreturn fun _ => Obeys.pure _
      · exact Obeys.bind hreturn fun _ => Obeys.pure _
  | complete =>
      refine Obeys.bind (releaseDriverIfAssigned_confined (by simp [touches]) (by simp [touches])
        (by simp [touches])) fun _ => ?_
      exact transition_touches (by rfl) _ _ _ _
  | forceComplete =>
      refine Obeys.bind (releaseDriverIfAssigned_confined (by simp [touches]) (by simp [touches])
        (by simp [touches])) fun _ => ?_
      exact transition_touches (by rfl) _ _ _ _
  | verify => exact recordVerification_confined (by exact subject_touches rfl) _ _
  | confirmLoading =>
      simp only [body, CiroFuel.confirmLoading]
      exact transition_touches rfl _ _ _ _
  | overrideDeparture =>
      simp only [body, CiroFuel.overrideDeparture]
      exact transition_touches rfl _ _ _ _
  | overrideLoading =>
      simp only [body, CiroFuel.overrideLoading]
      exact transition_touches rfl _ _ _ _
  | verifyArrival =>
      simp only [body, CiroFuel.verifyArrival]
      exact transition_touches rfl _ _ _ _
  | confirmInvoice =>
      refine Obeys.bind (recordReconciliation_confined (by simp [touches]) _ _ _ _) fun _ => ?_
      exact Obeys.bind (pushConfirmed_confined (by exact subject_touches rfl) _ _) fun _ => Obeys.pure _
  | replaceInvoice order dto actorId =>
      have rest : Confined (fun k => (replaceInvoice order dto actorId).touches k = true) (do
          let reconciliation ← restateReconciliation cfg.arithmetic
            ⟨order.fuelCompanyId, order.clientId, dto.confirmed.fuelType⟩ order.id
            order.quantityLiters dto.confirmed.quantityLitres actorId
          let updated ← pushConfirmed order dto actorId
          return (updated, reconciliation) : Action (OrderDocument × ReconciliationResult)) := by
        refine Obeys.bind (restateReconciliation_confined (by simp [touches]) _ _ _ _) fun _ => ?_
        exact Obeys.bind (pushConfirmed_confined (by exact subject_touches rfl) _ _) fun _ => Obeys.pure _
      change Confined _ (replaceSupplierInvoice cfg.arithmetic order order.currentEntry dto actorId)
      unfold replaceSupplierInvoice
      split
      · refine Obeys.bind (Obeys.bind Obeys.getTime fun _ => ?_) fun _ => rest
        refine Obeys.bind (Confined.findOneAndUpdate ?_) fun _ => Obeys.pure _
        exact subject_touches rfl
      · exact rest
  | correct => exact recordCorrection_confined (by simp [touches]) _ _ _
  | recordPayment =>
      simp only [body, CiroFuel.recordPayment]
      exact createMovement_confined (fun _ => rfl) _
  | confirmPayment =>
      refine Obeys.bind Obeys.getTime fun _ => ?_
      refine Obeys.bind (Confined.findOneAndUpdate (by rfl)) fun movement => ?_
      cases movement with
      | none => exact Obeys.throw _
      | some movement => exact Obeys.pure _
  | recordCashbackPayout =>
      refine Obeys.bind (Obeys.bind (getConfirmedBalance_confined _ _) fun _ => ?_) fun owed => ?_
      · exact Obeys.bind (getConfirmedBalance_confined _ _) fun _ => Obeys.pure _
      · split_ifs
        · exact Obeys.throw _
        · exact Obeys.bind Obeys.getTime fun _ => createMovement_confined (fun _ => rfl) _
  | schedule => exact Obeys.bind Obeys.getTime fun _ => Confined.upsert (by simp [touches])
  | unschedule =>
      simp only [body, cancelTimeout]
      exact Confined.upsert (by simp [touches])
  | finishJob =>
      simp only [body]
      exact Confined.upsert (by simp [touches])
  | administer edit =>
      intro env v r w h p hp
      refine edit_confined edit env v r w h p fun e he href => hp e he ?_
      cases hkey : e.1 <;> rw [hkey] at href <;> first | rfl | exact href.elim

/-- A call that ran has left the keys it does not touch as they were. -/
theorem body_frame {cfg : Settings} {c : Call} {env : Env} {v w : View Doc} {r : c.Reply}
    (h : (c.body cfg).run env v = .ok (r, w)) {k : Key} (hk : c.touches k = false) :
    w.find k = v.find k :=
  (body_confined cfg c).find_eq h (by simp [hk])

end Call
end CiroFuel
