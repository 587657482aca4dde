import CiroFuel.LitreBalances

/-!
# Invoices and the platform account

An invoice is issued once for each order, inside the transaction that prices it;
issuing checks the client's credit and the company's commission ceiling and
accrues commission. Settling accrues cashback; voiding reverses what was
accrued. Balances are always summed from confirmed movements, and each sum is rounded
to a number that can be kept.
-/
namespace CiroFuel
open Snapshot

/-! ### The platform account -/

def createMovement (movement : AccountMovement) : Action Id := do
  let id ← Tx.freshId
  Tx.insert (Key.accountMovement id) movement
  return id

/-- The sum of a company's confirmed movements of one kind, the oldest first; reversals count
negatively. -/
def confirmedBalance (A : Arithmetic) (d : Docs Doc) (companyId : Id)
    (kind : AccountMovementKind) : ℚ :=
  ((Docs.collect pickAccountMovement d).filter fun m =>
    m.2.companyId = companyId && m.2.kind = kind && m.2.state = .confirmed).foldr
    (fun m sum => A.round (sum + if m.2.reversalOfId.isSome then -m.2.amount else m.2.amount)) 0

def getConfirmedBalance (A : Arithmetic) (companyId : Id) (kind : AccountMovementKind) :
    Action ℚ := do
  return confirmedBalance A (← Tx.scan) companyId kind

def getCashbackOwed (A : Arithmetic) (companyId : Id) : Action ℚ := do
  let credited ← getConfirmedBalance A companyId .cashbackCredited
  let paidOut ← getConfirmedBalance A companyId .cashbackPaidOut
  return A.round (credited - paidOut)

/-- The confirmed movements of an invoice that are originals and not yet reversed. -/
def unreversedMovements (d : Docs Doc) (invoiceId : Id) : List (Id × AccountMovement) :=
  let movements := Docs.collect pickAccountMovement d
  (movements.filter fun m => m.2.sourceInvoiceId = some invoiceId && m.2.state = .confirmed &&
      m.2.reversalOfId.isNone).filter fun m =>
    !movements.any fun r => r.2.reversalOfId = some m.1

def createReversals : List (Id × AccountMovement) → Action Unit
  | [] => return ()
  | (id, original) :: rest => do
      let _ ← createMovement
        { companyId := original.companyId
          kind := original.kind
          amount := original.amount
          state := .confirmed
          sourceInvoiceId := original.sourceInvoiceId
          appliedRate := original.appliedRate
          appliedBasis := original.appliedBasis
          reversalOfId := some id }
      createReversals rest

def reverseMovementsForInvoice (invoiceId : Id) : Action Unit := do
  createReversals (unreversedMovements (← Tx.scan) invoiceId)

/-! ### Payments and payouts -/

/-- A company's payment counts only once the operator has confirmed it. -/
def recordPayment (companyId : Id) (amount : ℚ) (reference : Option ℕ) : Action Id :=
  createMovement
    { companyId := companyId
      kind := .paymentRecorded
      amount := amount
      state := .recorded
      reference := reference }

def confirmPayment (id confirmedBy : Id) : Action AccountMovement := do
  let at_ ← Tx.getTime
  match ← (Tx.findOneAndUpdate (Key.accountMovement id)
      (fun (m : AccountMovement) => m.kind = .paymentRecorded && m.state = .recorded)
      fun (m : AccountMovement) =>
        { m with
          state := .confirmed
          confirmedBy := some confirmedBy
          confirmedAt := some at_ } : Action (Option AccountMovement)) with
  | some movement => return movement
  | none => Tx.throw .paymentAlreadyConfirmed

/-- The operator records a payout; what is owed is read again inside the transaction. -/
def recordCashbackPayout (A : Arithmetic) (companyId : Id) (amount : ℚ) (reference : ℕ)
    (confirmedBy : Id) : Action Id := do
  let owed ← getCashbackOwed A companyId
  if amount > owed then Tx.throw (.payoutExceedsBalance amount owed) else
    let at_ ← Tx.getTime
    createMovement
      { companyId := companyId
        kind := .cashbackPaidOut
        amount := amount
        state := .confirmed
        reference := some reference
        confirmedBy := some confirmedBy
        confirmedAt := some at_ }

/-! ### Commission and cashback -/

/-- The latest record by `effectiveFrom`, ties broken by id. -/
def latest {α : Type} (effectiveFrom : α → Instant) (records : List (Id × α)) : Option α :=
  (records.foldl
    (fun newest r =>
      match newest with
      | some n =>
          if effectiveFrom n.2 < effectiveFrom r.2 ||
              (effectiveFrom n.2 = effectiveFrom r.2 && n.1 < r.1) then some r else some n
      | none => some r)
    none).map (·.2)

def getCurrentCommissionTerm : Action (Option CommissionTerm) := do
  return latest (·.effectiveFrom) (Docs.collect pickCommissionTerm (← Tx.scan))

def getCurrentCashbackProgramme : Action (Option CashbackProgramme) := do
  return latest (·.effectiveFrom) (Docs.collect pickCashbackProgramme (← Tx.scan))

def computeAmount (A : Arithmetic) (basis : CommissionBasis) (rate invoiceAmount : ℚ) : ℚ :=
  let product := A.round (invoiceAmount * rate)
  A.roundTo 100 (if basis = .percentage then A.round (product / 100) else product)

def resolveCeiling (cfg : Settings) (companyId : Id) : Action ℚ := do
  let company : Option Company ← Tx.find (Key.company companyId)
  return (company.bind (·.commissionCeiling)).getD cfg.defaultCommissionCeiling

def getNetCommissionOwed (A : Arithmetic) (companyId : Id) : Action ℚ := do
  let charged ← getConfirmedBalance A companyId .commissionCharged
  let paid ← getConfirmedBalance A companyId .paymentRecorded
  return A.round (charged - paid)

def assertUnderCeiling (cfg : Settings) (companyId : Id) : Action Unit := do
  let balance ← getNetCommissionOwed cfg.arithmetic companyId
  let ceiling ← resolveCeiling cfg companyId
  if balance > ceiling then Tx.throw (.commissionCeilingExceeded balance ceiling) else return ()

def accrueCommission (A : Arithmetic) (order : OrderDocument) (invoice : InvoiceDocument) :
    Action Unit := do
  match ← getCurrentCommissionTerm with
  | none => return ()
  | some term =>
      let amount := computeAmount A term.basis term.rate invoice.amount
      if amount ≤ 0 then return () else
        let _ ← createMovement
          { companyId := order.fuelCompanyId
            kind := .commissionCharged
            amount := amount
            state := .confirmed
            sourceInvoiceId := some invoice.id
            appliedRate := some term.rate
            appliedBasis := some term.basis }
        return ()

def CashbackProgramme.targets (p : CashbackProgramme) (companyId : Id) : Bool :=
  p.isActive && (p.targetsAllCompanies || p.targetCompanyIds.contains companyId)

def accrueCashback (A : Arithmetic) (invoice : InvoiceDocument) : Action Unit := do
  match ← getCurrentCashbackProgramme with
  | none => return ()
  | some programme =>
      let amount := computeAmount A programme.basis programme.rate invoice.amount
      if !programme.targets invoice.fuelCompanyId || amount ≤ 0 then return () else
        let _ ← createMovement
          { companyId := invoice.fuelCompanyId
            kind := .cashbackCredited
            amount := amount
            state := .confirmed
            sourceInvoiceId := some invoice.id
            appliedRate := some programme.rate
            appliedBasis := some programme.basis }
        return ()

/-! ### Invoices -/

def updateUser (id : Id) (filter : User → Bool) (update : User → User) : Action (Option User) :=
  Tx.findOneAndUpdate (Key.user id) filter update

def updateInvoice (id : Id) (filter : Invoice → Bool) (update : Invoice → Invoice) :
    Action (Option Invoice) :=
  Tx.findOneAndUpdate (Key.invoice id) filter update

/-- What the client still owes on credit. -/
def outstandingCredit (d : Docs Doc) (clientId : Id) : ℚ :=
  (((Docs.collect pickInvoice d).filter fun x =>
    x.2.clientId = clientId && x.2.method = .credit && x.2.state = .issued).map (·.2.amount)).sum

/-- The client's remaining credit. The client is rewritten unchanged first, so
that two concurrent checks for one client conflict. -/
def getAvailableCredit (clientId : Id) : Action ℚ := do
  match ← updateUser clientId (fun _ => true) id with
  | none => Tx.throw .clientNotFound
  | some client =>
      return roundCurrency (client.creditLimit.getD 0 - outstandingCredit (← Tx.scan) clientId)

/-- Refuses a credit order that exceeds what the client has left. -/
def assertCredit (order : OrderDocument) (amount : ℚ) : Action Unit := do
  if order.paymentMethod = .credit then
    let available ← getAvailableCredit order.clientId
    if amount > available then Tx.throw (.creditLimitExceeded amount available) else return ()
  else return ()

/-- The invoice of an order at its final price, or at its estimate when there is none. -/
def Order.invoiceFor (order : OrderDocument) : Invoice :=
  let amount := order.finalPrice.getD order.estimatedPrice
  { orderId := order.id
    fuelCompanyId := order.fuelCompanyId
    clientId := order.clientId
    transportCompanyId := if order.paymentMethod = .deferred then order.transportCompanyId else none
    amount := amount
    -- A breakdown that disagrees with the amount is not carried forward.
    priceBreakdown := order.priceBreakdown.filter fun b => b.total = amount
    method := order.paymentMethod
    state := .issued
    payerRole := if order.paymentMethod = .deferred then .transportCompanyAdmin else .client }

def issueInvoice (cfg : Settings) (order : OrderDocument) : Action InvoiceDocument := do
  assertCredit order (order.finalPrice.getD order.estimatedPrice)
  if order.paymentMethod = .deferred || order.paymentMethod = .credit then
    assertUnderCeiling cfg order.fuelCompanyId
  let id ← Tx.freshId
  let invoice := Order.invoiceFor order
  Tx.insert (Key.invoice id) invoice
  let _ ← updateOrder order.id (fun _ => true) fun o => { o with invoiceId := some id }
  accrueCommission cfg.arithmetic order (invoice.withId id)
  return invoice.withId id

/-- The invoice of an order; the index on `orderId` makes it unique. -/
def findInvoiceOf (d : Docs Doc) (orderId : Id) : Option InvoiceDocument :=
  ((Docs.collect pickInvoice d).find? fun x => x.2.orderId = orderId).map fun x => x.2.withId x.1

/-- Settles an issued invoice; any other is left as it is. -/
def applySettlement (A : Arithmetic) (invoice : InvoiceDocument) (paymentReference : Option ℕ) :
    Action InvoiceDocument := do
  if invoice.state ≠ .issued then return invoice else
    let at_ ← Tx.getTime
    let settled : InvoiceDocument :=
      { invoice with
        state := .settled
        settledAt := some at_
        paymentReference := paymentReference.or invoice.paymentReference }
    let _ ← updateInvoice invoice.id (fun _ => true) fun x =>
      { x with
        state := .settled
        settledAt := some at_
        paymentReference := paymentReference.or x.paymentReference }
    accrueCashback A settled
    return settled

def settleInvoiceForOrder (A : Arithmetic) (orderId : Id) (paymentReference : Option ℕ) :
    Action InvoiceDocument := do
  match findInvoiceOf (← Tx.scan) orderId with
  | none => Tx.throw (.noInvoiceForOrder orderId)
  | some invoice => applySettlement A invoice paymentReference

/-- Manual settlement by the invoice's id. -/
def settleById (A : Arithmetic) (id : Id) (paymentReference : Option ℕ) :
    Action InvoiceDocument := do
  match ← (Tx.find (Key.invoice id) : Action (Option Invoice)) with
  | none => Tx.throw .invoiceNotFound
  | some invoice => applySettlement A (invoice.withId id) paymentReference

/-- Voids the order's invoice if it is still issued, and reverses its accruals. -/
def voidInvoice (orderId : Id) : Action Unit := do
  match findInvoiceOf (← Tx.scan) orderId with
  | none => return ()
  | some invoice =>
      if invoice.state ≠ .issued then return () else
        match ← updateInvoice invoice.id (fun x => x.orderId = orderId && x.state = .issued)
            (fun x => { x with state := .void }) with
        | none => return ()
        | some _ => reverseMovementsForInvoice invoice.id

end CiroFuel
