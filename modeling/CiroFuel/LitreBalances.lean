import CiroFuel.Pricing

/-!
# Litre balances

An owner holds one balance for each company and grade. Orders draw it down when
they are created, cancelled orders return what they drew, and confirmed supplier
invoices credit a shortfall or debit an excess. Each of these records a movement
and changes the balance by the same amount, in one write.

The balance is kept in numbers of limited precision, and is rounded to one of them
whenever it changes. Movements are embedded in it; a generated movement id differs from
those present.
-/
namespace CiroFuel
open Snapshot

namespace LitreBalance

def freshMovementId (b : LitreBalance) : Id := (b.movements.map (·.id)).foldl max 0 + 1

/-- Records a movement and changes the balance by it. -/
def move (A : Arithmetic) (b : LitreBalance) (kind : LitreMovementKind) (litres : ℚ)
    (orderId : Option Id) (reason : Option String) (actorId : Id) (at_ : Instant) : LitreBalance :=
  { b with
    balanceLitres := A.round (b.balanceLitres + litres)
    movements := b.movements ++ [{
      id := b.freshMovementId, kind := kind, litres := litres, orderId := orderId,
      reason := reason, actorId := actorId, at_ := at_ }] }

def isReconciliation (m : LitreMovement) : Bool :=
  m.kind = .shortfallCredit || m.kind = .excessDebit

end LitreBalance

def findBalance (key : BalanceKey) : Action (Option LitreBalance) := Tx.find (Key.litreBalance key)

def updateBalance (key : BalanceKey) (filter : LitreBalance → Bool)
    (update : LitreBalance → LitreBalance) : Action (Option LitreBalance) :=
  Tx.findOneAndUpdate (Key.litreBalance key) filter update

structure ReconciliationResult where
  shortfallLitres : ℚ
  balanceLitres : ℚ
  wentNegative : Bool

structure DrawdownResult where
  litresDrawn : ℚ
  balanceRemaining : ℚ

/-- Credits the shortfall or debits the excess of a delivery, once for each order. -/
def recordReconciliation (A : Arithmetic) (key : BalanceKey) (orderId : Id)
    (orderedLitres suppliedLitres : ℚ) (actorId : Id) : Action ReconciliationResult := do
  let shortfallLitres := roundLitres A (A.round (orderedLitres - suppliedLitres))
  if shortfallLitres = 0 then
    let balance ← findBalance key
    return ⟨0, (balance.map (·.balanceLitres)).getD 0, false⟩
  else
    let kind := if shortfallLitres > 0 then LitreMovementKind.shortfallCredit else .excessDebit
    -- The balance exists before the conditional write below.
    Tx.upsert (Key.litreBalance key) ({} : LitreBalance) id
    let at_ ← Tx.getTime
    match ← updateBalance key (fun b => !b.reconciledOrderIds.contains orderId) (fun b =>
        { b.move A kind shortfallLitres (some orderId) none actorId at_ with
          reconciledOrderIds := b.reconciledOrderIds ++ [orderId] }) with
    | some updated =>
        return ⟨shortfallLitres, updated.balanceLitres, updated.balanceLitres < 0⟩
    | none => Tx.throw .supplierInvoiceAlreadyRecorded

/-- Takes back the movement of an earlier confirmation, if it made one, then
records the new one. -/
def restateReconciliation (A : Arithmetic) (key : BalanceKey) (orderId : Id)
    (orderedLitres suppliedLitres : ℚ) (actorId : Id) : Action ReconciliationResult := do
  let existing ← findBalance key
  let priorMovement := existing.bind fun b => b.movements.find? fun m =>
    m.orderId = some orderId && LitreBalance.isReconciliation m
  match priorMovement with
  | some prior =>
      let _ ← updateBalance key (fun _ => true) fun b =>
        { b with
          balanceLitres := A.round (b.balanceLitres - prior.litres)
          movements := b.movements.filter fun m => m.id ≠ prior.id
          reconciledOrderIds := b.reconciledOrderIds.filter fun o => o ≠ orderId }
      recordReconciliation A key orderId orderedLitres suppliedLitres actorId
  | none => recordReconciliation A key orderId orderedLitres suppliedLitres actorId

/-- The attempts of `drawdown`, at most `attempts` of them. -/
def drawdownAttempts (A : Arithmetic) (key : BalanceKey) (orderId : Id) (requestedLitres : ℚ)
    (actorId : Id) : ℕ → Action DrawdownResult
  | 0 => Tx.throw .drawdownConflict
  | attempts + 1 => do
      let current ← findBalance key
      let availableLitres := (current.map (·.balanceLitres)).getD 0
      if availableLitres ≤ 0 then
        return ⟨0, max availableLitres 0⟩
      else
        let litresDrawn := roundLitres A (min availableLitres requestedLitres)
        if litresDrawn ≤ 0 then
          return ⟨0, availableLitres⟩
        else
          let at_ ← Tx.getTime
          match ← updateBalance key (fun b => b.balanceLitres = availableLitres) (fun b =>
              b.move A .orderDrawdown (-litresDrawn) (some orderId) none actorId at_) with
          | some updated => return ⟨litresDrawn, updated.balanceLitres⟩
          | none => drawdownAttempts A key orderId requestedLitres actorId attempts

def maxDrawdownAttempts : ℕ := 5

/-- Draws at most the requested litres from the balance. -/
def drawdown (A : Arithmetic) (key : BalanceKey) (orderId : Id) (requestedLitres : ℚ)
    (actorId : Id) : Action DrawdownResult :=
  drawdownAttempts A key orderId requestedLitres actorId maxDrawdownAttempts

/-- Returns what an order drew, once. -/
def returnDrawdown (A : Arithmetic) (key : BalanceKey) (orderId actorId : Id) : Action Unit := do
  match ← findBalance key with
  | none => return ()
  | some balance =>
      if balance.movements.any fun m => m.orderId = some orderId && m.kind = .drawdownReturned then
        return ()
      else
        match balance.movements.find? fun m =>
            m.orderId = some orderId && m.kind = .orderDrawdown with
        | none => return ()
        | some drawn =>
            let at_ ← Tx.getTime
            let _ ← updateBalance key (fun _ => true) fun b =>
              b.move A .drawdownReturned (-drawn.litres) (some orderId) none actorId at_
            return ()

/-- White space and line terminators, as the language has them. -/
def isWhiteSpace (c : Char) : Bool :=
  (9 ≤ c.toNat && c.toNat ≤ 13) || (8192 ≤ c.toNat && c.toNat ≤ 8202) ||
    [32, 160, 5760, 8232, 8233, 8239, 8287, 12288, 65279].contains c.toNat

/-- The text without surrounding white space. -/
def trim (s : String) : String :=
  String.ofList ((s.toList.dropWhile isWhiteSpace).reverse.dropWhile isWhiteSpace).reverse

/-- An administrator's correction of an existing balance. -/
def recordCorrection (A : Arithmetic) (key : BalanceKey) (litres : ℚ) (reason : String)
    (actorId : Id) : Action LitreBalance := do
  if trim reason = "" then
    Tx.throw .correctionReasonRequired
  else
    let at_ ← Tx.getTime
    match ← updateBalance key (fun _ => true) (fun b =>
        b.move A .correction (roundLitres A litres) none (some (trim reason)) actorId at_) with
    | some updated => return updated
    | none => Tx.throw .balanceNotFound

end CiroFuel
