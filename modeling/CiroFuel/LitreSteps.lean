import CiroFuel.Evolution

/-!
# What a call can make of a litre balance

One constructor for each way a call can end on the balance of a key, the ways
that leave it alone included. A balance that was never written counts as empty.
As for orders, every invariant of balances is proved by cases on this relation.
-/
namespace CiroFuel
open Snapshot Tx

/-- The balance under a key. -/
def balanceOf (d : Docs Doc) (key : BalanceKey) : LitreBalance :=
  (d.lookup (Key.litreBalance key)).getD {}

theorem balanceOf_eq {d : Docs Doc} {key : BalanceKey} {b : LitreBalance}
    (h : d.lookup (Key.litreBalance key) = some b) : balanceOf d key = b := by
  simp [balanceOf, h]

theorem balanceOf_congr {d e : Docs Doc} {key : BalanceKey}
    (h : e.lookup (Key.litreBalance key) = d.lookup (Key.litreBalance key)) :
    balanceOf e key = balanceOf d key := by
  simp only [balanceOf, h]

namespace LitreBalance

/-- Records a reconciliation and marks its order. -/
def reconciled (A : Arithmetic) (b : LitreBalance) (litres : ℚ) (orderId actorId : Id)
    (at_ : Instant) : LitreBalance :=
  { b.move A (if litres > 0 then .shortfallCredit else .excessDebit) litres (some orderId) none
      actorId at_ with
    reconciledOrderIds := b.reconciledOrderIds ++ [orderId] }

/-- Without the reconciliation of an order, if there was one. -/
def takenBack (A : Arithmetic) (b : LitreBalance) (orderId : Id) : LitreBalance :=
  match b.movements.find? fun m => m.orderId = some orderId && isReconciliation m with
  | some prior =>
      { b with
        balanceLitres := A.round (b.balanceLitres - prior.litres)
        movements := b.movements.filter fun m => m.id ≠ prior.id
        reconciledOrderIds := b.reconciledOrderIds.filter fun o => o ≠ orderId }
  | none => b

end LitreBalance

/-! ### The operations -/

section operations
variable {A : Arithmetic} {env : Env} {v w : View Doc} {key : BalanceKey}

theorem updateBalance_ok {filter : LitreBalance → Bool} {update : LitreBalance → LitreBalance}
    {r : Option LitreBalance} (h : (updateBalance key filter update).run env v = .ok (r, w)) :
    (∃ b, v.find (Key.litreBalance key) = some b ∧ filter b = true ∧ r = some (update b) ∧
      balanceOf v.docs key = b ∧ balanceOf w.docs key = update b) ∨
    (r = none ∧ w = v ∧ ∀ b, v.find (Key.litreBalance key) = some b → filter b = false) := by
  rcases findOneAndUpdate_ok h with ⟨b, hb, hfilter, -, rfl, rfl⟩ | ⟨rfl, rfl, hnone⟩
  · exact Or.inl ⟨b, hb, hfilter, rfl, balanceOf_eq hb, balanceOf_eq (View.find_put_self _ _ _)⟩
  · exact Or.inr ⟨rfl, rfl, hnone⟩

theorem recordReconciliation_ok {orderId : Id} {ordered supplied : ℚ} {actorId : Id}
    {r : ReconciliationResult}
    (h : (recordReconciliation A key orderId ordered supplied actorId).run env v = .ok (r, w)) :
    (roundLitres A (A.round (ordered - supplied)) = 0 ∧ w = v) ∨
    (roundLitres A (A.round (ordered - supplied)) ≠ 0 ∧
      orderId ∉ (balanceOf v.docs key).reconciledOrderIds ∧ ∃ n, balanceOf w.docs key =
        (balanceOf v.docs key).reconciled A (roundLitres A (A.round (ordered - supplied))) orderId actorId
          (env.time n)) := by
  unfold recordReconciliation at h
  dsimp only at h
  split_ifs at h with hzero hpositive
  · obtain ⟨balance, u, hfind, hreturn⟩ := bind_ok h
    obtain ⟨-, rfl⟩ := find_ok hfind
    obtain ⟨-, rfl⟩ := pure_ok hreturn
    exact Or.inl ⟨hzero, rfl⟩
  all_goals
    obtain ⟨_, u, hupsert, h⟩ := bind_ok h
    obtain ⟨-, rfl⟩ := upsert_ok hupsert
    obtain ⟨t, u, ht, h⟩ := bind_ok h
    obtain ⟨rfl, rfl⟩ := getTime_ok ht
    obtain ⟨updated, u, hupdate, h⟩ := bind_ok h
    rcases updateBalance_ok hupdate with ⟨b, hb, hfilter, rfl, -, hw⟩ | ⟨rfl, -, -⟩
    · obtain ⟨-, rfl⟩ := pure_ok h
      cases (View.find_put_self _ _ _).symm.trans hb
      change (!(balanceOf v.docs key).reconciledOrderIds.contains orderId) = true at hfilter
      refine Or.inr ⟨hzero, by simpa using hfilter, v.readings, hw.trans ?_⟩
      simp only [LitreBalance.reconciled, hpositive, if_true, if_false]
      rfl
    · exact (throw_ok h).elim

/-- The balance is first freed of the earlier reconciliation, then reconciled. -/
theorem restateReconciliation_ok {orderId : Id} {ordered supplied : ℚ} {actorId : Id}
    {r : ReconciliationResult}
    (h : (restateReconciliation A key orderId ordered supplied actorId).run env v = .ok (r, w)) :
    (roundLitres A (A.round (ordered - supplied)) = 0 ∧
      balanceOf w.docs key = (balanceOf v.docs key).takenBack A orderId) ∨
    (roundLitres A (A.round (ordered - supplied)) ≠ 0 ∧
      orderId ∉ ((balanceOf v.docs key).takenBack A orderId).reconciledOrderIds ∧
      ∃ n, balanceOf w.docs key = ((balanceOf v.docs key).takenBack A orderId).reconciled A
        (roundLitres A (A.round (ordered - supplied))) orderId actorId (env.time n)) := by
  have record : ∀ u : View Doc,
      balanceOf u.docs key = (balanceOf v.docs key).takenBack A orderId →
      (recordReconciliation A key orderId ordered supplied actorId).run env u = .ok (r, w) →
      (roundLitres A (A.round (ordered - supplied)) = 0 ∧
        balanceOf w.docs key = (balanceOf v.docs key).takenBack A orderId) ∨
      (roundLitres A (A.round (ordered - supplied)) ≠ 0 ∧
        orderId ∉ ((balanceOf v.docs key).takenBack A orderId).reconciledOrderIds ∧
        ∃ n, balanceOf w.docs key = ((balanceOf v.docs key).takenBack A orderId).reconciled A
          (roundLitres A (A.round (ordered - supplied))) orderId actorId (env.time n)) := by
    intro u hu hrun
    rw [← hu]
    rcases recordReconciliation_ok hrun with ⟨hzero, rfl⟩ | hrecorded
    · exact Or.inl ⟨hzero, rfl⟩
    · exact Or.inr hrecorded
  obtain ⟨existing, u, hfind, h⟩ := bind_ok h
  obtain ⟨rfl, rfl⟩ := find_ok hfind
  cases hb : u.find (Key.litreBalance key) with
  | none =>
      refine record u ?_ (by simpa [hb] using h)
      simp [balanceOf, LitreBalance.takenBack, show u.docs.lookup (Key.litreBalance key) = none from hb]
  | some b =>
      have hbalance : balanceOf u.docs key = b := balanceOf_eq hb
      rw [hb] at h
      simp only [Option.bind_some] at h
      split at h
      · rename_i prior hprior
        obtain ⟨updated, u₁, hupdate, h⟩ := bind_ok h
        refine record u₁ ?_ h
        rcases updateBalance_ok hupdate with ⟨b', hb', -, -, -, hw⟩ | ⟨-, -, hnone⟩
        · cases hb.symm.trans hb'
          rw [hw, hbalance, LitreBalance.takenBack, hprior]
        · exact absurd (hnone b hb) (by simp)
      · rename_i hprior
        refine record u ?_ h
        rw [hbalance, LitreBalance.takenBack, hprior]

/-- A drawdown draws what the balance holds of what was asked, or nothing. -/
theorem drawdownAttempts_ok {orderId : Id} {requested : ℚ} {actorId : Id} {attempts : ℕ}
    {r : DrawdownResult}
    (h : (drawdownAttempts A key orderId requested actorId attempts).run env v = .ok (r, w)) :
    w = v ∨
    (0 < roundLitres A (min (balanceOf v.docs key).balanceLitres requested) ∧ ∃ n,
      balanceOf w.docs key = (balanceOf v.docs key).move A .orderDrawdown
        (-roundLitres A (min (balanceOf v.docs key).balanceLitres requested)) (some orderId) none
        actorId (env.time n)) := by
  induction attempts generalizing v with
  | zero => exact (throw_ok h).elim
  | succ attempts ih =>
      obtain ⟨current, u, hfind, h⟩ := bind_ok h
      obtain ⟨rfl, rfl⟩ := find_ok hfind
      dsimp only at h
      split_ifs at h with havailable hdrawn
      · obtain ⟨-, rfl⟩ := pure_ok h
        exact Or.inl rfl
      · obtain ⟨-, rfl⟩ := pure_ok h
        exact Or.inl rfl
      · obtain ⟨t, u₁, ht, h⟩ := bind_ok h
        obtain ⟨rfl, rfl⟩ := getTime_ok ht
        obtain ⟨updated, u₂, hupdate, h⟩ := bind_ok h
        rcases updateBalance_ok hupdate with ⟨b, hb, hfilter, rfl, hbalance, hw⟩ | ⟨rfl, rfl, hnone⟩
        · obtain ⟨-, rfl⟩ := pure_ok h
          change u.find (Key.litreBalance key) = some b at hb
          rw [hb] at hdrawn hw
          rw [show balanceOf u.docs key = b from balanceOf_eq hb]
          exact Or.inr ⟨Rat.not_le.mp hdrawn, _, hw⟩
        · -- The balance was read from the same view, so the update found it.
          cases hb : u.find (Key.litreBalance key) with
          | none => simp [hb] at havailable
          | some b => exact absurd (hnone b hb) (by simp [hb])

/-- A return gives back the order's drawdown, unless there is none or it has
been given back. -/
theorem returnDrawdown_ok {orderId actorId : Id} {r : Unit}
    (h : (returnDrawdown A key orderId actorId).run env v = .ok (r, w)) :
    (balanceOf w.docs key = balanceOf v.docs key ∧
      ((∃ m ∈ (balanceOf v.docs key).movements,
          m.orderId = some orderId ∧ m.kind = .drawdownReturned) ∨
        ∀ m ∈ (balanceOf v.docs key).movements,
          m.orderId = some orderId → m.kind ≠ .orderDrawdown)) ∨
    ∃ drawn n, (∀ m ∈ (balanceOf v.docs key).movements,
        m.orderId = some orderId → m.kind ≠ .drawdownReturned) ∧
      drawn ∈ (balanceOf v.docs key).movements ∧ drawn.orderId = some orderId ∧
      drawn.kind = .orderDrawdown ∧
      balanceOf w.docs key = (balanceOf v.docs key).move A .drawdownReturned (-drawn.litres)
        (some orderId) none actorId (env.time n) := by
  obtain ⟨found, u, hfind, h⟩ := bind_ok h
  obtain ⟨rfl, rfl⟩ := find_ok hfind
  cases hb : u.find (Key.litreBalance key) with
  | none =>
      rw [hb] at h
      obtain ⟨-, rfl⟩ := pure_ok h
      refine Or.inl ⟨rfl, Or.inr ?_⟩
      simp [balanceOf, show w.docs.lookup (Key.litreBalance key) = none from hb]
  | some b =>
      rw [show balanceOf u.docs key = b from balanceOf_eq hb]
      rw [hb] at h
      dsimp only at h
      split_ifs at h with hreturned
      · obtain ⟨-, rfl⟩ := pure_ok h
        refine Or.inl ⟨balanceOf_eq hb, Or.inl ?_⟩
        simpa using hreturned
      · split at h
        · rename_i hdrawn
          obtain ⟨-, rfl⟩ := pure_ok h
          refine Or.inl ⟨balanceOf_eq hb, Or.inr ?_⟩
          simpa using hdrawn
        · rename_i drawn hdrawn
          obtain ⟨t, u₁, ht, h⟩ := bind_ok h
          obtain ⟨rfl, rfl⟩ := getTime_ok ht
          obtain ⟨updated, u₂, hupdate, h⟩ := bind_ok h
          obtain ⟨-, rfl⟩ := pure_ok h
          have hfound := List.find?_some hdrawn
          simp only [Bool.and_eq_true, decide_eq_true_eq] at hfound
          rcases updateBalance_ok hupdate with ⟨b', hb', -, -, -, hw⟩ | ⟨-, -, hnone⟩
          · cases hb.symm.trans hb'
            exact Or.inr ⟨drawn, u.readings, by simpa using hreturned,
              List.mem_of_find?_eq_some hdrawn, hfound.1, hfound.2, hw⟩
          · exact absurd (hnone b hb) (by simp)

theorem recordCorrection_ok {litres : ℚ} {reason : String} {actorId : Id} {r : LitreBalance}
    (h : (recordCorrection A key litres reason actorId).run env v = .ok (r, w)) :
    ∃ n, balanceOf w.docs key = (balanceOf v.docs key).move A .correction (roundLitres A litres) none
      (some (trim reason)) actorId (env.time n) := by
  unfold recordCorrection at h
  split_ifs at h with hreason
  · exact (throw_ok h).elim
  · obtain ⟨t, u, ht, h⟩ := bind_ok h
    obtain ⟨rfl, rfl⟩ := getTime_ok ht
    obtain ⟨updated, u, hupdate, h⟩ := bind_ok h
    rcases updateBalance_ok hupdate with ⟨b, hb, -, rfl, hbalance, hw⟩ | ⟨rfl, -, -⟩
    · obtain ⟨-, rfl⟩ := pure_ok h
      refine ⟨v.readings, hw.trans ?_⟩
      rw [show balanceOf v.docs key = b from hbalance]
    · exact (throw_ok h).elim

end operations

/-! ### The calls -/

/-- What a delivery fell short of the order by; negative when it exceeded it. -/
def Order.shortfall (A : Arithmetic) (o : Order) (data : ConfirmedSupplierInvoiceData) : ℚ :=
  roundLitres A (A.round (o.quantityLiters - data.quantityLitres))

/-- The balance a supplier invoice is reconciled against. -/
def OrderDocument.reconciledKey (order : OrderDocument) (dto : SupplierInvoiceInput) : BalanceKey :=
  ⟨order.fuelCompanyId, order.clientId, dto.confirmed.fuelType⟩

/-- What a call can have made of the balance of `key`, from the documents it
found to those it left. -/
inductive LitreStep (A : Arithmetic) (time : ℕ → Instant) (found left : Docs Doc) (key : BalanceKey) :
    Call → LitreBalance → LitreBalance → Prop where
  | frame {c b} (htouches : c.touches (.litreBalance key) = false) :
      LitreStep A time found left key c b b
  | draw {fields userId id b n} (hkey : fields.order.balanceKey = key)
      (hnew : found.lookup (Key.order id) = none)
      (hnow : left.lookup (Key.order id) = some fields.order)
      (hlitres : 0 < roundLitres A (min b.balanceLitres fields.quantityLiters)) :
      LitreStep A time found left key (.create fields userId) b
        (b.move A .orderDrawdown (-roundLitres A (min b.balanceLitres fields.quantityLiters))
          (some id) none userId (time n))
  | drawNothing {fields userId b} : LitreStep A time found left key (.create fields userId) b b
  | giveBack {order actor reason b drawn n} (hkey : order.balanceKey = key)
      (hfirst : ∀ m ∈ b.movements, m.orderId = some order.id → m.kind ≠ .drawdownReturned)
      (hdrawn : drawn ∈ b.movements) (horder : drawn.orderId = some order.id)
      (hkind : drawn.kind = .orderDrawdown) :
      LitreStep A time found left key (.cancel order actor reason) b
        (b.move A .drawdownReturned (-drawn.litres) (some order.id) none actor.actorId (time n))
  | giveNothing {order actor reason b} (hkey : order.balanceKey = key)
      (hnothing : (∃ m ∈ b.movements, m.orderId = some order.id ∧ m.kind = .drawdownReturned) ∨
        ∀ m ∈ b.movements, m.orderId = some order.id → m.kind ≠ .orderDrawdown) :
      LitreStep A time found left key (.cancel order actor reason) b b
  | confirm {order dto actorId b n} (hkey : order.reconciledKey dto = key)
      (hlitres : order.shortfall A dto.confirmed ≠ 0) (hfirst : order.id ∉ b.reconciledOrderIds) :
      LitreStep A time found left key (.confirmInvoice order dto actorId) b
        (b.reconciled A (order.shortfall A dto.confirmed) order.id actorId (time n))
  | confirmExact {order dto actorId b} (hkey : order.reconciledKey dto = key)
      (hlitres : order.shortfall A dto.confirmed = 0) :
      LitreStep A time found left key (.confirmInvoice order dto actorId) b b
  | replace {order dto actorId b n} (hkey : order.reconciledKey dto = key)
      (hlitres : order.shortfall A dto.confirmed ≠ 0)
      (hfirst : order.id ∉ (b.takenBack A order.id).reconciledOrderIds) :
      LitreStep A time found left key (.replaceInvoice order dto actorId) b
        ((b.takenBack A order.id).reconciled A (order.shortfall A dto.confirmed) order.id actorId
          (time n))
  | replaceExact {order dto actorId b} (hkey : order.reconciledKey dto = key)
      (hlitres : order.shortfall A dto.confirmed = 0) :
      LitreStep A time found left key (.replaceInvoice order dto actorId) b (b.takenBack A order.id)
  | correct {litres reason actorId b n} :
      LitreStep A time found left key (.correct key litres reason actorId) b
        (b.move A .correction (roundLitres A litres) none (some (trim reason)) actorId (time n))

namespace Call
variable {cfg : Settings} {env : Env} {v w : View Doc} {c : Call} {r : c.Reply}

/-- The parts of a confirmation: it reconciles, then records the invoice. -/
theorem confirmInvoice_ok {order : OrderDocument} {dto : SupplierInvoiceInput} {actorId : Id}
    {r : OrderDocument × ReconciliationResult}
    (h : ((confirmInvoice order dto actorId).body cfg).run env v = .ok (r, w)) :
    ∃ u reconciliation updated,
      (recordReconciliation cfg.arithmetic (order.reconciledKey dto) order.id order.quantityLiters
        dto.confirmed.quantityLitres actorId).run env v = .ok (reconciliation, u) ∧
      (pushConfirmed order dto actorId).run env u = .ok (updated, w) := by
  obtain ⟨reconciliation, u, hrecord, h⟩ := bind_ok h
  obtain ⟨updated, u', hpush, h⟩ := bind_ok h
  obtain ⟨-, rfl⟩ := pure_ok h
  exact ⟨u, reconciliation, updated, hrecord, hpush⟩

/-- A replacement first supersedes the entry its document calls current. -/
theorem replaceInvoice_ok {order : OrderDocument} {dto : SupplierInvoiceInput} {actorId : Id}
    {r : OrderDocument × ReconciliationResult}
    (h : ((replaceInvoice order dto actorId).body cfg).run env v = .ok (r, w)) :
    ∃ u u' reconciliation updated,
      ((order.currentEntry = none ∧ u = v) ∨ ∃ entry, order.currentEntry = some entry ∧
        (supersede order entry).run env v = .ok ((), u)) ∧
      (restateReconciliation cfg.arithmetic (order.reconciledKey dto) order.id order.quantityLiters
        dto.confirmed.quantityLitres actorId).run env u = .ok (reconciliation, u') ∧
      (pushConfirmed order dto actorId).run env u' = .ok (updated, w) := by
  change Tx.run env (replaceSupplierInvoice cfg.arithmetic order order.currentEntry dto actorId) v =
    _ at h
  unfold replaceSupplierInvoice at h
  split at h
  · rename_i entry hentry
    obtain ⟨_, u, hsupersede, h⟩ := bind_ok h
    obtain ⟨reconciliation, u', hrestate, h⟩ := bind_ok h
    obtain ⟨updated, u'', hpush, h⟩ := bind_ok h
    obtain ⟨-, rfl⟩ := pure_ok h
    exact ⟨u, u', reconciliation, updated, Or.inr ⟨entry, hentry, hsupersede⟩, hrestate, hpush⟩
  · rename_i hentry
    obtain ⟨reconciliation, u', hrestate, h⟩ := bind_ok h
    obtain ⟨updated, u'', hpush, h⟩ := bind_ok h
    obtain ⟨-, rfl⟩ := pure_ok h
    exact ⟨v, u', reconciliation, updated, Or.inl ⟨hentry, rfl⟩, hrestate, hpush⟩

theorem pushConfirmed_balance {order r : OrderDocument} {dto : SupplierInvoiceInput} {actorId : Id}
    (h : (pushConfirmed order dto actorId).run env v = .ok (r, w)) (key : BalanceKey) :
    balanceOf w.docs key = balanceOf v.docs key :=
  balanceOf_congr ((pushConfirmed_confined (S := fun k => ∀ key, k ≠ Key.litreBalance key)
    (by simp) dto actorId).find_eq h (by simp))

theorem supersede_balance {order : OrderDocument} {entry : SupplierInvoice} {r : Unit}
    (h : (supersede order entry).run env v = .ok (r, w)) (key : BalanceKey) :
    balanceOf w.docs key = balanceOf v.docs key := by
  obtain ⟨t, u, ht, h⟩ := bind_ok h
  obtain ⟨-, rfl⟩ := getTime_ok ht
  obtain ⟨updated, u, hupdate, h⟩ := bind_ok h
  obtain ⟨-, rfl⟩ := pure_ok h
  exact balanceOf_congr ((Confined.findOneAndUpdate (S := fun k => ∀ key, k ≠ Key.litreBalance key)
    (by simp)).find_eq hupdate (by simp))

/-- What a call that ran has made of a balance. -/
theorem body_balance (h : (c.body cfg).run env v = .ok (r, w)) (key : BalanceKey) :
    LitreStep cfg.arithmetic env.time v.docs w.docs key c (balanceOf v.docs key)
      (balanceOf w.docs key) := by
  by_cases htouches : c.touches (.litreBalance key) = false
  · rw [balanceOf_congr (body_frame h htouches)]
    exact .frame htouches
  rw [Bool.not_eq_false] at htouches
  cases c with
  | create fields userId =>
      simp only [touches, decide_eq_true_eq] at htouches
      subst htouches
      obtain ⟨id, u, hid, h⟩ := bind_ok h
      obtain ⟨-, rfl⟩ := freshId_ok hid
      obtain ⟨_, u, hinsert, h⟩ := bind_ok h
      obtain ⟨hnone, -, rfl⟩ := insert_ok hinsert
      obtain ⟨drawn, u, hdraw, h⟩ := bind_ok h
      obtain ⟨-, rfl⟩ := pure_ok h
      have hput : balanceOf (View.put { v with drawn := v.drawn + 1 } (Key.order id)
          fields.order).docs fields.order.balanceKey = balanceOf v.docs fields.order.balanceKey :=
        balanceOf_congr (View.find_put_ne _ _ (by simp))
      rcases drawdownAttempts_ok hdraw with rfl | ⟨hlitres, n, hw⟩
      · rw [hput]
        exact .drawNothing
      · rw [hput] at hlitres hw
        rw [hw]
        refine .draw rfl hnone ?_ hlitres
        exact ((drawdownAttempts_confined (S := fun k => ∀ id, k ≠ Key.order id) (by simp)
          _ _ _ _).find_eq hdraw (by simp)).trans (View.find_put_self _ _ _)
  | cancel order actor reason =>
      simp only [touches, decide_eq_true_eq] at htouches
      subst htouches
      obtain ⟨u, u₁, u₂, updated, hrelease, htransition, hvoid, hreturn⟩ := cancel_ok h
      have hu : u.find (Key.litreBalance order.balanceKey) =
          v.find (Key.litreBalance order.balanceKey) :=
        (releaseDriverIfAssigned_confined (S := fun k => k ≠ Key.litreBalance order.balanceKey)
          (by simp) (by simp) (by simp)).find_eq hrelease (by simp)
      have hu₁ := (transition_confined (S := fun k => k ≠ Key.litreBalance order.balanceKey)
        (by simp) _ _ _ _).find_eq htransition (k := Key.litreBalance order.balanceKey) (by simp)
      have hu₂ : u₂.find (Key.litreBalance order.balanceKey) =
          u₁.find (Key.litreBalance order.balanceKey) := by
        rcases hvoid with ⟨-, hvoid⟩ | ⟨-, rfl⟩
        · exact (voidInvoice_confined (S := fun k => k ≠ Key.litreBalance order.balanceKey)
            (by simp) (by simp) _).find_eq hvoid (by simp)
        · rfl
      have hbalance : balanceOf u₂.docs order.balanceKey = balanceOf v.docs order.balanceKey :=
        balanceOf_congr (hu₂.trans (hu₁.trans hu))
      rcases returnDrawdown_ok hreturn with ⟨hw, hnothing⟩ | ⟨drawn, n, hfirst, hdrawn, horder, hkind, hw⟩
      · rw [hbalance] at hw hnothing
        rw [hw]
        exact .giveNothing rfl hnothing
      · rw [hbalance] at hw hfirst hdrawn
        rw [hw]
        exact .giveBack rfl hfirst hdrawn horder hkind
  | confirmInvoice order dto actorId =>
      simp only [touches, decide_eq_true_eq] at htouches
      subst htouches
      obtain ⟨u, _, _, hrecord, hpush⟩ := confirmInvoice_ok h
      change LitreStep _ _ _ _ (order.reconciledKey dto) _ (balanceOf v.docs (order.reconciledKey dto))
        (balanceOf w.docs (order.reconciledKey dto))
      rw [pushConfirmed_balance hpush]
      rcases recordReconciliation_ok hrecord with ⟨hzero, rfl⟩ | ⟨hne, hfirst, n, hu⟩
      · exact .confirmExact rfl hzero
      · rw [hu]
        exact .confirm rfl hne hfirst
  | replaceInvoice order dto actorId =>
      simp only [touches, decide_eq_true_eq] at htouches
      subst htouches
      obtain ⟨u, u', _, _, hsupersede, hrestate, hpush⟩ := replaceInvoice_ok h
      have hu : balanceOf u.docs (order.reconciledKey dto) =
          balanceOf v.docs (order.reconciledKey dto) := by
        rcases hsupersede with ⟨-, rfl⟩ | ⟨entry, -, hsupersede⟩
        · rfl
        · exact supersede_balance hsupersede _
      change LitreStep _ _ _ _ (order.reconciledKey dto) _ (balanceOf v.docs (order.reconciledKey dto))
        (balanceOf w.docs (order.reconciledKey dto))
      rw [pushConfirmed_balance hpush]
      rcases restateReconciliation_ok hrestate with ⟨hzero, hw⟩ | ⟨hne, hfirst, n, hw⟩
      · rw [hw, hu]
        exact .replaceExact rfl hzero
      · rw [hu] at hw hfirst
        rw [hw]
        exact .replace rfl hne hfirst
  | correct key' litres reason actorId =>
      simp only [touches, decide_eq_true_eq] at htouches
      subst htouches
      obtain ⟨n, hw⟩ := recordCorrection_ok h
      rw [hw]
      exact .correct
  | _ => simp [touches] at htouches

end Call

/-- What one commit can have made of a balance. When the balance was not
written, the call would have left it alone in its snapshot, too. -/
theorem balance_cases {cfg : Settings} {ev : Event Doc Call.Reply} (hev : ev.Sound (machine cfg))
    (holder : Store.Older ev.base ev.before) (key : BalanceKey) :
    (balanceOf ev.base.docs key = balanceOf ev.before.docs key ∧
      LitreStep cfg.arithmetic ev.env.time ev.base.docs ev.view.docs key ev.label
        (balanceOf ev.before.docs key) (balanceOf ev.after.docs key)) ∨
    (balanceOf ev.after.docs key = balanceOf ev.before.docs key ∧
      LitreStep cfg.arithmetic ev.env.time ev.base.docs ev.view.docs key ev.label
        (balanceOf ev.base.docs key) (balanceOf ev.base.docs key)) := by
  have hstep := Call.body_balance hev.ran key
  change LitreStep _ _ _ _ key _ (balanceOf ev.base.docs key) _ at hstep
  rcases hev.cases holder (Key.litreBalance key) with ⟨hb, ha⟩ | ⟨hv, ha, -⟩
  · have hbase : balanceOf ev.base.docs key = balanceOf ev.before.docs key :=
      balanceOf_congr (d := ev.before.docs) (e := ev.base.docs) hb
    have hafter : balanceOf ev.after.docs key = balanceOf ev.view.docs key :=
      balanceOf_congr (d := ev.view.docs) (e := ev.after.docs) ha
    rw [← hafter, hbase] at hstep
    exact Or.inl ⟨hbase, hstep⟩
  · have hview : balanceOf ev.view.docs key = balanceOf ev.base.docs key :=
      balanceOf_congr (d := ev.base.docs) (e := ev.view.docs) hv
    rw [hview] at hstep
    exact Or.inr ⟨balanceOf_congr (d := ev.before.docs) (e := ev.after.docs) ha, hstep⟩

/-- An order that the body created was not there when it committed. -/
theorem created_order {cfg : Settings} {ev : Event Doc Call.Reply} (hev : ev.Sound (machine cfg))
    (holder : Store.Older ev.base ev.before) {id : Id} {o : Order}
    (hnone : ev.base.docs.lookup (Key.order id) = none)
    (hsome : ev.view.docs.lookup (Key.order id) = some o) :
    ev.before.order id = none ∧ ev.after.order id = some o := by
  have hchanged : ev.view.find (Key.order id) ≠ ev.base.find (Key.order id) := fun heq =>
    absurd (hsome.symm.trans (heq.trans hnone)) (by simp)
  obtain ⟨hb, ha⟩ := hev.written holder hchanged
  exact ⟨hb.symm.trans hnone, ha.trans hsome⟩

end CiroFuel
