import CiroFuel.SupplierInvoices
import CiroFuel.Billed
import Mathlib.Algebra.Order.Ring.Rat
import Mathlib.Tactic.Linarith

/-!
# Litres are given back

What an order that will not be delivered drew, it returns: a cancellation
reverses the drawdown. A rejection does not, and neither takes back what a
supplier invoice recorded. The litres of every such order are balanced in the
runs that reject only orders without litres, cancel only orders without a
reconciliation, and reconcile cancelled or rejected orders by no more.
-/
namespace CiroFuel
open Snapshot LitreBalance

/-- The statuses of an order that delivers nothing. -/
def closedStatuses : List OrderStatus := [.cancelled, .rejected]

/-- Drawdowns, returns, credits and debits. -/
def LitreBalance.ofOrders (kind : LitreMovementKind) : Bool := kind ≠ .correction

theorem LitreBalance.litresOf_split (b : LitreBalance) (id : Id) :
    b.litresOf ofOrders id =
      b.litresOf draws id + b.litresOf givesBack id + b.litresOf reconciles id := by
  unfold litresOf entries
  induction b.movements with
  | nil => simp
  | cons m l ih =>
      simp only [List.filter_cons]
      by_cases horder : m.orderId = some id
      · simp only [horder, decide_true, Bool.true_and] at ih ⊢
        cases hkind : m.kind with
        | correction => simpa [ofOrders, draws, givesBack, reconciles] using ih
        | _ =>
            simp [ofOrders, draws, givesBack, reconciles] at ih ⊢
            linarith
      · simpa [horder] using ih

namespace Call

/-- An order is rejected without litres, cancelled without a reconciliation, and
once closed only reconciled by what is recorded already. -/
def litresSettled (A : Arithmetic) : Call → Db → Bool
  | .reject orderId _ _, s => (s.order orderId).all fun o =>
      (balanceOf s.docs o.balanceKey).litresOf ofOrders orderId = 0
  | .cancel order _ _, s => (s.order order.id).all fun o =>
      (balanceOf s.docs o.balanceKey).litresOf LitreBalance.reconciles order.id = 0
  | .confirmInvoice order dto _, s => (s.order order.id).all fun o =>
      !closedStatuses.contains o.status || o.shortfall A dto.confirmed = 0
  | .replaceInvoice order dto _, s => (s.order order.id).all fun o =>
      !closedStatuses.contains o.status || o.shortfall A dto.confirmed =
        (balanceOf s.docs o.balanceKey).litresOf LitreBalance.reconciles order.id
  | _, _ => true

end Call

section step
variable {A : Arithmetic} {time : ℕ → Instant} {found left : Docs Doc} {key : BalanceKey} {c : Call}
variable {b b' : LitreBalance} {id : Id}

/-- A movement is recorded for the order a call acts on, or creates. -/
theorem LitreStep.entries_other (h : LitreStep A time found left key c b b') (hb : b.Sound A)
    (hid : c.subject ≠ some id)
    (hnew : found.lookup (Key.order id) = none → left.lookup (Key.order id) = none)
    (kinds : LitreMovementKind → Bool) : b'.entries kinds id = b.entries kinds id := by
  cases h with
  | draw hkey hnone hnow =>
      refine entries_move_other (A := A) _ _ _ _ _ _ _ (Or.inl fun e => ?_)
      cases e
      exact absurd (hnow.symm.trans (hnew hnone)) (by simp)
  | giveBack => exact entries_move_other (A := A) _ _ _ _ _ _ _ (Or.inl hid)
  | confirm => exact entries_move_other (A := A) _ _ _ _ _ _ _ (Or.inl hid)
  | replace =>
      exact (entries_move_other (A := A) _ _ _ _ _ _ _ (Or.inl hid)).trans
        (hb.entries_takenBack_other (Or.inl fun e => hid (congrArg some e.symm)))
  | replaceExact => exact hb.entries_takenBack_other (Or.inl fun e => hid (congrArg some e.symm))
  | correct => exact entries_move_other (A := A) _ _ _ _ _ _ _ (Or.inl (by simp))
  | _ => rfl

theorem reconciliation_kind (kinds : LitreMovementKind → Bool) (litres : ℚ)
    (hkinds : ∀ kind, kinds kind = true → reconciles kind = false) :
    kinds (if litres > 0 then .shortfallCredit else .excessDebit) = false := by
  rw [Bool.eq_false_iff]
  intro htrue
  have hfalse := hkinds _ htrue
  split_ifs at hfalse <;> cases hfalse

theorem draws_notReconciles (kind : LitreMovementKind) (h : draws kind = true) :
    reconciles kind = false := by
  cases kind <;> simp [draws, reconciles] at h ⊢

theorem givesBack_notReconciles (kind : LitreMovementKind) (h : givesBack kind = true) :
    reconciles kind = false := by
  cases kind <;> simp [givesBack, reconciles] at h ⊢

/-- An order draws when it is created, and never again. -/
theorem LitreStep.entries_draws (h : LitreStep A time found left key c b b') (hb : b.Sound A)
    (hnew : found.lookup (Key.order id) = none → left.lookup (Key.order id) = none) :
    b'.entries draws id = b.entries draws id := by
  cases h with
  | draw hkey hnone hnow =>
      refine entries_move_other (A := A) _ _ _ _ _ _ _ (Or.inl fun e => ?_)
      cases e
      exact absurd (hnow.symm.trans (hnew hnone)) (by simp)
  | giveBack => exact entries_move_other (A := A) _ _ _ _ _ _ _ (Or.inr rfl)
  | confirm =>
      exact entries_move_other (A := A) _ _ _ _ _ _ _
        (Or.inr (reconciliation_kind _ _ draws_notReconciles))
  | replace =>
      exact (entries_move_other (A := A) _ _ _ _ _ _ _
        (Or.inr (reconciliation_kind _ _ draws_notReconciles))).trans
        (hb.entries_takenBack_other (Or.inr draws_notReconciles))
  | replaceExact => exact hb.entries_takenBack_other (Or.inr draws_notReconciles)
  | correct => exact entries_move_other (A := A) _ _ _ _ _ _ _ (Or.inr rfl)
  | _ => rfl

/-- Only a cancellation returns litres. -/
theorem LitreStep.entries_givesBack (h : LitreStep A time found left key c b b') (hb : b.Sound A)
    (hcancel : ∀ order actor reason, c ≠ .cancel order actor reason) :
    b'.entries givesBack id = b.entries givesBack id := by
  cases h with
  | draw => exact entries_move_other (A := A) _ _ _ _ _ _ _ (Or.inr rfl)
  | giveBack => exact absurd rfl (hcancel _ _ _)
  | confirm =>
      exact entries_move_other (A := A) _ _ _ _ _ _ _
        (Or.inr (reconciliation_kind _ _ givesBack_notReconciles))
  | replace =>
      exact (entries_move_other (A := A) _ _ _ _ _ _ _
        (Or.inr (reconciliation_kind _ _ givesBack_notReconciles))).trans
        (hb.entries_takenBack_other (Or.inr givesBack_notReconciles))
  | replaceExact => exact hb.entries_takenBack_other (Or.inr givesBack_notReconciles)
  | correct => exact entries_move_other (A := A) _ _ _ _ _ _ _ (Or.inr rfl)
  | _ => rfl

/-- Reconciling concerns no other kind of movement. -/
theorem LitreStep.entries_notReconciles (h : LitreStep A time found left key c b b') (hb : b.Sound A)
    (hc : c.reconciles = true) {kinds : LitreMovementKind → Bool}
    (hkinds : ∀ kind, kinds kind = true → LitreBalance.reconciles kind = false) :
    b'.entries kinds id = b.entries kinds id := by
  cases h with
  | confirm => exact entries_move_other (A := A) _ _ _ _ _ _ _ (Or.inr (reconciliation_kind _ _ hkinds))
  | replace =>
      exact (entries_move_other (A := A) _ _ _ _ _ _ _ (Or.inr (reconciliation_kind _ _ hkinds))).trans
        (hb.entries_takenBack_other (Or.inr hkinds))
  | replaceExact => exact hb.entries_takenBack_other (Or.inr hkinds)
  | draw => cases hc
  | giveBack => cases hc
  | correct => cases hc
  | _ => rfl

/-- Reconciling by what is recorded already keeps the litres of the order. -/
theorem LitreStep.litres_kept (h : LitreStep A time found left key c b b') (hb : b.Sound A)
    (hc : c.reconciles = true)
    (hsame : b'.litresOf LitreBalance.reconciles id = b.litresOf LitreBalance.reconciles id) :
    b'.litresOf ofOrders id = b.litresOf ofOrders id := by
  rw [litresOf_split, litresOf_split, hsame]
  simp only [litresOf, h.entries_notReconciles hb hc draws_notReconciles,
    h.entries_notReconciles hb hc givesBack_notReconciles]

/-- A cancellation on a balance without a return for its order leaves no litres
drawn and not returned. -/
theorem LitreStep.cancelled {order : OrderDocument} {actor : TransitionActor}
    {reason : Option String}
    (h : LitreStep A time found left order.balanceKey (.cancel order actor reason) b b')
    (hb : b.Sound A) (hfirst : b.entries givesBack order.id = []) :
    b'.litresOf draws order.id + b'.litresOf givesBack order.id = 0 ∧
      b'.entries reconciles order.id = b.entries reconciles order.id := by
  cases h with
  | frame htouches => simp [Call.touches] at htouches
  | giveBack hkey hreturned hdrawn horder hkind =>
      rename_i drawn n
      have hentry : drawn ∈ b.entries draws order.id :=
        mem_entries.mpr ⟨hdrawn, horder, by simp [draws, hkind]⟩
      refine ⟨?_, entries_move_other (A := A) _ _ _ _ _ _ _ (Or.inr rfl)⟩
      rw [litresOf, litresOf, entries_move_other (A := A) _ _ _ _ _ _ _ (Or.inr rfl),
        entries_move_self _ _ _ _ _ _ rfl, hfirst, eq_singleton (hb.drawnOnce _) hentry]
      simp [movement]
  | giveNothing hkey hnothing =>
      refine ⟨?_, rfl⟩
      rcases hnothing with ⟨m, hm, horder, hkind⟩ | hnone
      · have hentry : m ∈ b.entries givesBack order.id :=
          mem_entries.mpr ⟨hm, horder, by simp [givesBack, hkind]⟩
        rw [hfirst] at hentry
        cases hentry
      · have hempty : b.entries draws order.id = [] := by
          refine List.filter_eq_nil_iff.mpr fun m hm => ?_
          simpa [draws] using hnone m hm
        simp [litresOf, hfirst, hempty]

end step

/-- The calls that close an order. -/
def Call.closes : Call → Bool
  | .reject .. | .cancel .. => true
  | _ => false

theorem OrderStep.closes {cfg : Settings} {time : ℕ → Instant} {c : Call} {o o' : Order}
    (h : OrderStep cfg time c o o') (hc : c.closes = false) (hclosed : o'.status ∈ closedStatuses) :
    o.status ∈ closedStatuses := by
  cases h with
  | reject => cases hc
  | cancel => cases hc
  | reassign => exact hclosed
  | attempt => exact hclosed
  | confirmInvoice => exact hclosed
  | replaceInvoice => exact hclosed
  | route => simp [Order.awaiting, closedStatuses] at hclosed
  | _ => simp [closedStatuses] at hclosed

/-- The calls on an order that may change its balance. -/
def Call.rebalances : Call → Bool
  | .cancel .. | .confirmInvoice .. | .replaceInvoice .. => true
  | _ => false

theorem Call.touches_balance {c : Call} {id : Id} (hid : c.subject = some id)
    (hc : c.rebalances = false) (key : BalanceKey) : c.touches (.litreBalance key) = false := by
  cases c <;> first
    | rfl
    | (cases hc; done)
    | cases hid

/-- What an order drew is settled by its creation. -/
def DrawnAtCreation (a b : Db) : Prop :=
  ∀ id, (a.order id).isSome = true → (b.order id).isSome = true ∧ ∀ key,
    (balanceOf b.docs key).entries draws id = (balanceOf a.docs key).entries draws id

/-- A return is of a cancelled order, and closed orders have no litres left. -/
structure GivenBack (s : Db) : Prop where
  returned : ∀ id o, s.order id = some o →
    (balanceOf s.docs o.balanceKey).entries givesBack id ≠ [] → o.status = .cancelled
  closed : ∀ id o, s.order id = some o → o.status ∈ closedStatuses →
    (balanceOf s.docs o.balanceKey).litresOf ofOrders id = 0

section commit
variable {cfg : Settings} {since : Db} {ev : Event Doc Call.Reply}

/-- An order that was there is not created by the commit. -/
theorem not_created (hev : ev.Sound (machine cfg)) (holder : Store.Older ev.base ev.before) {id : Id}
    {o : Order} (ho : ev.before.order id = some o)
    (hnone : ev.base.docs.lookup (Key.order id) = none) :
    ev.view.docs.lookup (Key.order id) = none := by
  cases hview : ev.view.docs.lookup (Key.order id) with
  | none => rfl
  | some o' => exact absurd ((created_order hev holder hnone hview).1.symm.trans ho) (by simp)

theorem commit_drawn (hev : ev.Sound (machine cfg)) (hholds : (evolution cfg since).Holds ev)
    (hledger : LitreLedger cfg.arithmetic ev.before) : DrawnAtCreation ev.before ev.after := by
  intro id hid
  obtain ⟨o, ho⟩ := Option.isSome_iff_exists.mp hid
  obtain ⟨o', ho', -⟩ := hholds.before_after.orders id o ho
  refine ⟨by simp [ho'], fun key => ?_⟩
  rcases balance_cases hev hholds.older key with ⟨-, hstep⟩ | ⟨heq, -⟩
  · exact hstep.entries_draws (hledger.sound key) (not_created hev hholds.older ho)
  · rw [heq]

/-- The movements of an order that the commit does not act on. -/
theorem entries_kept (hev : ev.Sound (machine cfg)) (hholds : (evolution cfg since).Holds ev)
    (hledger : LitreLedger cfg.arithmetic ev.before) {id : Id} {o : Order}
    (ho : ev.before.order id = some o)
    (hid : ev.label.subject ≠ some id ∨ ev.label.rebalances = false) (key : BalanceKey)
    (kinds : LitreMovementKind → Bool) :
    (balanceOf ev.after.docs key).entries kinds id =
      (balanceOf ev.before.docs key).entries kinds id := by
  by_cases hsubject : ev.label.subject = some id
  · have htouches := Call.touches_balance hsubject (hid.resolve_left (absurd hsubject)) key
    have hsame : ev.after.find (Key.litreBalance key) = ev.before.find (Key.litreBalance key) :=
      hev.unwritten hholds.older (Call.body_frame hev.ran htouches)
    rw [balanceOf_congr (d := ev.before.docs) (e := ev.after.docs) hsame]
  · rcases balance_cases hev hholds.older key with ⟨-, hstep⟩ | ⟨heq, -⟩
    · exact hstep.entries_other (hledger.sound key) hsubject (not_created hev hholds.older ho) kinds
    · rw [heq]

/-- What a cancellation leaves of the litres of its order. -/
theorem cancel_litres (hev : ev.Sound (machine cfg)) (hholds : (evolution cfg since).Holds ev)
    (hledger : LitreLedger cfg.arithmetic ev.base) (hledger' : LitreLedger cfg.arithmetic ev.before)
    (hdrawn : DrawnAtCreation ev.base ev.before) (hbase : GivenBack ev.base)
    (hbefore : GivenBack ev.before) {order : OrderDocument} {actor : TransitionActor}
    {reason : Option String} (hlabel : ev.label = .cancel order actor reason) {o : Order}
    (hob : ev.base.order order.id = some o) (ho : ev.before.order order.id = some o)
    (hopen : o.status ≠ .cancelled)
    (hsettled : (balanceOf ev.before.docs o.balanceKey).litresOf reconciles order.id = 0) :
    (balanceOf ev.after.docs o.balanceKey).litresOf ofOrders order.id = 0 := by
  have hkey : order.balanceKey = o.balanceKey := by
    obtain ⟨o₁, ho₁, hevolves⟩ := (hholds.pre.1 order (by rw [hlabel]; rfl)).earlier
    cases ho₁.symm.trans hob
    exact hevolves.balanceKey.symm
  have hfirst : (balanceOf ev.base.docs o.balanceKey).entries givesBack order.id = [] := by
    by_contra hne
    exact hopen (hbase.returned _ o hob hne)
  have hfirst' : (balanceOf ev.before.docs o.balanceKey).entries givesBack order.id = [] := by
    by_contra hne
    exact hopen (hbefore.returned _ o ho hne)
  have hcases := balance_cases hev hholds.older o.balanceKey
  rw [hlabel] at hcases
  rw [← hkey] at hcases hfirst hfirst' hsettled ⊢
  rw [litresOf_split]
  rcases hcases with ⟨-, hstep⟩ | ⟨heq, hstep⟩
  · obtain ⟨hzero, hsame⟩ := hstep.cancelled (hledger'.sound _) hfirst'
    rw [hzero, litresOf, hsame, ← litresOf, hsettled, add_zero]
  · -- Nothing was written, so nothing was drawn, in the snapshot and since.
    obtain ⟨hzero, -⟩ := hstep.cancelled (hledger.sound _) hfirst
    have hsame := (hdrawn order.id (by simp [hob])).2 order.balanceKey
    rw [heq, hsettled, add_zero, litresOf, litresOf, hsame, hfirst', ← hfirst]
    exact hzero

/-- What a commit leaves of the litres of an order that is closed afterwards. -/
theorem commit_closes (hev : ev.Sound (machine cfg)) (hholds : (evolution cfg since).Holds ev)
    (hsettled : ev.label.litresSettled cfg.arithmetic ev.before = true)
    (hledger : LitreLedger cfg.arithmetic ev.base)
    (hledger' : LitreLedger cfg.arithmetic ev.before) (hdrawn : DrawnAtCreation ev.base ev.before)
    (hbase : GivenBack ev.base) (hbefore : GivenBack ev.before) {id : Id} {o o' : Order}
    (hid : ev.label.subject = some id) (hob : ev.base.order id = some o)
    (ho : ev.before.order id = some o) (hstep : OrderStep cfg ev.env.time ev.label o o')
    (hclosed : o'.status ∈ closedStatuses) :
    (balanceOf ev.after.docs o.balanceKey).litresOf ofOrders id = 0 := by
  have kept : ev.label.rebalances = false →
      (balanceOf ev.after.docs o.balanceKey).litresOf ofOrders id =
        (balanceOf ev.before.docs o.balanceKey).litresOf ofOrders id := by
    intro hc
    rw [litresOf, entries_kept hev hholds hledger' ho (Or.inr hc)]
    rfl
  generalize hlabel : ev.label = c at *
  cases c with
  | cancel order actor reason =>
      cases hid
      have hedge : o.status ≠ .cancelled := by
        cases hstep with
        | cancel hstatus hedge =>
            intro hcancelled
            rw [← hstatus, hcancelled] at hedge
            simp [permits, transitions] at hedge
      refine cancel_litres hev hholds hledger hledger' hdrawn hbase hbefore hlabel hob ho hedge ?_
      simpa [Call.litresSettled, ho] using hsettled
  | reject orderId actor reason =>
      cases hid
      rw [kept rfl]
      simpa [Call.litresSettled, ho] using hsettled
  | confirmInvoice order dto actorId =>
      cases hid
      have hwas : o.status ∈ closedStatuses := hstep.closes rfl hclosed
      have hexact : o.shortfall cfg.arithmetic dto.confirmed = 0 := by
        simpa [Call.litresSettled, ho, hwas] using hsettled
      have hchecked := hholds.pre.2
      rw [hlabel] at hchecked
      obtain ⟨o₁, -, hob₁, -, -, -, hkey, -, hlitres⟩ :=
        reconciling_commit hev hholds (by rw [hlabel]; rfl) (by rw [hlabel]; rfl) hchecked
      cases hob.symm.trans hob₁
      rw [← hbefore.closed _ o ho hwas, hkey]
      rcases balance_cases hev hholds.older (order.reconciledKey dto) with ⟨-, hmove⟩ | ⟨heq, -⟩
      · rw [hlabel] at hmove
        refine hmove.litres_kept (hledger'.sound _) rfl ?_
        rw [litresOf, hmove.confirmed, ← hlitres, hexact]
        simp [recordedLitres, litresOf]
      · rw [heq]
  | replaceInvoice order dto actorId =>
      cases hid
      have hwas : o.status ∈ closedStatuses := hstep.closes rfl hclosed
      have hsame : o.shortfall cfg.arithmetic dto.confirmed =
          (balanceOf ev.before.docs o.balanceKey).litresOf reconciles order.id := by
        simpa [Call.litresSettled, ho, hwas] using hsettled
      have hchecked := hholds.pre.2
      rw [hlabel] at hchecked
      obtain ⟨o₁, -, hob₁, -, -, -, hkey, -, hlitres⟩ :=
        reconciling_commit hev hholds (by rw [hlabel]; rfl) (by rw [hlabel]; rfl) hchecked
      cases hob.symm.trans hob₁
      rw [← hbefore.closed _ o ho hwas, hkey]
      rcases balance_cases hev hholds.older (order.reconciledKey dto) with ⟨-, hmove⟩ | ⟨heq, -⟩
      · rw [hlabel] at hmove
        refine hmove.litres_kept (hledger'.sound _) rfl ?_
        rw [litresOf, hmove.replaced (hledger'.sound _), ← hkey, ← hsame, ← hlitres]
        unfold recordedLitres
        split_ifs with hzero
        · simp [hzero]
        · simp
      · rw [heq]
  | create => cases hid
  | correct => cases hid
  | _ =>
      rw [kept rfl]
      exact hbefore.closed id o ho (hstep.closes rfl hclosed)

theorem commit_givenBack (hev : ev.Sound (machine cfg)) (hholds : (evolution cfg since).Holds ev)
    (hsettled : ev.label.litresSettled cfg.arithmetic ev.before = true)
    (hledger : LitreLedger cfg.arithmetic ev.base)
    (hledger' : LitreLedger cfg.arithmetic ev.before) (hdrawn : DrawnAtCreation ev.base ev.before)
    (hbase : GivenBack ev.base) (hbefore : GivenBack ev.before) : GivenBack ev.after := by
  refine ⟨fun id o' ho' hreturned => ?_, fun id o' ho' hclosed => ?_⟩
  · rcases order_cases hev hholds.older hholds.pre id with ⟨hid, heq⟩ |
      ⟨o, o₁, hid, -, ho, ho₁, -, hstep⟩ | ⟨fields, userId, hlabel, hnone, hafter⟩
    · have ho := heq.symm.trans ho'
      rw [entries_kept hev hholds hledger' ho (Or.inl hid)] at hreturned
      exact hbefore.returned id o' ho hreturned
    · cases ho₁.symm.trans ho'
      by_cases hcancel : ∃ order actor reason, ev.label = .cancel order actor reason
      · obtain ⟨order, actor, reason, hlabel⟩ := hcancel
        rw [hlabel] at hstep
        cases hstep
        exact Order.moved_status _ _ _ _ _ _
      · obtain ⟨o₂, ho₂, hevolves⟩ := hholds.before_after.orders id o ho
        cases ho₂.symm.trans ho'
        rw [hevolves.balanceKey] at hreturned
        refine hevolves.closed cancelled_stays (hbefore.returned id o ho ?_)
        rcases balance_cases hev hholds.older o.balanceKey with ⟨-, hmove⟩ | ⟨heq, -⟩
        · rwa [hmove.entries_givesBack (hledger'.sound _) fun order actor reason hlabel =>
            hcancel ⟨order, actor, reason, hlabel⟩] at hreturned
        · rwa [heq] at hreturned
    · -- A new order has no movements but its drawdown.
      exfalso
      have hempty : (balanceOf ev.before.docs o'.balanceKey).entries givesBack id = [] := by
        refine List.eq_nil_iff_forall_not_mem.mpr fun m hm => ?_
        obtain ⟨hmem, horder, -⟩ := mem_entries.mp hm
        obtain ⟨o, ho, -⟩ := hledger'.owned _ m hmem id horder
        exact absurd (ho.symm.trans hnone) (by simp)
      apply hreturned
      rcases balance_cases hev hholds.older o'.balanceKey with ⟨-, hmove⟩ | ⟨heq, -⟩
      · rw [hmove.entries_givesBack (hledger'.sound _) (by rw [hlabel]; simp), hempty]
      · rw [heq, hempty]
  · rcases order_cases hev hholds.older hholds.pre id with ⟨hid, heq⟩ |
      ⟨o, o₁, hid, hob, ho, ho₁, -, hstep⟩ | ⟨fields, userId, -, -, hafter⟩
    · have ho := heq.symm.trans ho'
      rw [litresOf, entries_kept hev hholds hledger' ho (Or.inl hid)]
      exact hbefore.closed id o' ho hclosed
    · cases ho₁.symm.trans ho'
      obtain ⟨o₂, ho₂, hevolves⟩ := hholds.before_after.orders id o ho
      cases ho₂.symm.trans ho'
      rw [hevolves.balanceKey]
      exact commit_closes hev hholds hsettled hledger hledger' hdrawn hbase hbefore hid hob ho hstep
        hclosed
    · cases hafter.symm.trans ho'
      simp [OrderFields.order, closedStatuses] at hclosed

end commit

/-- In every run whose rejections, cancellations and later reconciliations meet
the condition, a cancelled or rejected order has cost and earned no litres, in
any balance. -/
theorem litres_given_back {cfg : Settings} {log : List (Event Doc Call.Reply)}
    {s : Sys Doc Call.Reply Refusal Answer}
    (h : Run (machine cfg) Store.empty
      (fun ev => ev.label.litresSettled cfg.arithmetic ev.before = true) log s)
    {id : Id} {o : Order} (ho : s.store.order id = some o) (hclosed : o.status ∈ closedStatuses)
    (key : BalanceKey) : (balanceOf s.store.docs key).litresOf ofOrders id = 0 := by
  obtain ⟨hledger, hrun⟩ := db_invariant (I := LitreLedger cfg.arithmetic) consistent_empty
    litreLedger_empty (fun ev hev _ hholds _ hbefore => commit_litreLedger hev hholds hbefore) h
  obtain ⟨hgiven, -⟩ := hrun.strengthen GivenBack DrawnAtCreation
    (fun _ _ hid => ⟨hid, fun _ => rfl⟩)
    (fun {a b c} hab hbc id hid => ⟨(hbc id (hab id hid).1).1, fun key =>
      ((hbc id (hab id hid).1).2 key).trans ((hab id hid).2 key)⟩)
    ⟨fun id o ho => (by cases ho), fun id o ho => (by cases ho)⟩
    (fun ev hev hP hbase hbefore hdrawn => ⟨commit_givenBack hev hP.2.1 hP.1 hP.2.2.1 hP.2.2.2
      hdrawn hbase hbefore, commit_drawn hev hP.2.1 hP.2.2.2⟩)
  by_cases hkey : key = o.balanceKey
  · rw [hkey]
    exact hgiven.closed id o ho hclosed
  · simp [litresOf, hledger.entries_elsewhere ho hkey]

theorem litres_given_back_restated :
    ∃ log s o, Run (machine Sample.cfg) Store.empty
        (fun ev => ev.label.litresSettled Sample.cfg.arithmetic ev.before = true) log s ∧
      s.store.order 101 = some o ∧ o.status = .cancelled ∧
      (balanceOf s.store.docs Sample.clientDiesel).litresOf draws 101 = -50 ∧
      (balanceOf s.store.docs Sample.clientDiesel).litresOf ofOrders 101 = 0 := by
  obtain ⟨log, s, hrun, htest⟩ := exists_run (machine Sample.cfg) Store.empty
    (fun ev => ev.label.litresSettled Sample.cfg.arithmetic ev.before = true) Sample.restated
    (fun _ s => (s.store.order 101).any fun o => o.status = .cancelled &&
      (balanceOf s.store.docs Sample.clientDiesel).litresOf draws 101 = -50) (by decide +kernel)
  obtain ⟨o, ho, htest⟩ := (Option.any_eq_true _ _).mp htest
  simp only [Bool.and_eq_true, decide_eq_true_eq] at htest
  refine ⟨log, s, o, hrun, ho, htest.1, htest.2, litres_given_back hrun ho ?_ _⟩
  rw [htest.1]
  exact List.mem_cons_self

/-- The second order draws what the first fell short of, and is rejected. -/
def Sample.rejectedAfterDrawdown : List (Act Request) :=
  opening ++ serve (.create client (order .direct)) 10 6 100 ++
    serve (.confirmInvoice fuelAdmin 100 (supply 900)) 11 3 ++
    serve (.create client (order .direct)) 12 6 101 ++ serve (.reject fuelAdmin 101 "late") 13 2

theorem litres_given_back_rejectedAfterDrawdown :
    ¬ ∀ (log : List (Event Doc Call.Reply)) (s : Sys Doc Call.Reply Refusal Answer),
      Run (machine Sample.cfg) Store.empty (fun _ => True) log s →
      ∀ id o, s.store.order id = some o → o.status ∈ closedStatuses →
        ∀ key, (balanceOf s.store.docs key).litresOf ofOrders id = 0 := by
  intro hclaim
  obtain ⟨log, s, hrun, htest⟩ := exists_run (machine Sample.cfg) Store.empty (fun _ => True)
    Sample.rejectedAfterDrawdown (fun _ s => (s.store.order 101).any fun o => o.status = .rejected &&
      (balanceOf s.store.docs Sample.clientDiesel).litresOf ofOrders 101 = -100) (by decide +kernel)
  obtain ⟨o, ho, htest⟩ := (Option.any_eq_true _ _).mp htest
  simp only [Bool.and_eq_true, decide_eq_true_eq] at htest
  have hzero := hclaim log s hrun 101 o ho (by rw [htest.1]; decide) Sample.clientDiesel
  rw [htest.2] at hzero
  norm_num at hzero

end CiroFuel
