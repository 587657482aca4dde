import CiroFuel.AccountSteps
import Mathlib.Algebra.Order.Ring.Rat
import Mathlib.Tactic.Linarith

/-!
# The platform account

Every accrual belongs to an invoice of its company: one commission at most, at
the term its transaction found in force, and one cashback at most, once the
invoice is settled. Voiding undoes the accruals of the invoice, each once. A
settlement and a voiding of one invoice conflict, because both rewrite it; so
what a snapshot shows of an invoice that is still open is all there is.
-/
namespace CiroFuel
open Snapshot

/-! ### What survives between a snapshot and a commit -/

/-- `b` is a later state of `a`. Movements stay, but for a payment's confirmation,
and an invoice that is still open has no accruals but those it had. -/
structure AccountStable (a b : Db) : Prop where
  progress : Progress a b
  keys : a.docs.keys <:+ b.docs.keys
  kept : ∀ m y, a.accountMovement m = some y → b.accountMovement m = some y ∨
    y.kind = .paymentRecorded ∧ y.state = .recorded ∧ ∃ confirmedBy at_,
      b.accountMovement m = some (y.confirmedPayment confirmedBy at_)
  open_ : ∀ i x x', a.invoice i = some x → b.invoice i = some x' → x'.state = .issued →
    ∀ m y, b.accountMovement m = some y → y.sourceInvoiceId = some i →
      a.accountMovement m = some y

theorem AccountStable.refl (s : Db) : AccountStable s s :=
  ⟨Progress.refl s, List.suffix_rfl, fun _ _ hy => Or.inl hy, fun _ _ _ _ _ _ _ _ hy _ => hy⟩

theorem AccountStable.trans {a b c : Db} (hab : AccountStable a b) (hbc : AccountStable b c) :
    AccountStable a c where
  progress := hab.progress.trans hbc.progress
  keys := hab.keys.trans hbc.keys
  kept := by
    intro m y hy
    rcases hab.kept m y hy with hb | ⟨hkind, hstate, confirmedBy, at_, hb⟩
    · exact hbc.kept m y hb
    · rcases hbc.kept m _ hb with hc | ⟨-, hstate', -⟩
      · exact Or.inr ⟨hkind, hstate, confirmedBy, at_, hc⟩
      · cases hstate'
  open_ := by
    intro i x x'' hx hx'' hissued m y hy hsource
    obtain ⟨x', hx', -⟩ := hab.progress.invoices i x hx
    obtain ⟨z, hz, hevolves⟩ := hbc.progress.invoices i x' hx'
    cases hz.symm.trans hx''
    have hopen : x'.state = .issued := by
      by_contra hclosed
      exact hclosed ((hevolves.closed hclosed).symm.trans hissued)
    have hb := hbc.open_ i x' x'' hx' hx'' hissued m y hy hsource
    exact hab.open_ i x x' hx hx' hopen m y hb hsource

/-! ### The invariant -/

structure AccountLedger (s : Db) : Prop where
  accrual : ∀ m y i, s.accountMovement m = some y → y.sourceInvoiceId = some i →
    y.state = .confirmed ∧ 0 < y.amount ∧ ∃ x, s.invoice i = some x ∧
      x.fuelCompanyId = y.companyId ∧ (y.kind = .commissionCharged ∨
        y.kind = .cashbackCredited ∧ y.reversalOfId = none ∧ x.state = .settled)
  payment : ∀ m y, s.accountMovement m = some y → y.sourceInvoiceId = none →
    y.reversalOfId = none ∧ 0 < y.amount ∧ (y.kind = .paymentRecorded ∨ y.kind = .cashbackPaidOut)
  undone : ∀ r z m, s.accountMovement r = some z → z.reversalOfId = some m →
    ∃ y i x, s.accountMovement m = some y ∧ y.OriginalOf i ∧ z = y.reversal m ∧
      s.invoice i = some x ∧ x.state = .void
  once : ∀ m m' y y' i, s.accountMovement m = some y → s.accountMovement m' = some y' →
    y.OriginalOf i → y'.OriginalOf i → y.kind = y'.kind → m = m'
  undoneOnce : ∀ r r' z z' m, s.accountMovement r = some z → s.accountMovement r' = some z' →
    z.reversalOfId = some m → z'.reversalOfId = some m → r = r'
  void : ∀ m y i x, s.accountMovement m = some y → y.OriginalOf i → s.invoice i = some x →
    x.state = .void → ∃ r z, s.accountMovement r = some z ∧ z.reversalOfId = some m

theorem accountLedger_empty : AccountLedger Store.empty where
  accrual := fun _ _ _ hy => by cases hy
  payment := fun _ _ hy => by cases hy
  undone := fun _ _ _ hz => by cases hz
  once := fun _ _ _ _ _ hy => by cases hy
  undoneOnce := fun _ _ _ _ _ hz => by cases hz
  void := fun _ _ _ _ hy => by cases hy

/-- An accrual is never confirmed again. -/
theorem AccountStable.accrual {a b : Db} (h : AccountStable a b) (ha : AccountLedger a) {m i : Id}
    {y : AccountMovement} (hy : a.accountMovement m = some y) (hsource : y.sourceInvoiceId = some i) :
    b.accountMovement m = some y := by
  rcases h.kept m y hy with hb | ⟨-, hrecorded, -⟩
  · exact hb
  · exact absurd ((ha.accrual m y i hy hsource).1.symm.trans hrecorded) (by simp)

/-! ### Commits -/

section commit
variable {cfg : Settings} {A : Arithmetic} {since : Db} {ev : Event Doc Call.Reply}

/-- What the body added to its snapshot, the commit adds to the store. -/
theorem Records.commit (hev : ev.Sound (machine cfg)) (holder : Store.Older ev.base ev.before)
    {created : List (Id × AccountMovement)} (h : Records ev.base.docs ev.view.docs created) :
    Records ev.before.docs ev.after.docs created := by
  have changed : ∀ e ∈ created, ev.before.accountMovement e.1 = none ∧
      ev.after.accountMovement e.1 = some e.2 := by
    intro e he
    have hne : ev.view.find (Key.accountMovement e.1) ≠ ev.base.find (Key.accountMovement e.1) := by
      intro heq
      exact absurd ((h.stored e he).symm.trans (heq.trans (h.fresh e he))) (by simp)
    obtain ⟨hb, ha⟩ := hev.written holder hne
    exact ⟨hb.symm.trans (h.fresh e he), ha.trans (h.stored e he)⟩
  exact ⟨h.distinct, fun e he => (changed e he).1, fun e he => (changed e he).2,
    fun m hm => hev.unwritten holder (h.others m hm)⟩

theorem AccountStep.commit (hev : ev.Sound (machine cfg)) (hstable : AccountStable ev.base ev.before)
    (hledger : AccountLedger ev.base) {c : Call} {created : List (Id × AccountMovement)}
    (h : AccountStep cfg.arithmetic ev.base.docs ev.base.docs ev.view.docs c created) :
    AccountStep cfg.arithmetic ev.base.docs ev.before.docs ev.after.docs c created := by
  have holder := hstable.progress.older
  have changed : ∀ i, ev.view.find (Key.invoice i) ≠ ev.base.find (Key.invoice i) →
      ev.before.find (Key.invoice i) = ev.base.find (Key.invoice i) ∧
        ev.after.find (Key.invoice i) = ev.view.find (Key.invoice i) := fun i hne =>
    ⟨(hev.written holder hne).1.symm, (hev.written holder hne).2⟩
  cases h with
  | charge hnone hx hissued hterm hprice hpos =>
      obtain ⟨hb, ha⟩ := changed _ fun heq => absurd (hx.symm.trans (heq.trans hnone)) (by simp)
      exact .charge (hb.trans hnone) (ha.trans hx) hissued hterm hprice hpos
  | credit hsettles hx hissued hx' hsettled hpos =>
      rename_i i x x' m programme
      obtain ⟨hb, ha⟩ := changed i fun heq => by
        have hsame := Option.some.inj (hx'.symm.trans (heq.trans hx))
        rw [hsame, hissued] at hsettled
        cases hsettled
      exact .credit hsettles (hb.trans hx) hissued (ha.trans hx') hsettled hpos
  | reverse hreverses hbilled =>
      refine .reverse ⟨fun e he => ?_, ?_, hreverses.once⟩ hbilled
      · obtain ⟨i, x, m, y, hx, hissued, hx', hy, horiginal, heq⟩ := hreverses.each e he
        obtain ⟨hb, ha⟩ := changed i fun hsame => Invoice.voided_ne hissued
          (Option.some.inj (hx'.symm.trans (hsame.trans hx)))
        exact ⟨i, x, m, y, hb.trans hx, hissued, ha.trans hx',
          hstable.accrual hledger hy horiginal.1, horiginal, heq⟩
      · intro i x m y hx hissued hx' hy horiginal hconfirmed hunreversed
        -- The invoice changed, so the snapshot of it was current.
        have hbase : ev.base.find (Key.invoice i) = some x ∧
            ev.view.find (Key.invoice i) = some x.voided := by
          rcases hev.cases holder (Key.invoice i) with ⟨hb, ha⟩ | ⟨-, ha, -⟩
          · exact ⟨hb.trans hx, ha.symm.trans hx'⟩
          · exact absurd (Option.some.inj (hx'.symm.trans (ha.trans hx))) (Invoice.voided_ne hissued)
        have hy' := hstable.open_ i x x hbase.1 hx hissued m y hy horiginal.1
        refine hreverses.all i x m y hbase.1 hissued hbase.2 hy' horiginal hconfirmed ?_
        intro r z hz
        rcases hstable.kept r z hz with hb | ⟨-, -, confirmedBy, at_, hb⟩
        · exact hunreversed r z hb
        · exact hunreversed r (z.confirmedPayment confirmedBy at_) hb
  | recordPayment => exact .recordPayment
  | payOut hle => exact .payOut hle
  | nothing hkeeps => exact .nothing hkeeps

/-- What a commit adds to the account. A confirmed payment apart, every movement
was there before or is one of those added, and no accrual is lost. -/
structure AccountCommit (A : Arithmetic) (ev : Event Doc Call.Reply)
    (created : List (Id × AccountMovement)) : Prop where
  step : AccountStep A ev.base.docs ev.before.docs ev.after.docs ev.label created
  fresh : ∀ e ∈ created, ev.before.accountMovement e.1 = none
  stored : ∀ e ∈ created, ev.after.accountMovement e.1 = some e.2
  cases : ∀ m y, ev.after.accountMovement m = some y → ev.before.accountMovement m = some y ∨
    (m, y) ∈ created ∨ ∃ y₀ confirmedBy at_, ev.before.accountMovement m = some y₀ ∧
      y₀.kind = .paymentRecorded ∧ y₀.state = .recorded ∧ y = y₀.confirmedPayment confirmedBy at_
  kept : ∀ m y, ev.before.accountMovement m = some y → ev.after.accountMovement m = some y ∨
    y.kind = .paymentRecorded ∧ y.state = .recorded ∧ ∃ confirmedBy at_,
      ev.after.accountMovement m = some (y.confirmedPayment confirmedBy at_)

theorem account_cases (hev : ev.Sound (machine cfg)) (hstable : AccountStable ev.base ev.before)
    (hledger : AccountLedger ev.base) : ∃ created, AccountCommit cfg.arithmetic ev created := by
  have holder := hstable.progress.older
  rcases Call.body_account ev.base.unique hev.ran with ⟨created, hrecords, hstep⟩ |
    ⟨m, confirmedBy, y, at_, hlabel, hy, hkind, hstate, hw, hothers⟩
  · have hrecords' := hrecords.commit hev holder
    exact ⟨created, hstep.commit hev hstable hledger, hrecords'.fresh, hrecords'.stored,
      fun m y hy => (hrecords'.cases hy).imp_right Or.inl, fun m y hy => Or.inl (hrecords'.kept hy)⟩
  · have hne : ev.view.find (Key.accountMovement m) ≠ ev.base.find (Key.accountMovement m) := by
      intro heq
      have hsame := Option.some.inj (hw.symm.trans (heq.trans hy))
      have hconfirmed := congrArg AccountMovement.state hsame
      rw [hstate] at hconfirmed
      cases hconfirmed
    obtain ⟨hb, ha⟩ := hev.written holder hne
    have hbefore : ev.before.accountMovement m = some y := hb.symm.trans hy
    have hafter : ev.after.accountMovement m = some (y.confirmedPayment confirmedBy at_) := ha.trans hw
    have hsame : ∀ m', m' ≠ m → ev.after.accountMovement m' = ev.before.accountMovement m' :=
      fun m' hm' => hev.unwritten holder (hothers m' hm')
    refine ⟨[], ?_, by simp, by simp, fun m' y' hy' => ?_, fun m' y' hy' => ?_⟩
    · rw [hlabel]
      exact .nothing (by simp)
    · by_cases hm : m' = m
      · subst hm
        cases hy'.symm.trans hafter
        exact Or.inr (Or.inr ⟨y, confirmedBy, at_, hbefore, hkind, hstate, rfl⟩)
      · exact Or.inl ((hsame m' hm).symm.trans hy')
    · by_cases hm : m' = m
      · subst hm
        cases hy'.symm.trans hbefore
        exact Or.inr ⟨hkind, hstate, confirmedBy, at_, hafter⟩
      · exact Or.inl ((hsame m' hm).trans hy')

/-- What a commit makes of an invoice that was there. -/
theorem invoice_kept (hev : ev.Sound (machine cfg)) (holder : Store.Older ev.base ev.before) {i : Id}
    {x : Invoice} (hx : ev.before.invoice i = some x) :
    ∃ x', ev.after.invoice i = some x' ∧ x'.fuelCompanyId = x.fuelCompanyId ∧
      (x' = x ∨ x.state = .issued ∧ (x'.state = .settled ∨
        x' = x.voided ∧ ∃ order actor reason, ev.label = .cancel order actor reason ∧
          x.orderId = order.id)) := by
  rcases invoice_cases hev holder i with heq | ⟨y, x', -, hb, ha, hstep⟩ |
    ⟨_, _, _, _, _, _, _, hnone, -⟩
  · exact ⟨x, heq.trans hx, rfl, Or.inl rfl⟩
  · cases hb.symm.trans hx
    refine ⟨x', ha, ?_⟩
    generalize ev.label = c at hstep
    cases hstep with
    | settle horder hissued => exact ⟨rfl, Or.inr ⟨hissued, Or.inl rfl⟩⟩
    | settleInvoice hissued => exact ⟨rfl, Or.inr ⟨hissued, Or.inl rfl⟩⟩
    | cancel horder hissued => exact ⟨rfl, Or.inr ⟨hissued, Or.inr ⟨rfl, _, _, _, rfl, horder⟩⟩⟩
  · exact absurd (hnone.symm.trans hx) (by simp)

/-- A stored accrual was there before, or has just been added. -/
theorem AccountCommit.accrual_cases {created : List (Id × AccountMovement)}
    (h : AccountCommit A ev created) (hbefore : AccountLedger ev.before) {m i : Id}
    {y : AccountMovement} (hy : ev.after.accountMovement m = some y)
    (hsource : y.sourceInvoiceId = some i) :
    ev.before.accountMovement m = some y ∨ (m, y) ∈ created := by
  rcases h.cases m y hy with hold | hnew | ⟨y₀, confirmedBy, at_, hy₀, -, hrecorded, rfl⟩
  · exact Or.inl hold
  · exact Or.inr hnew
  · exact absurd ((hbefore.accrual m y₀ i hy₀ hsource).1.symm.trans hrecorded) (by simp)

/-- So does its reversal. -/
theorem AccountCommit.reversal_cases {created : List (Id × AccountMovement)}
    (h : AccountCommit A ev created) (hbefore : AccountLedger ev.before) {r m : Id}
    {z : AccountMovement} (hz : ev.after.accountMovement r = some z)
    (hreversal : z.reversalOfId = some m) :
    ev.before.accountMovement r = some z ∨ (r, z) ∈ created := by
  rcases h.cases r z hz with hold | hnew | ⟨y₀, confirmedBy, at_, hy₀, -, hrecorded, rfl⟩
  · exact Or.inl hold
  · exact Or.inr hnew
  · obtain ⟨y, i, x, -, -, rfl, -⟩ := hbefore.undone r y₀ m hy₀ hreversal
    cases hrecorded

theorem AccountCommit.accrual_kept {created : List (Id × AccountMovement)}
    (h : AccountCommit A ev created) (hbefore : AccountLedger ev.before) {m i : Id}
    {y : AccountMovement} (hy : ev.before.accountMovement m = some y)
    (hsource : y.sourceInvoiceId = some i) : ev.after.accountMovement m = some y := by
  rcases h.kept m y hy with hkept | ⟨-, hrecorded, -⟩
  · exact hkept
  · exact absurd ((hbefore.accrual m y i hy hsource).1.symm.trans hrecorded) (by simp)

/-- A reversal that is added undoes an accrual of an invoice voided just now. -/
theorem AccountStep.adds_reversal {found d d' : Docs Doc} {c : Call}
    {created : List (Id × AccountMovement)} (h : AccountStep A found d d' c created) {r m : Id}
    {z : AccountMovement} (hz : (r, z) ∈ created) (hreversal : z.reversalOfId = some m) :
    ∃ i x y, d.lookup (Key.invoice i) = some x ∧ x.state = .issued ∧
      d'.lookup (Key.invoice i) = some x.voided ∧ d.lookup (Key.accountMovement m) = some y ∧
      y.OriginalOf i ∧ z = y.reversal m := by
  cases h with
  | reverse hreverses =>
      obtain ⟨i, x, m', y, hx, hissued, hx', hy, horiginal, heq⟩ := hreverses.each _ hz
      have hm : m' = m := by
        have hsome := (congrArg AccountMovement.reversalOfId heq).symm.trans hreversal
        exact Option.some.inj hsome
      subst hm
      exact ⟨i, x, y, hx, hissued, hx', hy, horiginal, heq⟩
  | nothing => cases hz
  | _ =>
      cases List.mem_singleton.mp hz
      cases hreversal

/-- An original that is added is for an invoice issued or settled just now, and is
the only movement added. -/
theorem AccountStep.adds_original {found d d' : Docs Doc} {c : Call}
    {created : List (Id × AccountMovement)} (h : AccountStep A found d d' c created) {m i : Id}
    {y : AccountMovement} (hy : (m, y) ∈ created) (horiginal : y.OriginalOf i) :
    created = [(m, y)] ∧ ∃ x, d'.lookup (Key.invoice i) = some x ∧ x.state ≠ .void ∧
      (d.lookup (Key.invoice i) = none ∧ y.kind = .commissionCharged ∨
        ∃ x₀, d.lookup (Key.invoice i) = some x₀ ∧ x₀.state = .issued ∧ x.state = .settled ∧
          y.kind = .cashbackCredited) := by
  cases h with
  | charge hnone hx hissued =>
      cases List.mem_singleton.mp hy
      cases horiginal.1
      exact ⟨rfl, _, hx, by simp [hissued], Or.inl ⟨hnone, rfl⟩⟩
  | credit hsettles hx hissued hx' hsettled =>
      cases List.mem_singleton.mp hy
      cases horiginal.1
      exact ⟨rfl, _, hx', by simp [hsettled], Or.inr ⟨_, hx, hissued, hsettled, rfl⟩⟩
  | reverse hreverses =>
      obtain ⟨-, -, m', y', -, -, -, -, -, rfl⟩ := hreverses.each _ hy
      cases horiginal.2
  | nothing => cases hy
  | _ =>
      cases List.mem_singleton.mp hy
      cases horiginal.1

theorem commit_accrual (hev : ev.Sound (machine cfg)) (holder : Store.Older ev.base ev.before)
    {created : List (Id × AccountMovement)} (hcommit : AccountCommit A ev created)
    (hbefore : AccountLedger ev.before) {m i : Id} {y : AccountMovement}
    (hy : ev.after.accountMovement m = some y) (hsource : y.sourceInvoiceId = some i) :
    y.state = .confirmed ∧ 0 < y.amount ∧ ∃ x, ev.after.invoice i = some x ∧
      x.fuelCompanyId = y.companyId ∧ (y.kind = .commissionCharged ∨
        y.kind = .cashbackCredited ∧ y.reversalOfId = none ∧ x.state = .settled) := by
  rcases hcommit.accrual_cases hbefore hy hsource with hold | hnew
  · obtain ⟨hstate, hpos, x, hx, hcompany, hkind⟩ := hbefore.accrual m y i hold hsource
    obtain ⟨x', hx', hcompany', hchange⟩ := invoice_kept hev holder hx
    refine ⟨hstate, hpos, x', hx', hcompany'.trans hcompany, hkind.imp_right fun hcashback => ?_⟩
    refine ⟨hcashback.1, hcashback.2.1, ?_⟩
    rcases hchange with rfl | ⟨hissued, -⟩
    · exact hcashback.2.2
    · exact absurd (hissued.symm.trans hcashback.2.2) (by simp)
  · have hstep := hcommit.step
    generalize ev.label = c at hstep
    cases hstep with
    | charge hnone hx hissued hterm hprice hpos =>
        cases List.mem_singleton.mp hnew
        cases hsource
        exact ⟨rfl, hpos, _, hx, rfl, Or.inl rfl⟩
    | credit hsettles hx hissued hx' hsettled hpos =>
        cases List.mem_singleton.mp hnew
        cases hsource
        obtain ⟨x'', hx'', hcompany, -⟩ := invoice_kept hev holder hx
        cases hx''.symm.trans hx'
        exact ⟨rfl, hpos, _, hx', hcompany, Or.inr ⟨rfl, rfl, hsettled⟩⟩
    | reverse hreverses =>
        obtain ⟨j, x, m', y', hx, hissued, hx', hy', horiginal, heq⟩ := hreverses.each _ hnew
        dsimp only at heq
        subst heq
        cases horiginal.1.symm.trans hsource
        obtain ⟨-, hpos, x₁, hx₁, hcompany, hkind⟩ := hbefore.accrual m' y' i hy' horiginal.1
        cases hx₁.symm.trans hx
        refine ⟨rfl, hpos, _, hx', hcompany, Or.inl (hkind.resolve_right fun hcashback => ?_)⟩
        exact absurd (hissued.symm.trans hcashback.2.2) (by simp)
    | nothing => cases hnew
    | _ =>
        cases List.mem_singleton.mp hnew
        cases hsource

theorem commit_payment (hholds : (evolution cfg since).Holds ev)
    {created : List (Id × AccountMovement)} (hcommit : AccountCommit A ev created)
    (hbefore : AccountLedger ev.before) {m : Id} {y : AccountMovement}
    (hy : ev.after.accountMovement m = some y) (hsource : y.sourceInvoiceId = none) :
    y.reversalOfId = none ∧ 0 < y.amount ∧
      (y.kind = .paymentRecorded ∨ y.kind = .cashbackPaidOut) := by
  rcases hcommit.cases m y hy with hold | hnew | ⟨y₀, _, _, hy₀, hkind, -, rfl⟩
  · exact hbefore.payment m y hold hsource
  · have hstep := hcommit.step
    have hchecked := hholds.pre.2
    generalize ev.label = c at hstep hchecked
    cases hstep with
    | reverse hreverses =>
        obtain ⟨j, -, m', y', -, -, -, -, horiginal, heq⟩ := hreverses.each _ hnew
        dsimp only at heq
        subst heq
        exact absurd (horiginal.1.symm.trans hsource) (by simp)
    | recordPayment =>
        cases List.mem_singleton.mp hnew
        have hpos := lt_of_lt_of_le (show (0 : ℚ) < 1 / 100 by norm_num) hchecked
        exact ⟨rfl, hpos, Or.inl rfl⟩
    | payOut =>
        cases List.mem_singleton.mp hnew
        have hpos := lt_of_lt_of_le (show (0 : ℚ) < 1 / 100 by norm_num) hchecked
        exact ⟨rfl, hpos, Or.inr rfl⟩
    | nothing => cases hnew
    | _ =>
        cases List.mem_singleton.mp hnew
        cases hsource
  · obtain ⟨hnone, hpos, -⟩ := hbefore.payment m y₀ hy₀ hsource
    exact ⟨hnone, hpos, Or.inl hkind⟩

theorem commit_undone (hev : ev.Sound (machine cfg)) (holder : Store.Older ev.base ev.before)
    {created : List (Id × AccountMovement)} (hcommit : AccountCommit A ev created)
    (hbefore : AccountLedger ev.before) {r m : Id} {z : AccountMovement}
    (hz : ev.after.accountMovement r = some z) (hreversal : z.reversalOfId = some m) :
    ∃ y i x, ev.after.accountMovement m = some y ∧ y.OriginalOf i ∧ z = y.reversal m ∧
      ev.after.invoice i = some x ∧ x.state = .void := by
  rcases hcommit.reversal_cases hbefore hz hreversal with hold | hnew
  · obtain ⟨y, i, x, hy, horiginal, heq, hx, hvoid⟩ := hbefore.undone r z m hold hreversal
    obtain ⟨x', hx', -, hchange⟩ := invoice_kept hev holder hx
    refine ⟨y, i, x', hcommit.accrual_kept hbefore hy horiginal.1, horiginal, heq, hx', ?_⟩
    rcases hchange with rfl | ⟨hissued, -⟩
    · exact hvoid
    · exact absurd (hissued.symm.trans hvoid) (by simp)
  · obtain ⟨i, x, y, -, -, hx', hy, horiginal, heq⟩ := hcommit.step.adds_reversal hnew hreversal
    exact ⟨y, i, _, hcommit.accrual_kept hbefore hy horiginal.1, horiginal, heq, hx', rfl⟩

/-- An original that is added is alone, and no older one of its kind is for its invoice. -/
theorem commit_once {created : List (Id × AccountMovement)} (hcommit : AccountCommit A ev created)
    (hbefore : AccountLedger ev.before) {m m' i : Id} {y y' : AccountMovement}
    (hy : ev.after.accountMovement m = some y) (hy' : ev.after.accountMovement m' = some y')
    (horiginal : y.OriginalOf i) (horiginal' : y'.OriginalOf i) (hkind : y.kind = y'.kind) :
    m = m' := by
  have added : ∀ {m m' y y'}, ev.before.accountMovement m = some y → (m', y') ∈ created →
      y.OriginalOf i → y'.OriginalOf i → y.kind = y'.kind → False := by
    intro m m' y y' hold hnew horiginal horiginal' hkind
    obtain ⟨-, -, x₀, hx₀, -, hcase⟩ := hbefore.accrual m y i hold horiginal.1
    obtain ⟨-, x, -, -, ⟨hnone, -⟩ | ⟨x₁, hx₁, hissued, -, hcashback⟩⟩ :=
      hcommit.step.adds_original hnew horiginal'
    · exact absurd (hx₀.symm.trans hnone) (by simp)
    · cases hx₀.symm.trans hx₁
      rcases hcase with hcommission | ⟨-, -, hsettled⟩
      · exact absurd (hcommission.symm.trans (hkind.trans hcashback)) (by simp)
      · exact absurd (hissued.symm.trans hsettled) (by simp)
  rcases hcommit.accrual_cases hbefore hy horiginal.1 with hold | hnew <;>
    rcases hcommit.accrual_cases hbefore hy' horiginal'.1 with hold' | hnew'
  · exact hbefore.once m m' y y' i hold hold' horiginal horiginal' hkind
  · exact (added hold hnew' horiginal horiginal' hkind).elim
  · exact (added hold' hnew horiginal' horiginal hkind.symm).elim
  · obtain ⟨hall, -⟩ := hcommit.step.adds_original hnew horiginal
    rw [hall] at hnew'
    exact (congrArg Prod.fst (List.mem_singleton.mp hnew')).symm

/-- An accrual undone just now was for an open invoice, so not undone before. -/
theorem commit_undoneOnce {created : List (Id × AccountMovement)}
    (hcommit : AccountCommit A ev created) (hbefore : AccountLedger ev.before) {r r' m : Id}
    {z z' : AccountMovement} (hz : ev.after.accountMovement r = some z)
    (hz' : ev.after.accountMovement r' = some z') (hreversal : z.reversalOfId = some m)
    (hreversal' : z'.reversalOfId = some m) : r = r' := by
  have added : ∀ {r r' z z'}, ev.before.accountMovement r = some z → (r', z') ∈ created →
      z.reversalOfId = some m → z'.reversalOfId = some m → False := by
    intro r r' z z' hold hnew hreversal hreversal'
    obtain ⟨y, i, x, hy, horiginal, -, hx, hvoid⟩ := hbefore.undone r z m hold hreversal
    obtain ⟨j, x', y', hx', hissued, -, hy', horiginal', -⟩ :=
      hcommit.step.adds_reversal hnew hreversal'
    cases hy.symm.trans hy'
    cases horiginal.1.symm.trans horiginal'.1
    cases hx.symm.trans hx'
    exact absurd (hissued.symm.trans hvoid) (by simp)
  rcases hcommit.reversal_cases hbefore hz hreversal with hold | hnew <;>
    rcases hcommit.reversal_cases hbefore hz' hreversal' with hold' | hnew'
  · exact hbefore.undoneOnce r r' z z' m hold hold' hreversal hreversal'
  · exact (added hold hnew' hreversal hreversal').elim
  · exact (added hold' hnew hreversal' hreversal).elim
  · have hstep := hcommit.step
    generalize ev.label = c at hstep
    cases hstep with
    | reverse hreverses =>
        have heq := List.inj_on_of_nodup_map hreverses.once hnew hnew'
          (hreversal.trans hreversal'.symm)
        exact congrArg Prod.fst heq
    | nothing => cases hnew
    | _ =>
        cases List.mem_singleton.mp hnew
        cases hreversal

/-- The cancellation that voids an invoice undoes its accruals. -/
theorem commit_void (hev : ev.Sound (machine cfg)) (holder : Store.Older ev.base ev.before)
    {created : List (Id × AccountMovement)} (hcommit : AccountCommit A ev created)
    (hbefore : AccountLedger ev.before) {m i : Id} {y : AccountMovement} {x : Invoice}
    (hy : ev.after.accountMovement m = some y) (horiginal : y.OriginalOf i)
    (hx : ev.after.invoice i = some x) (hvoid : x.state = .void) :
    ∃ r z, ev.after.accountMovement r = some z ∧ z.reversalOfId = some m := by
  rcases hcommit.accrual_cases hbefore hy horiginal.1 with hold | hnew
  · obtain ⟨hconfirmed, -, x₀, hx₀, -⟩ := hbefore.accrual m y i hold horiginal.1
    obtain ⟨x', hx', -, hchange⟩ := invoice_kept hev holder hx₀
    cases hx'.symm.trans hx
    rcases hchange with rfl | ⟨hissued, hsettled | ⟨rfl, order, actor, reason, hlabel, -⟩⟩
    · obtain ⟨r, z, hz, hreversal⟩ := hbefore.void m y i x hold horiginal hx₀ hvoid
      obtain ⟨y', i', -, -, horiginal', rfl, -⟩ := hbefore.undone r z m hz hreversal
      exact ⟨r, _, hcommit.accrual_kept hbefore hz horiginal'.1, hreversal⟩
    · exact absurd (hsettled.symm.trans hvoid) (by simp)
    · have hstep := hcommit.step
      rw [hlabel] at hstep
      cases hstep with
      | reverse hreverses =>
          obtain ⟨r, hr⟩ := hreverses.all i x₀ m y hx₀ hissued hx hold horiginal hconfirmed
            fun r z hz hreversal => by
              obtain ⟨y', i', x', hy', horiginal', -, hx', hvoid'⟩ := hbefore.undone r z m hz hreversal
              cases hold.symm.trans hy'
              cases horiginal.1.symm.trans horiginal'.1
              cases hx₀.symm.trans hx'
              exact absurd (hissued.symm.trans hvoid') (by simp)
          exact ⟨r, _, hcommit.stored _ hr, rfl⟩
      | credit hsettles => cases hsettles
      | nothing hkeeps => exact absurd rfl (hkeeps _ _ _)
  · obtain ⟨-, x', hx', hopen, -⟩ := hcommit.step.adds_original hnew horiginal
    cases hx'.symm.trans hx
    exact absurd hvoid hopen

theorem commit_accountLedger (hev : ev.Sound (machine cfg)) (hholds : (evolution cfg since).Holds ev)
    (hstable : AccountStable ev.base ev.before) (hbase : AccountLedger ev.base)
    (hbefore : AccountLedger ev.before) : AccountLedger ev.after := by
  obtain ⟨created, hcommit⟩ := account_cases hev hstable hbase
  have holder := hstable.progress.older
  exact
    { accrual := fun _ _ _ hy hsource => commit_accrual hev holder hcommit hbefore hy hsource
      payment := fun _ _ hy hsource => commit_payment hholds hcommit hbefore hy hsource
      undone := fun _ _ _ hz hreversal => commit_undone hev holder hcommit hbefore hz hreversal
      once := fun _ _ _ _ _ hy hy' horiginal horiginal' hkind =>
        commit_once hcommit hbefore hy hy' horiginal horiginal' hkind
      undoneOnce := fun _ _ _ _ _ hz hz' hreversal hreversal' =>
        commit_undoneOnce hcommit hbefore hz hz' hreversal hreversal'
      void := fun _ _ _ _ hy horiginal hx hvoid =>
        commit_void hev holder hcommit hbefore hy horiginal hx hvoid }

/-- A commit adds accruals only for invoices it issues or settles. -/
theorem commit_accountStable (hev : ev.Sound (machine cfg)) (hholds : (evolution cfg since).Holds ev)
    (hstable : AccountStable ev.base ev.before) (hbase : AccountLedger ev.base)
    (hbefore : AccountLedger ev.before) : AccountStable ev.before ev.after := by
  obtain ⟨created, hcommit⟩ := account_cases hev hstable hbase
  refine ⟨hholds.before_after, Store.commit_keys hev.committed, hcommit.kept, ?_⟩
  intro i x x' hx hx' hissued m y hy hsource
  rcases hcommit.accrual_cases hbefore hy hsource with hold | hnew
  · exact hold
  · exfalso
    cases hreversal : y.reversalOfId with
    | none =>
        obtain ⟨-, z, hz, -, ⟨hnone, -⟩ | ⟨-, -, -, hsettled, -⟩⟩ :=
          hcommit.step.adds_original hnew ⟨hsource, hreversal⟩
        · exact absurd (hx.symm.trans hnone) (by simp)
        · cases hx'.symm.trans hz
          exact absurd (hissued.symm.trans hsettled) (by simp)
    | some m' =>
        obtain ⟨j, z, y', -, -, hz', -, horiginal, rfl⟩ := hcommit.step.adds_reversal hnew hreversal
        cases horiginal.1.symm.trans hsource
        cases hx'.symm.trans hz'
        cases hissued

end commit

/-- In every run the account keeps its invariant, at every snapshot and commit. -/
theorem account_run {cfg : Settings} {P : Event Doc Call.Reply → Prop}
    {log : List (Event Doc Call.Reply)} {s : Sys Doc Call.Reply Refusal Answer}
    (h : Run (machine cfg) Store.empty P log s) :
    AccountLedger s.store ∧ Run (machine cfg) Store.empty (fun ev => P ev ∧
      (evolution cfg Store.empty).Holds ev ∧ AccountLedger ev.base ∧ AccountLedger ev.before ∧
      AccountStable ev.base ev.before) log s := by
  obtain ⟨hledger, hrun⟩ := (disciplined consistent_empty h).2.strengthen AccountLedger AccountStable
    AccountStable.refl AccountStable.trans accountLedger_empty
    fun ev hev hP hbase hbefore hstable =>
      ⟨commit_accountLedger hev hP.2 hstable hbase hbefore,
        commit_accountStable hev hP.2 hstable hbase hbefore⟩
  refine ⟨hledger, hrun.weaken fun ev _ hev => ?_⟩
  exact ⟨hev.1.1, hev.1.2, hev.2.1, hev.2.2.1, hev.2.2.2.2.1⟩

end CiroFuel
