import CiroFuel.AccountLedger
import CiroFuel.Snapshot.Sums
import Mathlib.Algebra.BigOperators.Group.Finset.Piecewise
import Mathlib.Algebra.Order.Ring.Rat

/-!
# The platform account matches the invoices

The commission of a company's open invoices is what its movements come to, once what was
taken back is set against what void invoices were charged. The code adds the movements up
in doubles and rounds every sum. Its figure is therefore right as long as no addition
was rounded: a reversal takes away what was charged, but not what rounding added.
-/
namespace CiroFuel
open Snapshot

/-! ### Balances -/

/-- What a confirmed movement contributes to a company's balance. -/
def movementWeight (companyId : Id) (kind : AccountMovementKind) : (k : Key) → Doc k → ℚ
  | .accountMovement _, (y : AccountMovement) =>
      if y.companyId = companyId ∧ y.kind = kind ∧ y.state = .confirmed then
        if y.reversalOfId.isSome then -y.amount else y.amount
      else 0
  | _, _ => 0

/-- The code's balance is the rounded sum of these. -/
theorem confirmedBalance_eq (A : Arithmetic) (d : Docs Doc) (companyId : Id)
    (kind : AccountMovementKind) :
    confirmedBalance A d companyId kind = d.sum A (movementWeight companyId kind) := by
  have hsum : confirmedBalance A d companyId kind =
      A.sum (((Docs.collect pickAccountMovement d).filter fun m =>
        m.2.companyId = companyId && m.2.kind = kind && m.2.state = .confirmed).map fun m =>
          if m.2.reversalOfId.isSome then -m.2.amount else m.2.amount) := by
    rw [Arithmetic.sum, List.foldr_map]
    rfl
  rw [hsum, Docs.collect, Docs.sum_retained]
  congr 1
  funext k x
  cases k with
  | accountMovement m =>
      simp only [pickAccountMovement, movementWeight, Option.filter]
      by_cases h : x.companyId = companyId ∧ x.kind = kind ∧ x.state = .confirmed
      · simp [h]
      · simp [h, and_assoc]
  | _ => rfl

theorem movementWeight_other {companyId : Id} {kind : AccountMovementKind} {d : Docs Doc} {k : Key}
    (h : ∀ m, k ≠ Key.accountMovement m) : d.weight (movementWeight companyId kind) k = 0 := by
  unfold Docs.weight
  cases k with
  | accountMovement m => exact absurd rfl (h m)
  | _ => cases d.lookup _ <;> rfl

theorem AccountLedger.amount_pos {s : Db} (h : AccountLedger s) {m : Id} {y : AccountMovement}
    (hy : s.accountMovement m = some y) : 0 < y.amount := by
  cases hsource : y.sourceInvoiceId with
  | none => exact (h.payment m y hy hsource).2.1
  | some i => exact (h.accrual m y i hy hsource).2.1

/-- Only commission is ever taken back. -/
theorem AccountLedger.reversal_kind {s : Db} (h : AccountLedger s) {m : Id} {y : AccountMovement}
    (hy : s.accountMovement m = some y) (hreversal : y.reversalOfId ≠ none) :
    y.kind = .commissionCharged := by
  cases hsource : y.sourceInvoiceId with
  | none => exact absurd (h.payment m y hy hsource).1 hreversal
  | some i =>
      obtain ⟨-, -, x, -, -, hkind⟩ := h.accrual m y i hy hsource
      exact hkind.resolve_right fun hcashback => hreversal hcashback.2.1

/-- A movement weighs the same in a snapshot, or the snapshot does not count it. -/
theorem AccountStable.weight_cases {a b : Db} (h : AccountStable a b) (companyId : Id)
    (kind : AccountMovementKind) (k : Key) :
    a.docs.weight (movementWeight companyId kind) k =
      b.docs.weight (movementWeight companyId kind) k ∨
    a.docs.weight (movementWeight companyId kind) k = 0 ∧ ∃ m y, k = Key.accountMovement m ∧
      b.accountMovement m = some y ∧ a.accountMovement m ≠ some y := by
  cases k with
  | accountMovement m =>
      cases ha : a.docs.lookup (Key.accountMovement m) with
      | none =>
          cases hb : b.docs.lookup (Key.accountMovement m) with
          | none => exact Or.inl ((Docs.weight_none ha).trans (Docs.weight_none hb).symm)
          | some y =>
              refine Or.inr ⟨Docs.weight_none ha, m, y, rfl, hb, fun hsame => ?_⟩
              exact absurd (ha.symm.trans hsame) (by simp)
      | some y =>
          rcases h.kept m y ha with hb | ⟨-, hrecorded, confirmedBy, at_, hb⟩
          · exact Or.inl ((Docs.weight_some ha).trans (Docs.weight_some hb).symm)
          · refine Or.inr ⟨?_, m, _, rfl, hb, fun hsame => ?_⟩
            · rw [Docs.weight_some ha]
              simp [movementWeight, hrecorded]
            · have hstate := congrArg AccountMovement.state (Option.some.inj (ha.symm.trans hsame))
              cases hrecorded.symm.trans hstate
  | _ => exact Or.inl ((movementWeight_other (by simp)).trans (movementWeight_other (by simp)).symm)

/-! ### Charges of open and of void invoices -/

/-- The original commission of one invoice. -/
def chargeWeight (i : Id) : (k : Key) → Doc k → ℚ
  | .accountMovement _, (y : AccountMovement) =>
      if y.kind = .commissionCharged ∧ y.sourceInvoiceId = some i ∧ y.reversalOfId = none then
        y.amount
      else 0
  | _, _ => 0

def chargedFor (d : Docs Doc) (i : Id) : ℚ := d.total (chargeWeight i)

/-- The original commission of a company's invoices that are not void. -/
def openCharges (d : Docs Doc) (companyId : Id) : ℚ :=
  d.total fun k x =>
    match k, x with
    | .invoice i, (x : Invoice) =>
        if x.fuelCompanyId = companyId ∧ x.state ≠ .void then chargedFor d i else 0
    | _, _ => 0

/-- The charge of a void invoice. -/
def voidCharge (d : Docs Doc) (companyId : Id) : (k : Key) → Doc k → ℚ
  | .accountMovement _, (y : AccountMovement) =>
      if y.companyId = companyId ∧ y.kind = .commissionCharged ∧ y.reversalOfId = none ∧
          ((y.sourceInvoiceId.bind fun i => d.lookup (Key.invoice i)).any fun x : Invoice =>
            x.state = .void) = true then
        y.amount
      else 0
  | _, _ => 0

/-- What a reversal takes back of a company's commission. -/
def takenBack (companyId : Id) : (k : Key) → Doc k → ℚ
  | .accountMovement _, (y : AccountMovement) =>
      if y.companyId = companyId ∧ y.kind = .commissionCharged ∧ y.reversalOfId.isSome = true then
        y.amount
      else 0
  | _, _ => 0

/-- The movement that a movement undoes. -/
def undoneBy (d : Docs Doc) : Key → Key
  | .accountMovement r =>
      match d.lookup (Key.accountMovement r) with
      | some z => (z.reversalOfId.map Key.accountMovement).getD (.accountMovement r)
      | none => .accountMovement r
  | k => k

section balance
variable {s : Db} {companyId : Id}

theorem takenBack_ne_zero {d : Docs Doc} {k : Key} (h : d.weight (takenBack companyId) k ≠ 0) :
    ∃ r z m, k = Key.accountMovement r ∧ d.lookup (Key.accountMovement r) = some z ∧
      z.companyId = companyId ∧ z.kind = .commissionCharged ∧ z.reversalOfId = some m ∧
      d.weight (takenBack companyId) k = z.amount ∧ undoneBy d k = Key.accountMovement m := by
  cases k with
  | accountMovement r =>
      cases hz : d.lookup (Key.accountMovement r) with
      | none => exact absurd (Docs.weight_none hz) h
      | some z =>
          have hweight := Docs.weight_some (w := takenBack companyId) hz
          rw [hweight] at h
          dsimp only [takenBack] at h hweight
          split_ifs at h hweight with hmine
          · obtain ⟨m, hm⟩ := Option.isSome_iff_exists.mp hmine.2.2
            refine ⟨r, z, m, rfl, hz, hmine.1, hmine.2.1, hm, hweight, ?_⟩
            simp [undoneBy, hz, hm]
          · exact absurd rfl h
  | _ =>
      refine absurd ?_ h
      unfold Docs.weight
      cases d.lookup _ <;> rfl

theorem voidCharge_ne_zero {d : Docs Doc} {k : Key} (h : d.weight (voidCharge d companyId) k ≠ 0) :
    ∃ m y i x, k = Key.accountMovement m ∧ d.lookup (Key.accountMovement m) = some y ∧
      y.companyId = companyId ∧ y.kind = .commissionCharged ∧ y.OriginalOf i ∧
      d.lookup (Key.invoice i) = some x ∧ x.state = .void := by
  cases k with
  | accountMovement m =>
      cases hy : d.lookup (Key.accountMovement m) with
      | none => exact absurd (Docs.weight_none hy) h
      | some y =>
          rw [Docs.weight_some hy] at h
          dsimp only [voidCharge] at h
          split_ifs at h with hmine
          · obtain ⟨hcompany, hkind, hnone, hvoid⟩ := hmine
            obtain ⟨x, hx, hstate⟩ := (Option.any_eq_true _ _).mp hvoid
            obtain ⟨i, hi, hx⟩ := Option.bind_eq_some_iff.mp hx
            exact ⟨m, y, i, x, rfl, hy, hcompany, hkind, ⟨hi, hnone⟩, hx, by simpa using hstate⟩
          · exact absurd rfl h
  | _ =>
      refine absurd ?_ h
      unfold Docs.weight
      cases d.lookup _ <;> rfl

/-- The weight of a void invoice's charge. -/
theorem voidCharge_eq {d : Docs Doc} {m i : Id} {y : AccountMovement} {x : Invoice}
    (hy : d.lookup (Key.accountMovement m) = some y) (hcompany : y.companyId = companyId)
    (hkind : y.kind = .commissionCharged) (horiginal : y.OriginalOf i)
    (hx : d.lookup (Key.invoice i) = some x) (hvoid : x.state = .void) :
    d.weight (voidCharge d companyId) (Key.accountMovement m) = y.amount := by
  rw [Docs.weight_some hy]
  dsimp only [voidCharge]
  rw [if_pos]
  refine ⟨hcompany, hkind, horiginal.2, ?_⟩
  rw [horiginal.1]
  simp [hx, hvoid]

/-- What is taken back is exactly what void invoices were charged. -/
theorem AccountLedger.total_takenBack (h : AccountLedger s) :
    s.docs.total (takenBack companyId) = s.docs.total (voidCharge s.docs companyId) := by
  refine Docs.total_of_matching (undoneBy s.docs) (fun k hk => ?_) (fun k k' hk hk' heq => ?_) ?_
  · obtain ⟨r, z, m, rfl, hz, hcompany, hkind, hreversal, hweight, hundone⟩ := takenBack_ne_zero hk
    obtain ⟨y, i, x, hy, horiginal, rfl, hx, hvoid⟩ := h.undone r z m hz hreversal
    rw [hweight, hundone, voidCharge_eq hy hcompany hkind horiginal hx hvoid]
    rfl
  · obtain ⟨r, z, m, rfl, hz, -, -, hreversal, -, hundone⟩ := takenBack_ne_zero hk
    obtain ⟨r', z', m', rfl, hz', -, -, hreversal', -, hundone'⟩ := takenBack_ne_zero hk'
    cases hundone.symm.trans (heq.trans hundone')
    exact congrArg Key.accountMovement (h.undoneOnce r r' z z' m hz hz' hreversal hreversal')
  · intro k hk
    obtain ⟨m, y, i, x, rfl, hy, hcompany, hkind, horiginal, hx, hvoid⟩ := voidCharge_ne_zero hk
    obtain ⟨r, z, hz, hreversal⟩ := h.void m y i x hy horiginal hx hvoid
    obtain ⟨y', i', x', hy', -, rfl, -⟩ := h.undone r z m hz hreversal
    cases hy.symm.trans hy'
    have hweight : s.docs.weight (takenBack companyId) (Key.accountMovement r) = y.amount := by
      rw [Docs.weight_some hz]
      exact if_pos ⟨hcompany, hkind, rfl⟩
    refine ⟨Key.accountMovement r, ?_, ?_⟩
    · rw [hweight]
      exact ne_of_gt (h.accrual m y i hy horiginal.1).2.1
    · have hlookup : s.docs.lookup (Key.accountMovement r) = some (y.reversal m) := hz
      simp [undoneBy, hlookup, AccountMovement.reversal]

/-- What a movement adds to the open charges of a company, through an invoice. -/
def openCharge (companyId : Id) : (k : Key) → Doc k → (k' : Key) → Doc k' → ℚ
  | .invoice i, (x : Invoice), k', y =>
      if x.fuelCompanyId = companyId ∧ x.state ≠ .void then chargeWeight i k' y else 0
  | _, _, _, _ => 0

theorem openCharges_eq (d : Docs Doc) (companyId : Id) :
    openCharges d companyId = d.total fun k' y => d.total fun k x => openCharge companyId k x k' y := by
  rw [← Docs.total_comm]
  refine Docs.total_congr_docs fun k x _ => ?_
  have hzero : d.total (fun (k' : Key) (_ : Doc k') => (0 : ℚ)) = 0 := by
    simp [Docs.total]
  cases k with
  | invoice i =>
      by_cases h : x.fuelCompanyId = companyId ∧ x.state ≠ .void
      · exact (if_pos h).trans (Docs.total_congr_docs fun k' y _ => (if_pos h).symm)
      · refine (if_neg h).trans (hzero.symm.trans ?_)
        exact Docs.total_congr_docs fun k' y _ => (if_neg h).symm
  | _ => exact hzero.symm

/-- A movement adds to the open charges through its own invoice alone. -/
theorem openCharge_total {d : Docs Doc} {m : Id} {y : AccountMovement} {i : Id} {x : Invoice}
    (hsource : y.sourceInvoiceId = some i) (hx : d.lookup (Key.invoice i) = some x) :
    (d.total fun k x => openCharge companyId k x (.accountMovement m) y) =
      openCharge companyId (.invoice i) x (.accountMovement m) y := by
  refine Docs.total_single hx fun k x' hk => ?_
  cases k with
  | invoice j =>
      have hne : i ≠ j := fun hij => hk (congrArg Key.invoice hij.symm)
      simp [openCharge, chargeWeight, hsource, hne]
  | _ => rfl

theorem openCharge_none {d : Docs Doc} {m : Id} {y : AccountMovement}
    (hsource : y.sourceInvoiceId = none) :
    (d.total fun k x => openCharge companyId k x (.accountMovement m) y) = 0 := by
  have hzero : ∀ k x, openCharge companyId k x (.accountMovement m) y = 0 := by
    intro k x
    cases k with
    | invoice j => simp [openCharge, chargeWeight, hsource]
    | _ => rfl
  simp [Docs.total, hzero]

/-- Open and void charges are what a movement contributes, and what it takes back. -/
theorem AccountLedger.movement_split (h : AccountLedger s) {m : Id} {y : AccountMovement}
    (hy : s.accountMovement m = some y) :
    (s.docs.total fun k x => openCharge companyId k x (.accountMovement m) y) +
        voidCharge s.docs companyId (.accountMovement m) y =
      movementWeight companyId .commissionCharged (.accountMovement m) y +
        takenBack companyId (.accountMovement m) y := by
  cases hsource : y.sourceInvoiceId with
  | none =>
      obtain ⟨-, -, hkind⟩ := h.payment m y hy hsource
      have hother : y.kind ≠ .commissionCharged := by rcases hkind with hkind | hkind <;> simp [hkind]
      rw [openCharge_none hsource]
      simp [voidCharge, movementWeight, takenBack, hother]
  | some i =>
      obtain ⟨hconfirmed, -, x, hx, hcompany, -⟩ := h.accrual m y i hy hsource
      have hlookup : s.docs.lookup (Key.invoice i) = some x := hx
      rw [openCharge_total hsource hlookup]
      by_cases hmine : y.companyId = companyId ∧ y.kind = .commissionCharged
      · cases hreversal : y.reversalOfId with
        | none =>
            by_cases hvoid : x.state = .void
            · simp [openCharge, voidCharge, movementWeight, takenBack, hmine, hreversal, hsource,
                hlookup, hvoid, hconfirmed]
            · simp [openCharge, chargeWeight, voidCharge, movementWeight, takenBack, hmine, hreversal,
                hsource, hlookup, hvoid, hconfirmed, hcompany]
        | some m' =>
            simp [openCharge, chargeWeight, voidCharge, movementWeight, takenBack, hmine, hreversal,
              hconfirmed]
      · have hopen : openCharge companyId (.invoice i) x (.accountMovement m) y = 0 := by
          rw [openCharge]
          split_ifs with hinvoice
          · refine if_neg fun hcharge => hmine ⟨hcompany.symm.trans hinvoice.1, hcharge.1⟩
          · rfl
        have hnot : ∀ p : Prop, ¬ (y.companyId = companyId ∧ y.kind = .commissionCharged ∧ p) :=
          fun p hp => hmine ⟨hp.1, hp.2.1⟩
        rw [hopen, voidCharge, movementWeight, takenBack, if_neg (hnot _), if_neg (hnot _),
          if_neg (hnot _)]

/-- A company's confirmed commission comes to that of its invoices that are not void. -/
theorem AccountLedger.balance (h : AccountLedger s) :
    s.docs.total (movementWeight companyId .commissionCharged) = openCharges s.docs companyId := by
  have hsplit : openCharges s.docs companyId + s.docs.total (voidCharge s.docs companyId) =
      s.docs.total (movementWeight companyId .commissionCharged) +
        s.docs.total (takenBack companyId) := by
    rw [openCharges_eq, ← Docs.total_add, ← Docs.total_add]
    refine Docs.total_congr_docs fun k y hy => ?_
    cases k with
    | accountMovement m => exact h.movement_split hy
    | _ =>
        have hzero : ∀ k x, openCharge companyId k x _ y = 0 := by
          intro k x
          cases k with
          | invoice j =>
              dsimp only [openCharge]
              split_ifs <;> rfl
          | _ => rfl
        simp [Docs.total, hzero, voidCharge, movementWeight, takenBack]
  rw [h.total_takenBack] at hsplit
  exact (add_right_cancel hsplit).symm

end balance

/-! ### What one commit adds -/

/-- What the call adds to the commission of a company: the charge for the invoice that
routing issues, or what cancelling takes back. -/
def Call.commission (A : Arithmetic) (found d : Docs Doc) : Call → List (Id × ℚ)
  | .route order _ _ deliveryFee _ =>
      match found.lookup (Key.order order.id),
          latest (·.effectiveFrom) (Docs.collect pickCommissionTerm found) with
      | some o, some term =>
          let amount := computeAmount A term.basis term.rate
            (settlementPrice (Order.withId o order.id) deliveryFee)
          if amount ≤ 0 then [] else [(Order.fuelCompanyId o, amount)]
      | _, _ => []
  | .cancel order _ _ =>
      (Docs.collect pickAccountMovement d).filterMap fun m =>
        if order.invoiceId.isSome && m.2.kind = .commissionCharged && m.2.reversalOfId.isNone &&
            (m.2.sourceInvoiceId.bind fun i => d.lookup (Key.invoice i)).any fun x : Invoice =>
              x.orderId = order.id && x.state = .issued then
          some (m.2.companyId, -m.2.amount)
        else none
  | _ => []

/-- What the commit adds to a company's commission, it adds without rounding. -/
def commissionExact (cfg : Settings) (ev : Event Doc Call.Reply) : Bool :=
  (ev.label.commission cfg.arithmetic ev.base.docs ev.before.docs).all fun c =>
    let charged := confirmedBalance cfg.arithmetic ev.before.docs c.1 .commissionCharged
    cfg.arithmetic.round (charged + c.2) = charged + c.2

section commit
variable {cfg : Settings} {since : Db} {ev : Event Doc Call.Reply}
variable {created : List (Id × AccountMovement)} {companyId m : Id} {y : AccountMovement}

/-- A movement that is not new, or of another company or kind, weighs what it did. -/
theorem AccountCommit.weight_kept {A : Arithmetic} (h : AccountCommit A ev created)
    (hstable : AccountStable ev.before ev.after) {kind : AccountMovementKind}
    (hkind : kind ≠ .paymentRecorded) {k : Key}
    (hk : ∀ m y, (m, y) ∈ created → y.companyId = companyId → y.kind = kind →
      k ≠ Key.accountMovement m) :
    ev.after.docs.weight (movementWeight companyId kind) k =
      ev.before.docs.weight (movementWeight companyId kind) k := by
  rcases hstable.weight_cases companyId kind k with heq | ⟨hzero, m, y, rfl, hy, hne⟩
  · exact heq.symm
  · have hlookup : ev.after.docs.lookup (Key.accountMovement m) = some y := hy
    rw [hzero, Docs.weight_some hlookup]
    refine if_neg fun hmine => ?_
    rcases h.cases m y hy with hold | hnew | ⟨y₀, confirmedBy, at_, -, hpayment, -, rfl⟩
    · exact hne hold
    · exact hk m y hnew hmine.1 hmine.2.1 rfl
    · exact hkind (hmine.2.1.symm.trans hpayment)

/-- A commit adds one movement of commission at most, of the amount it is known to add. -/
theorem AccountCommit.adds_commission (hev : ev.Sound (machine cfg))
    (holder : Store.Older ev.base ev.before) (h : AccountCommit cfg.arithmetic ev created)
    (hbefore : AccountLedger ev.before) (hnew : (m, y) ∈ created)
    (hkind : y.kind = .commissionCharged) :
    y.state = .confirmed ∧
      (y.companyId, if y.reversalOfId.isSome then -y.amount else y.amount) ∈
        ev.label.commission cfg.arithmetic ev.base.docs ev.before.docs ∧
      ∀ m' y', (m', y') ∈ created → y'.kind = .commissionCharged → m' = m := by
  have hstep := h.step
  have hvoided : ∀ {i : Id} {x : Invoice}, ev.before.invoice i = some x → x.state = .issued →
      ev.after.invoice i = some x.voided →
      ∃ order actor reason, ev.label = .cancel order actor reason ∧ x.orderId = order.id := by
    intro i x hx hissued hx'
    obtain ⟨x', hx'', -, heq | ⟨-, hsettled | ⟨-, hcancel⟩⟩⟩ := invoice_kept hev holder hx
    · cases hx'.symm.trans hx''
      exact absurd heq (Invoice.voided_ne hissued)
    · cases hx'.symm.trans hx''
      cases hsettled
    · exact hcancel
  generalize ev.label = c at hstep hvoided ⊢
  cases hstep with
  | charge hnone hx hissued hterm hprice hpos =>
      cases List.mem_singleton.mp hnew
      rename_i i x term
      obtain ⟨o, ho, hcompany, hamount⟩ := hprice
      have hcharged : ¬ computeAmount cfg.arithmetic term.basis term.rate x.amount ≤ 0 :=
        not_le.mpr hpos
      refine ⟨rfl, ?_, fun m' y' hnew' _ => congrArg Prod.fst (List.mem_singleton.mp hnew')⟩
      simp only [Call.commission, ho, hterm.latest_eq]
      rw [← hamount, ← hcompany, if_neg hcharged]
      exact List.mem_singleton.mpr rfl
  | reverse hreverses hbilled =>
      obtain ⟨i, x, m₀, y₀, hx, hissued, hx', hy₀, horiginal, heq⟩ := hreverses.each _ hnew
      dsimp only at heq
      subst heq
      obtain ⟨_, _, _, hlabel, horder⟩ := hvoided hx hissued hx'
      cases hlabel
      refine ⟨rfl, List.mem_filterMap.mpr ⟨(m₀, y₀), mem_collect_movement.mpr hy₀, ?_⟩, ?_⟩
      · have hlookup : ev.before.docs.lookup (Key.invoice i) = some x := hx
        have hkind₀ : y₀.kind = .commissionCharged := hkind
        simp [hbilled (List.ne_nil_of_mem hnew), hkind₀, horiginal.1, horiginal.2, hlookup, horder,
          hissued, AccountMovement.reversal]
      · intro m' y' hnew' hkind'
        obtain ⟨i', x', m₁, y₁, hx₁, hissued₁, hx₁', hy₁, horiginal₁, heq⟩ :=
          hreverses.each _ hnew'
        dsimp only at heq
        subst heq
        obtain ⟨_, _, _, hlabel, horder₁⟩ := hvoided hx₁ hissued₁ hx₁'
        cases hlabel
        -- The order has one invoice, and that one charge.
        cases invoice_unique ev.before.unique hx hx₁ (horder.trans horder₁.symm)
        cases hbefore.once m₀ m₁ y₀ y₁ i hy₀ hy₁ horiginal horiginal₁ (hkind.trans hkind'.symm)
        cases hy₀.symm.trans hy₁
        have hsame := List.inj_on_of_nodup_map hreverses.once hnew' hnew rfl
        exact congrArg Prod.fst hsame
  | nothing => cases hnew
  | _ =>
      cases List.mem_singleton.mp hnew
      cases hkind

/-- No company's commission has been rounded. -/
def ExactBalances (A : Arithmetic) (s : Db) : Prop :=
  ∀ companyId, confirmedBalance A s.docs companyId .commissionCharged =
    s.docs.total (movementWeight companyId .commissionCharged)

theorem commit_exactBalances (hev : ev.Sound (machine cfg)) (hholds : (evolution cfg since).Holds ev)
    (hbase : AccountLedger ev.base) (hbefore : AccountLedger ev.before)
    (hstable : AccountStable ev.base ev.before) (hexact : commissionExact cfg ev = true)
    (h : ExactBalances cfg.arithmetic ev.before) : ExactBalances cfg.arithmetic ev.after := by
  intro companyId
  obtain ⟨created, hcommit⟩ := account_cases hev hstable hbase
  have hstable' := commit_accountStable hev hholds hstable hbase hbefore
  by_cases hadds : ∃ m y, (m, y) ∈ created ∧ y.companyId = companyId ∧
      y.kind = .commissionCharged
  · obtain ⟨m, y, hnew, rfl, hkind⟩ := hadds
    obtain ⟨hconfirmed, hmem, honce⟩ :=
      AccountCommit.adds_commission hev hstable.progress.older hcommit hbefore hnew hkind
    have hothers : ∀ k, k ≠ Key.accountMovement m →
        ev.after.docs.weight (movementWeight y.companyId .commissionCharged) k =
          ev.before.docs.weight (movementWeight y.companyId .commissionCharged) k := by
      intro k hk
      refine hcommit.weight_kept hstable' (by simp) fun m' y' hnew' _ hkind' => ?_
      rwa [honce m' y' hnew' hkind']
    have hnone : ev.before.docs.lookup (Key.accountMovement m) = none := hcommit.fresh _ hnew
    have hsome : ev.after.docs.lookup (Key.accountMovement m) = some y := hcommit.stored _ hnew
    have hweight : ev.after.docs.weight (movementWeight y.companyId .commissionCharged)
        (Key.accountMovement m) = if y.reversalOfId.isSome then -y.amount else y.amount := by
      rw [Docs.weight_some hsome]
      exact if_pos ⟨rfl, hkind, hconfirmed⟩
    have hround := List.all_eq_true.mp hexact _ hmem
    rw [decide_eq_true_eq] at hround
    have htotal := Docs.total_put (Key.accountMovement m) hothers
    rw [Docs.weight_none hnone, add_zero] at htotal
    rw [htotal, ← h y.companyId, hweight, ← hround, confirmedBalance_eq, confirmedBalance_eq,
      Docs.sum_add hstable'.keys hothers (AList.lookup_eq_none.mp hnone)
        (AList.lookup_isSome.mp (Option.isSome_of_eq_some hsome)), hweight]
  · have hsame : ∀ k, ev.after.docs.weight (movementWeight companyId .commissionCharged) k =
        ev.before.docs.weight (movementWeight companyId .commissionCharged) k := by
      intro k
      refine hcommit.weight_kept hstable' (by simp) fun m y hnew hcompany hkind => ?_
      exact absurd ⟨m, y, hnew, hcompany, hkind⟩ hadds
    rw [Docs.total_congr hsame, ← h companyId, confirmedBalance_eq, confirmedBalance_eq,
      Docs.sum_congr hstable'.keys hsame]

end commit

/-! ### The account and the invoices -/

/-- The platform account agrees with the invoices. -/
structure LedgerMatches (s : Db) : Prop where
  charged : ∀ m m' y y' i, s.accountMovement m = some y → s.accountMovement m' = some y' →
    y.kind = .commissionCharged → y'.kind = .commissionCharged → y.OriginalOf i →
    y'.OriginalOf i → m = m'
  reversed : ∀ m y i, s.accountMovement m = some y → y.kind = .commissionCharged →
    y.OriginalOf i → ∃ x, s.invoice i = some x ∧ ((∃! r, ∃ z, s.accountMovement r = some z ∧
      z.reversalOfId = some m) ↔ x.state = .void)
  reversal : ∀ r z m, s.accountMovement r = some z → z.reversalOfId = some m →
    ∃ y i x, s.accountMovement m = some y ∧ y.OriginalOf i ∧ z = y.reversal m ∧
      s.invoice i = some x ∧ x.state = .void
  credited : ∀ m m' y y' i, s.accountMovement m = some y → s.accountMovement m' = some y' →
    y.kind = .cashbackCredited → y'.kind = .cashbackCredited → y.sourceInvoiceId = some i →
    y'.sourceInvoiceId = some i → m = m'
  creditedSettled : ∀ m y, s.accountMovement m = some y → y.kind = .cashbackCredited →
    ∃ i x, y.sourceInvoiceId = some i ∧ s.invoice i = some x ∧ x.state = .settled

/-- Cashback is credited for a settled invoice, and never taken back. -/
theorem AccountLedger.cashback {s : Db} (h : AccountLedger s) {m : Id} {y : AccountMovement}
    (hy : s.accountMovement m = some y) (hkind : y.kind = .cashbackCredited) :
    ∃ i x, y.OriginalOf i ∧ s.invoice i = some x ∧ x.state = .settled := by
  cases hsource : y.sourceInvoiceId with
  | none =>
      have hother := (h.payment m y hy hsource).2.2
      rw [hkind] at hother
      simp at hother
  | some i =>
      obtain ⟨-, -, x, hx, -, hcase⟩ := h.accrual m y i hy hsource
      rcases hcase with hcommission | ⟨-, hnone, hsettled⟩
      · exact absurd (hkind.symm.trans hcommission) (by simp)
      · exact ⟨i, x, ⟨hsource, hnone⟩, hx, hsettled⟩

theorem AccountLedger.matches {s : Db} (h : AccountLedger s) : LedgerMatches s where
  charged := fun m m' y y' i hy hy' hkind hkind' horiginal horiginal' =>
    h.once m m' y y' i hy hy' horiginal horiginal' (hkind.trans hkind'.symm)
  reversed := by
    intro m y i hy hkind horiginal
    obtain ⟨-, -, x, hx, -⟩ := h.accrual m y i hy horiginal.1
    refine ⟨x, hx, ?_, fun hvoid => ?_⟩
    · rintro ⟨r, ⟨z, hz, hreversal⟩, -⟩
      obtain ⟨y', i', x', hy', horiginal', -, hx', hvoid⟩ := h.undone r z m hz hreversal
      cases hy.symm.trans hy'
      cases horiginal.1.symm.trans horiginal'.1
      cases hx.symm.trans hx'
      exact hvoid
    · obtain ⟨r, z, hz, hreversal⟩ := h.void m y i x hy horiginal hx hvoid
      refine ⟨r, ⟨z, hz, hreversal⟩, ?_⟩
      rintro r' ⟨z', hz', hreversal'⟩
      exact h.undoneOnce r' r z' z m hz' hz hreversal' hreversal
  reversal := h.undone
  credited := by
    intro m m' y y' i hy hy' hkind hkind' hsource hsource'
    obtain ⟨j, -, horiginal, -⟩ := h.cashback hy hkind
    obtain ⟨j', -, horiginal', -⟩ := h.cashback hy' hkind'
    exact h.once m m' y y' i hy hy' ⟨hsource, horiginal.2⟩ ⟨hsource', horiginal'.2⟩
      (hkind.trans hkind'.symm)
  creditedSettled := by
    intro m y hy hkind
    obtain ⟨i, x, horiginal, hx, hsettled⟩ := h.cashback hy hkind
    exact ⟨i, x, horiginal.1, hx, hsettled⟩

/-- The commission of an invoice is at the term that its issuing found in force. -/
def ChargedAtIssue (A : Arithmetic) (log : List (Event Doc Call.Reply)) (s : Db) : Prop :=
  ∀ m y i, s.accountMovement m = some y → y.kind = .commissionCharged → y.OriginalOf i →
    ∃ ev ∈ log, ∃ x term, ev.before.invoice i = none ∧ ev.after.invoice i = some x ∧
      InForce ev.base.docs term ∧ y = term.charge A (x.withId i)

theorem commit_chargedAtIssue {cfg : Settings} {log : List (Event Doc Call.Reply)}
    {ev : Event Doc Call.Reply} (hev : ev.Sound (machine cfg))
    (hstable : AccountStable ev.base ev.before) (hbase : AccountLedger ev.base)
    (hbefore : AccountLedger ev.before) (h : ChargedAtIssue cfg.arithmetic log ev.before) :
    ChargedAtIssue cfg.arithmetic (ev :: log) ev.after := by
  intro m y i hy hkind horiginal
  obtain ⟨created, hcommit⟩ := account_cases hev hstable hbase
  rcases hcommit.accrual_cases hbefore hy horiginal.1 with hold | hnew
  · obtain ⟨ev', hmem, hrest⟩ := h m y i hold hkind horiginal
    exact ⟨ev', List.mem_cons_of_mem _ hmem, hrest⟩
  · have hstep := hcommit.step
    generalize ev.label = c at hstep
    cases hstep with
    | charge hnone hx hissued hterm =>
        cases List.mem_singleton.mp hnew
        cases horiginal.1
        exact ⟨ev, List.mem_cons_self, _, _, hnone, hx, hterm, rfl⟩
    | credit =>
        cases List.mem_singleton.mp hnew
        cases hkind
    | reverse hreverses =>
        obtain ⟨-, -, m', y', -, -, -, -, -, rfl⟩ := hreverses.each _ hnew
        cases horiginal.2
    | nothing => cases hnew
    | _ =>
        cases List.mem_singleton.mp hnew
        cases hkind

/-- In every run the account matches the invoices, and each commission is at the term that
its invoice's transaction found in force. Where no commit had to round a company's
commission, its balance is that of its invoices that are not void. -/
theorem ledger_matches_invoices {cfg : Settings} {log : List (Event Doc Call.Reply)}
    {s : Sys Doc Call.Reply Refusal Answer}
    (h : Run (machine cfg) Store.empty (fun _ => True) log s) :
    LedgerMatches s.store ∧ ChargedAtIssue cfg.arithmetic log s.store ∧
      ((∀ ev ∈ log, commissionExact cfg ev = true) → ∀ companyId,
        confirmedBalance cfg.arithmetic s.store.docs companyId .commissionCharged =
          openCharges s.store.docs companyId) := by
  obtain ⟨hledger, hrun⟩ := account_run h
  refine ⟨hledger.matches, ?_, fun hexact companyId => ?_⟩
  · refine hrun.logged (J := ChargedAtIssue cfg.arithmetic) ?_ fun log ev hev hP hJ => ?_
    · intro m y i hy
      cases hy
    · exact commit_chargedAtIssue hev hP.2.2.2.2 hP.2.2.1 hP.2.2.2.1 hJ
  · have hbalances := hrun.logged (J := fun log s =>
      (∀ ev ∈ log, commissionExact cfg ev = true) → ExactBalances cfg.arithmetic s)
      (fun _ companyId => rfl) fun log ev hev hP hJ hexact =>
        commit_exactBalances hev hP.2.1 hP.2.2.1 hP.2.2.2.1 hP.2.2.2.2
          (hexact ev List.mem_cons_self) (hJ fun ev' hev' => hexact ev' (List.mem_cons_of_mem _ hev'))
    exact (hbalances hexact companyId).trans hledger.balance

namespace Sample

def commissionTerm : CommissionTerm where
  basis := .percentage
  rate := 4
  effectiveFrom := 0

def cashbackProgramme : CashbackProgramme where
  basis := .percentage
  rate := 2
  isActive := true
  targetsAllCompanies := true
  targetCompanyIds := []
  effectiveFrom := 0

/-- Two orders are charged commission; one is paid and the other cancelled. -/
def settledAndVoided : List (Act Request) :=
  opening ++ serve (.administer (.addCommissionTerm 70 commissionTerm)) 10 2 ++
    serve (.administer (.addCashbackProgramme 71 cashbackProgramme)) 11 2 ++
    serve (.create client (order .direct)) 12 6 100 ++
    serve (.approve fuelAdmin 100 none none) 13 17 200 ++
    serve (.webhook .sadad ⟨7, 100, 4945 / 2, .sar, true⟩ true) 14 10 300 ++
    serve (.create client (order .direct)) 15 6 101 ++
    serve (.approve fuelAdmin 101 none none) 16 17 210 ++ serve (.cancel client 101 none) 17 3 220

/-- Two orders are charged commission, and the second one is cancelled: 98.9, and 79.58
added and taken back. -/
def roundedCharge : List (Act Request) :=
  opening ++ serve (.administer (.addCommissionTerm 70 commissionTerm)) 10 2 ++
    serve (.create client (order .direct)) 11 6 100 ++
    serve (.approve fuelAdmin 100 none none) 12 17 200 ++
    serve (.create client { order .direct with quantityLiters := 800 }) 13 6 101 ++
    serve (.approve fuelAdmin 101 none none) 14 17 210 ++ serve (.cancel client 101 none) 15 3 220

end Sample

theorem ledger_matches_invoices_settledAndVoided :
    ∃ log s y, Run (machine Sample.cfg) Store.empty (fun _ => True) log s ∧
      s.store.accountMovement 211 = some y ∧ y.OriginalOf 210 ∧
      (∃! r, ∃ z, s.store.accountMovement r = some z ∧ z.reversalOfId = some 211) ∧
      (∃ ev ∈ log, ∃ (x : Invoice) (term : CommissionTerm), ev.after.invoice 210 = some x ∧
        y = term.charge .doubles (x.withId 210)) ∧
      openCharges s.store.docs 10 = Json.nearest (989 / 10) ∧
      confirmedBalance .doubles s.store.docs 10 .commissionCharged = Json.nearest (989 / 10) := by
  obtain ⟨log, s, hrun, htest⟩ := exists_run (machine Sample.cfg) Store.empty (fun _ => True)
    Sample.settledAndVoided
    (fun log s => ((s.store.accountMovement 211).any fun y => y.kind = .commissionCharged &&
        y.sourceInvoiceId = some 210 && y.reversalOfId = none) &&
      ((s.store.invoice 210).any fun x => x.state = .void) &&
      openCharges s.store.docs 10 = Json.nearest (989 / 10) &&
      log.all fun ev => commissionExact Sample.cfg ev) (by decide +kernel)
  simp only [Bool.and_eq_true, decide_eq_true_eq] at htest
  obtain ⟨⟨⟨hcharged, hvoided⟩, hopen⟩, hexact⟩ := htest
  obtain ⟨y, hy, hcharge⟩ := (Option.any_eq_true _ _).mp hcharged
  obtain ⟨x, hx, hvoid⟩ := (Option.any_eq_true _ _).mp hvoided
  simp only [Bool.and_eq_true, decide_eq_true_eq] at hcharge hvoid
  have horiginal : y.OriginalOf 210 := ⟨hcharge.1.2, hcharge.2⟩
  obtain ⟨hmatches, hissue, hbalance⟩ := ledger_matches_invoices hrun
  obtain ⟨x', hx', hreversed⟩ := hmatches.reversed 211 y 210 hy hcharge.1.1 horiginal
  cases hx.symm.trans hx'
  obtain ⟨ev, hev, z, term, -, hz, -, heq⟩ := hissue 211 y 210 hy hcharge.1.1 horiginal
  exact ⟨log, s, y, hrun, hy, horiginal, hreversed.mpr hvoid, ⟨ev, hev, z, term, hz, heq⟩, hopen,
    (hbalance (List.all_eq_true.mp hexact) 10).trans hopen⟩

theorem ledger_matches_invoices_roundedCharge :
    ¬ ∀ (log : List (Event Doc Call.Reply)) (s : Sys Doc Call.Reply Refusal Answer),
      Run (machine Sample.cfg) Store.empty (fun _ => True) log s →
        LedgerMatches s.store ∧ ChargedAtIssue .doubles log s.store ∧ ∀ companyId,
          confirmedBalance .doubles s.store.docs companyId .commissionCharged =
            openCharges s.store.docs companyId := by
  intro hclaim
  obtain ⟨log, s, hrun, htest⟩ := exists_run (machine Sample.cfg) Store.empty (fun _ => True)
    Sample.roundedCharge (fun _ s => decide (openCharges s.store.docs 10 <
      confirmedBalance .doubles s.store.docs 10 .commissionCharged)) (by decide +kernel)
  exact absurd ((hclaim log s hrun).2.2 10) (ne_of_gt (of_decide_eq_true htest))

end CiroFuel
