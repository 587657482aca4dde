import CiroFuel.Footprint

/-!
# What a call can make of an invoice

An invoice is issued by routing and by nothing else; afterwards it is settled by
the webhook or by hand, or voided by a cancellation, and in each case only while
it is still issued. Its order, amount and method never change.
-/
namespace CiroFuel
open Snapshot Tx

/-! ### Looking an invoice up by its order -/

theorem mem_collect_invoice {d : Docs Doc} {i : Id} {x : Invoice} :
    (i, x) ∈ Docs.collect pickInvoice d ↔ d.lookup (Key.invoice i) = some x := by
  rw [← Option.mem_def, AList.mem_lookup_iff]
  constructor
  · intro h
    obtain ⟨⟨k, y⟩, he, hpick⟩ := List.mem_filterMap.mp h
    cases k with
    | invoice j =>
        cases hpick
        exact he
    | _ => cases hpick
  · intro h
    exact List.mem_filterMap.mpr ⟨_, h, rfl⟩

theorem findInvoiceOf_some {d : Docs Doc} {orderId : Id} {x : InvoiceDocument}
    (h : findInvoiceOf d orderId = some x) :
    d.lookup (Key.invoice x.id) = some x.toInvoice ∧ x.orderId = orderId := by
  obtain ⟨⟨i, y⟩, hfind, rfl⟩ := Option.map_eq_some_iff.mp h
  have hmem := List.mem_of_find?_eq_some hfind
  have horder := List.find?_some hfind
  exact ⟨mem_collect_invoice.mp hmem, of_decide_eq_true horder⟩

theorem findInvoiceOf_none {d : Docs Doc} {orderId : Id} (h : findInvoiceOf d orderId = none)
    {i : Id} {x : Invoice} (hx : d.lookup (Key.invoice i) = some x) : x.orderId ≠ orderId := by
  have hfind := Option.map_eq_none_iff.mp h
  have hx' := List.find?_eq_none.mp hfind (i, x) (mem_collect_invoice.mpr hx)
  simpa using hx'

theorem invoice_unique {d : Docs Doc} (hd : d.Unique) {i j : Id} {x y : Invoice}
    (hx : d.lookup (Key.invoice i) = some x) (hy : d.lookup (Key.invoice j) = some y)
    (h : x.orderId = y.orderId) : i = j := by
  have hkey : Key.invoice i = Key.invoice j :=
    hd _ _ x y (.invoiceOrderId x.orderId) hx hy (List.mem_singleton.mpr rfl)
      (by rw [h]; exact List.mem_singleton.mpr rfl)
  exact Key.invoice.inj hkey

theorem findInvoiceOf_eq {d : Docs Doc} (hd : d.Unique) {i orderId : Id} {x : Invoice}
    (hx : d.lookup (Key.invoice i) = some x) (horder : x.orderId = orderId) :
    findInvoiceOf d orderId = some (x.withId i) := by
  cases hfind : findInvoiceOf d orderId with
  | none => exact absurd horder (findInvoiceOf_none hfind hx)
  | some y =>
      obtain ⟨hy, hyorder⟩ := findInvoiceOf_some hfind
      have hid := invoice_unique hd hy hx (hyorder.trans horder.symm)
      rw [hid, hx] at hy
      cases y
      cases hid
      cases hy
      rfl

/-! ### The operations -/

variable {A : Arithmetic} {env : Env} {v w : View Doc}

/-- Keys of the platform account. -/
def Key.isAccountMovement : Key → Prop
  | .accountMovement _ => True
  | _ => False

theorem accrueCommission_find {order : OrderDocument} {invoice : InvoiceDocument} {r : Unit}
    (h : (accrueCommission A order invoice).run env v = .ok (r, w)) {k : Key}
    (hk : ¬ k.isAccountMovement) : w.find k = v.find k :=
  (accrueCommission_confined (fun _ => trivial) order invoice).find_eq h hk

/-- Issuing checks the credit and the ceiling on what is stored, records the
invoice, names it on the order and accrues commission. -/
theorem issueInvoice_parts {cfg : Settings} {order : OrderDocument} {r : InvoiceDocument}
    (h : (issueInvoice cfg order).run env v = .ok (r, w)) :
    ∃ (u u₁ u₂ : View Doc) (i : Id),
      (assertCredit order (order.finalPrice.getD order.estimatedPrice)).run env v = .ok ((), u) ∧
      (order.paymentMethod = .deferred ∨ order.paymentMethod = .credit →
        (assertUnderCeiling cfg order.fuelCompanyId).run env u = .ok ((), u₁)) ∧
      (∀ k, u.find k = v.find k) ∧ (∀ k, u₁.find k = v.find k) ∧
      u₁.find (Key.invoice i) = none ∧
      u₁.docs.fits (Key.invoice i) (Order.invoiceFor order) = true ∧
      u₂.find (Key.invoice i) = some (Order.invoiceFor order) ∧
      u₂.find (Key.order order.id) = (v.find (Key.order order.id)).map (fun o : Order =>
        { o with invoiceId := some i }) ∧
      (∀ k, k ≠ Key.invoice i → k ≠ Key.order order.id → u₂.find k = v.find k) ∧
      (accrueCommission cfg.arithmetic order ((Order.invoiceFor order).withId i)).run env u₂ =
        .ok ((), w) := by
  have recorded : ∀ u : View Doc, (∀ k, u.find k = v.find k) → Tx.run env (do
      let id ← Tx.freshId
      let invoice := Order.invoiceFor order
      Tx.insert (Key.invoice id) invoice
      let _ ← updateOrder order.id (fun _ => true) fun o => { o with invoiceId := some id }
      accrueCommission cfg.arithmetic order (invoice.withId id)
      return invoice.withId id : Action InvoiceDocument) u = .ok (r, w) →
      ∃ (u₂ : View Doc) (i : Id), u.find (Key.invoice i) = none ∧
        u.docs.fits (Key.invoice i) (Order.invoiceFor order) = true ∧
        u₂.find (Key.invoice i) = some (Order.invoiceFor order) ∧
        u₂.find (Key.order order.id) = (v.find (Key.order order.id)).map (fun o : Order =>
          { o with invoiceId := some i }) ∧
        (∀ k, k ≠ Key.invoice i → k ≠ Key.order order.id → u₂.find k = v.find k) ∧
        (accrueCommission cfg.arithmetic order ((Order.invoiceFor order).withId i)).run env u₂ =
          .ok ((), w) := by
    intro u hu hrun
    obtain ⟨i, u₁, hid, hrun⟩ := bind_ok hrun
    obtain ⟨-, rfl⟩ := freshId_ok hid
    obtain ⟨_, u₂, hinsert, hrun⟩ := bind_ok hrun
    obtain ⟨hnone, hfit, rfl⟩ := insert_ok hinsert
    obtain ⟨_, u₃, hupdate, hrun⟩ := bind_ok hrun
    obtain ⟨_, u₄, haccrue, hrun⟩ := bind_ok hrun
    obtain ⟨-, rfl⟩ := pure_ok hrun
    have hput : ∀ k, k ≠ Key.invoice i → View.find (View.put { u with drawn := u.drawn + 1 }
        (Key.invoice i) (Order.invoiceFor order)) k = v.find k := fun k hk =>
      (View.find_put_ne _ _ hk).trans (hu k)
    have hput' : View.find (View.put { u with drawn := u.drawn + 1 } (Key.invoice i)
        (Order.invoiceFor order)) (Key.order order.id) = v.find (Key.order order.id) :=
      hput _ (by simp)
    refine ⟨u₃, i, hnone, hfit, ?_, ?_, fun k hk hko => ?_, haccrue⟩
    · rcases findOneAndUpdate_ok hupdate with ⟨o, -, -, -, -, rfl⟩ | ⟨-, rfl, -⟩
      · rw [View.find_put_ne _ _ (by simp), View.find_put_self]
      · rw [View.find_put_self]
    · rcases findOneAndUpdate_ok hupdate with ⟨o, ho, -, -, -, rfl⟩ | ⟨-, rfl, hnone⟩
      · rw [View.find_put_self, ← hput', ho]
        rfl
      · rw [hput']
        cases hfind : v.find (Key.order order.id) with
        | none => rfl
        | some o => exact absurd (hnone o (hput'.trans hfind)) (by simp)
    · rcases findOneAndUpdate_ok hupdate with ⟨o, -, -, -, -, rfl⟩ | ⟨-, rfl, -⟩
      · exact (View.find_put_ne _ _ hko).trans (hput k hk)
      · exact hput k hk
  obtain ⟨_, u, hcredit, hrun⟩ := bind_ok h
  have hu : ∀ k, u.find k = v.find k := fun k =>
    (assertCredit_confined (S := fun _ => False) _ _).find_eq hcredit id
  split_ifs at hrun with hgated
  · obtain ⟨_, u₁, hceiling, hrun⟩ := bind_ok hrun
    have hu₁ : ∀ k, u₁.find k = v.find k := fun k =>
      ((assertUnderCeiling_confined (S := fun _ => False) _ _).find_eq hceiling id).trans (hu k)
    obtain ⟨u₂, i, hissued⟩ := recorded u₁ hu₁ hrun
    exact ⟨u, u₁, u₂, i, hcredit, fun _ => hceiling, hu, hu₁, hissued⟩
  · obtain ⟨u₂, i, hissued⟩ := recorded u hu hrun
    refine ⟨u, u, u₂, i, hcredit, fun hmethod => ?_, hu, hu, hissued⟩
    exact absurd hmethod (by simpa using hgated)

/-- Issuing an invoice records it and names it on the order; no other invoice is
of that order, and none is changed. -/
theorem issueInvoice_ok {cfg : Settings} {order : OrderDocument} {r : InvoiceDocument}
    (h : (issueInvoice cfg order).run env v = .ok (r, w)) :
    ∃ i, v.find (Key.invoice i) = none ∧
      (∀ j x, v.find (Key.invoice j) = some x → x.orderId ≠ order.id) ∧
      w.find (Key.invoice i) = some (Order.invoiceFor order) ∧
      (∀ j, j ≠ i → w.find (Key.invoice j) = v.find (Key.invoice j)) ∧
      w.find (Key.order order.id) = (v.find (Key.order order.id)).map fun o : Order =>
        { o with invoiceId := some i } := by
  obtain ⟨u, u₁, u₂, i, -, -, -, hu₁, hnone, hfit, hself, horder, hframe, haccrue⟩ :=
    issueInvoice_parts h
  have hmovements := fun k hk => accrueCommission_find haccrue (k := k) hk
  refine ⟨i, (hu₁ _).symm.trans hnone, fun j x hx hxorder => ?_, ?_, fun j hj => ?_, ?_⟩
  · have hkey := Docs.fits_sound hfit ((hu₁ _).trans hx)
      (List.mem_singleton.mpr rfl : IndexEntry.invoiceOrderId order.id ∈ _)
      (by rw [← hxorder]; exact List.mem_singleton.mpr rfl)
    rw [← Key.invoice.inj hkey] at hx
    exact absurd (hnone.symm.trans ((hu₁ _).trans hx)) (by simp)
  · exact (hmovements _ (by exact id)).trans hself
  · exact (hmovements _ (by exact id)).trans (hframe _ (by simpa using hj) (by simp))
  · exact (hmovements _ (by exact id)).trans horder

def Invoice.settled (x : Invoice) (ref : Option ℕ) (at_ : Instant) : Invoice :=
  { x with
    state := .settled
    settledAt := some at_
    paymentReference := ref.or x.paymentReference }

def Invoice.voided (x : Invoice) : Invoice := { x with state := .void }

/-- Settling changes an issued invoice only, and no other invoice. -/
theorem applySettlement_ok {invoice r : InvoiceDocument} {ref : Option ℕ}
    (h : (applySettlement A invoice ref).run env v = .ok (r, w))
    (hfind : v.find (Key.invoice invoice.id) = some invoice.toInvoice) :
    (∀ j, j ≠ invoice.id → w.find (Key.invoice j) = v.find (Key.invoice j)) ∧
    ((invoice.state ≠ .issued ∧ w.find (Key.invoice invoice.id) = some invoice.toInvoice) ∨
      invoice.state = .issued ∧ ∃ n, w.find (Key.invoice invoice.id) =
        some (invoice.toInvoice.settled ref (env.time n))) := by
  have hframe : ∀ j, j ≠ invoice.id → w.find (Key.invoice j) = v.find (Key.invoice j) := by
    intro j hj
    refine (applySettlement_confined
      (S := fun k => k.isAccountMovement ∨ k = Key.invoice invoice.id)
      (fun _ => Or.inl trivial) (Or.inr rfl) ref).find_eq h ?_
    simpa [Key.isAccountMovement] using hj
  refine ⟨hframe, ?_⟩
  unfold applySettlement at h
  split_ifs at h with hstate
  · obtain ⟨-, rfl⟩ := pure_ok h
    exact Or.inl ⟨hstate, hfind⟩
  · right
    obtain ⟨t, u, ht, h⟩ := bind_ok h
    obtain ⟨rfl, rfl⟩ := getTime_ok ht
    obtain ⟨_, u, hupdate, h⟩ := bind_ok h
    obtain ⟨_, u', haccrue, h⟩ := bind_ok h
    obtain ⟨-, rfl⟩ := pure_ok h
    refine ⟨by simpa using hstate, v.readings, ?_⟩
    rw [(accrueCashback_confined (S := Key.isAccountMovement) (fun _ => trivial) _).find_eq
      haccrue id]
    rcases findOneAndUpdate_ok hupdate with ⟨x, hx, -, -, -, rfl⟩ | ⟨-, -, hnone⟩
    · cases hfind.symm.trans hx
      exact View.find_put_self _ _ _
    · exact absurd (hnone _ hfind) (by simp)

/-- What settling or voiding makes of the invoice of an order: nothing once it is
no longer issued, `change` while it is. -/
structure ChangesInvoice (v w : View Doc) (i : Id) (x : Invoice) (change : Invoice → Prop) :
    Prop where
  others : ∀ j, j ≠ i → w.find (Key.invoice j) = v.find (Key.invoice j)
  closed : x.state ≠ .issued → w.find (Key.invoice i) = some x
  issued : x.state = .issued → ∃ x', w.find (Key.invoice i) = some x' ∧ change x'

theorem applySettlement_changes {invoice r : InvoiceDocument} {ref : Option ℕ}
    (h : (applySettlement A invoice ref).run env v = .ok (r, w))
    (hfind : v.find (Key.invoice invoice.id) = some invoice.toInvoice) :
    ChangesInvoice v w invoice.id invoice.toInvoice fun x' =>
      ∃ n, x' = invoice.toInvoice.settled ref (env.time n) := by
  obtain ⟨hothers, hself⟩ := applySettlement_ok h hfind
  refine ⟨hothers, fun hne => ?_, fun hissued => ?_⟩
  · rcases hself with ⟨-, hw⟩ | ⟨hissued, -⟩
    · exact hw
    · exact absurd hissued hne
  · rcases hself with ⟨hne, -⟩ | ⟨-, n, hw⟩
    · exact absurd hissued hne
    · exact ⟨_, hw, n, rfl⟩

/-- Settling by order finds the order's invoice, or throws. -/
theorem settleInvoiceForOrder_ok {orderId : Id} {ref : Option ℕ} {r : InvoiceDocument}
    (h : (settleInvoiceForOrder A orderId ref).run env v = .ok (r, w)) :
    ∃ i x, v.find (Key.invoice i) = some x ∧ x.orderId = orderId ∧
      ChangesInvoice v w i x fun x' => ∃ n, x' = x.settled ref (env.time n) := by
  obtain ⟨d, u, hscan, h⟩ := bind_ok h
  obtain ⟨rfl, rfl⟩ := scan_ok hscan
  split at h
  · exact (throw_ok h).elim
  · rename_i invoice hinvoice
    obtain ⟨hfind, horder⟩ := findInvoiceOf_some hinvoice
    exact ⟨invoice.id, invoice.toInvoice, hfind, horder, applySettlement_changes h hfind⟩

theorem settleById_ok {i : Id} {ref : Option ℕ} {r : InvoiceDocument}
    (h : (settleById A i ref).run env v = .ok (r, w)) :
    ∃ x, v.find (Key.invoice i) = some x ∧
      ChangesInvoice v w i x fun x' => ∃ n, x' = x.settled ref (env.time n) := by
  obtain ⟨found, u, hfound, h⟩ := bind_ok h
  obtain ⟨hfound, rfl⟩ := find_ok hfound
  cases found with
  | none => exact (throw_ok h).elim
  | some x =>
      have hfind : u.find (Key.invoice (Invoice.withId x i).id) = some (Invoice.withId x i).toInvoice :=
        hfound.symm
      exact ⟨x, hfind, applySettlement_changes h hfind⟩

/-- Voiding changes the order's invoice if there is one and it is issued. -/
theorem voidInvoice_ok {orderId : Id} {r : Unit} (hv : v.docs.Unique)
    (h : (voidInvoice orderId).run env v = .ok (r, w)) :
    (∀ j, (∀ x, v.find (Key.invoice j) = some x → x.orderId ≠ orderId) →
      w.find (Key.invoice j) = v.find (Key.invoice j)) ∧
    ∀ i x, v.find (Key.invoice i) = some x → x.orderId = orderId →
      ChangesInvoice v w i x fun x' => x' = x.voided := by
  obtain ⟨d, u, hscan, h⟩ := bind_ok h
  obtain ⟨rfl, rfl⟩ := scan_ok hscan
  split at h
  · rename_i hnone
    obtain ⟨-, rfl⟩ := pure_ok h
    exact ⟨fun _ _ => rfl, fun i x hx horder => absurd horder (findInvoiceOf_none hnone hx)⟩
  · rename_i invoice hinvoice
    obtain ⟨hfind, horder⟩ := findInvoiceOf_some hinvoice
    have changes : ChangesInvoice u w invoice.id invoice.toInvoice fun x' =>
        x' = invoice.toInvoice.voided := by
      split_ifs at h with hstate
      · obtain ⟨-, rfl⟩ := pure_ok h
        exact ⟨fun _ _ => rfl, fun _ => hfind, fun hissued => absurd hissued hstate⟩
      · obtain ⟨updated, u', hupdate, h⟩ := bind_ok h
        rcases findOneAndUpdate_ok hupdate with ⟨x, hx, -, -, rfl, rfl⟩ | ⟨-, -, hnone⟩
        · cases hfind.symm.trans hx
          have hkeep : ∀ j, w.find (Key.invoice j) = View.find
              (u.put (Key.invoice invoice.id) { invoice.toInvoice with state := .void })
              (Key.invoice j) := fun j =>
            (reverseMovementsForInvoice_confined (S := Key.isAccountMovement)
              (fun _ => trivial) _).find_eq h id
          refine ⟨fun j hj => ?_, fun hne => absurd (not_not.mp hstate) hne, fun _ => ?_⟩
          · rw [hkeep, View.find_put_ne _ _ fun e => hj (Key.invoice.inj e)]
          · exact ⟨_, (hkeep _).trans (View.find_put_self _ _ _), rfl⟩
        · have hmatch := hnone _ hfind
          simp [horder, not_not.mp hstate] at hmatch
    refine ⟨fun j hj => ?_, fun i x hx hxorder => ?_⟩
    · exact changes.others j fun e => hj _ (e ▸ hfind) horder
    · have hid := invoice_unique hv hx hfind (hxorder.trans horder.symm)
      subst hid
      cases hfind.symm.trans hx
      exact changes

/-! ### The calls -/

/-- What a call can have made of an invoice that was there. -/
inductive InvoiceStep (time : ℕ → Instant) : Call → Id → Invoice → Invoice → Prop where
  | settle {order eventId transactionId i x n} (horder : x.orderId = order.id)
      (hissued : x.state = .issued) :
      InvoiceStep time (.settle order eventId transactionId) i x
        (x.settled (some transactionId) (time n))
  | settleInvoice {i ref x n} (hissued : x.state = .issued) :
      InvoiceStep time (.settleInvoice i ref) i x (x.settled ref (time n))
  | cancel {order actor reason i x} (horder : x.orderId = order.id)
      (hissued : x.state = .issued) :
      InvoiceStep time (.cancel order actor reason) i x x.voided

namespace Call
variable {cfg : Settings} {c : Call} {r : c.Reply}

theorem cancel_ok {order : OrderDocument} {actor : TransitionActor} {reason : Option String}
    {r : OrderDocument} (h : ((cancel order actor reason).body cfg).run env v = .ok (r, w)) :
    ∃ u u₁ u₂ updated,
      (releaseDriverIfAssigned order).run env v = .ok ((), u) ∧
      (transition order.id order.status .cancelled actor
        { extraSet := [.cancelledBy actor.actorId, .cancellationReason reason] }).run env u =
          .ok (updated, u₁) ∧
      ((order.invoiceId.isSome = true ∧ (voidInvoice order.id).run env u₁ = .ok ((), u₂)) ∨
        (order.invoiceId.isSome = false ∧ u₂ = u₁)) ∧
      (returnDrawdown cfg.arithmetic order.balanceKey order.id actor.actorId).run env u₂ =
        .ok ((), w) := by
  obtain ⟨_, u, hrelease, h⟩ := bind_ok h
  obtain ⟨updated, u₁, htransition, h⟩ := bind_ok h
  split_ifs at h with hbilled
  · obtain ⟨_, u₂, hvoid, h⟩ := bind_ok h
    obtain ⟨_, u₃, hreturn, h⟩ := bind_ok h
    obtain ⟨-, rfl⟩ := pure_ok h
    exact ⟨u, u₁, u₂, updated, hrelease, htransition, Or.inl ⟨hbilled, hvoid⟩, hreturn⟩
  · obtain ⟨_, u₃, hreturn, h⟩ := bind_ok h
    obtain ⟨-, rfl⟩ := pure_ok h
    refine ⟨u, u₁, u₁, updated, hrelease, htransition, Or.inr ⟨?_, rfl⟩, hreturn⟩
    simpa using hbilled

/-- Around the voiding, a cancellation leaves every invoice alone. -/
theorem cancel_voids {order : OrderDocument} {actor : TransitionActor} {reason : Option String}
    {r : OrderDocument} (hv : v.docs.Unique)
    (h : ((cancel order actor reason).body cfg).run env v = .ok (r, w)) :
    ∃ u₁ u₂ : View Doc, u₁.docs.Unique ∧
      (∀ i, u₁.find (Key.invoice i) = v.find (Key.invoice i)) ∧
      ((order.invoiceId.isSome = true ∧ (voidInvoice order.id).run env u₁ = .ok ((), u₂)) ∨
        (order.invoiceId.isSome = false ∧ u₂ = u₁)) ∧
      ∀ i, w.find (Key.invoice i) = u₂.find (Key.invoice i) := by
  obtain ⟨u, u₁, u₂, updated, hrelease, htransition, hvoid, hreturn⟩ := cancel_ok h
  refine ⟨u₁, u₂, run_unique (run_unique hv hrelease) htransition, fun i => ?_, hvoid, fun i => ?_⟩
  · have hu : u.find (Key.invoice i) = v.find (Key.invoice i) :=
      (releaseDriverIfAssigned_confined (S := fun k => k ≠ Key.invoice i)
        (by simp) (by simp) (by simp)).find_eq hrelease (by simp)
    have hu₁ : u₁.find (Key.invoice i) = u.find (Key.invoice i) :=
      (transition_confined (S := fun k => k ≠ Key.invoice i) (by simp) _ _ _ _).find_eq
        htransition (by simp)
    exact hu₁.trans hu
  · exact (returnDrawdown_confined (S := fun k => k ≠ Key.invoice i) (by simp) _ _).find_eq
      hreturn (by simp)

/-- A cancellation that knows of an invoice voids the order's invoice, and no
other; one that does not changes none. -/
theorem cancel_invoice {order : OrderDocument} {actor : TransitionActor} {reason : Option String}
    {r : OrderDocument} (hv : v.docs.Unique)
    (h : ((cancel order actor reason).body cfg).run env v = .ok (r, w)) {i : Id} {x : Invoice}
    (hx : v.find (Key.invoice i) = some x) :
    w.find (Key.invoice i) = some
      (if order.invoiceId.isSome ∧ x.orderId = order.id ∧ x.state = .issued then x.voided
        else x) := by
  obtain ⟨u₁, u₂, hunique, hu₁, hvoid, hw⟩ := cancel_voids hv h
  have hx₁ : u₁.find (Key.invoice i) = some x := (hu₁ i).trans hx
  rcases hvoid with ⟨hbilled, hvoid⟩ | ⟨hbilled, rfl⟩
  · obtain ⟨hothers, hself⟩ := voidInvoice_ok hunique hvoid
    by_cases horder : x.orderId = order.id
    · have hchange := hself i x hx₁ horder
      by_cases hissued : x.state = .issued
      · obtain ⟨x', hx', rfl⟩ := hchange.issued hissued
        simp [hw, hx', hbilled, horder, hissued]
      · simp [hw, hchange.closed hissued, hissued]
    · have hkeep := hothers i fun y hy => by
        cases hx₁.symm.trans hy
        exact horder
      simp [hw, hkeep, hx₁, horder]
  · simp [hw, hx₁, hbilled]

theorem cancel_invoice_none {order : OrderDocument} {actor : TransitionActor}
    {reason : Option String} {r : OrderDocument} (hv : v.docs.Unique)
    (h : ((cancel order actor reason).body cfg).run env v = .ok (r, w)) {i : Id}
    (hnone : v.find (Key.invoice i) = none) : w.find (Key.invoice i) = none := by
  obtain ⟨u₁, u₂, hunique, hu₁, hvoid, hw⟩ := cancel_voids hv h
  have hnone₁ : u₁.find (Key.invoice i) = none := (hu₁ i).trans hnone
  rcases hvoid with ⟨-, hvoid⟩ | ⟨-, rfl⟩
  · have hkeep := (voidInvoice_ok hunique hvoid).1 i fun x hx =>
      absurd (hnone₁.symm.trans hx) (by simp)
    exact (hw i).trans (hkeep.trans hnone₁)
  · exact (hw i).trans hnone₁

theorem body_invoice (hv : v.docs.Unique) (h : (c.body cfg).run env v = .ok (r, w)) {i : Id}
    {x : Invoice} (hx : v.find (Key.invoice i) = some x) :
    ∃ x', w.find (Key.invoice i) = some x' ∧ (x' = x ∨ InvoiceStep env.time c i x x') := by
  have unchanged : c.bills = false → ∃ x', w.find (Key.invoice i) = some x' ∧
      (x' = x ∨ InvoiceStep env.time c i x x') := fun hbills =>
    ⟨x, (body_frame (k := Key.invoice i) h hbills).trans hx, Or.inl rfl⟩
  cases c with
  | route order source transportCompanyId deliveryFee actor =>
      obtain ⟨routed, u, hrouted, h⟩ := bind_ok h
      obtain ⟨pricedAt, u₁, htime₁, h⟩ := bind_ok h
      obtain ⟨now, u₂, htime₂, h⟩ := bind_ok h
      obtain ⟨awaiting, u₃, hawaiting, h⟩ := bind_ok h
      obtain ⟨invoice, u₄, hissue, h⟩ := bind_ok h
      obtain ⟨-, rfl⟩ := pure_ok h
      obtain ⟨-, rfl⟩ := getTime_ok htime₁
      obtain ⟨-, rfl⟩ := getTime_ok htime₂
      have hu : u.find (Key.invoice i) = v.find (Key.invoice i) :=
        (transition_confined (S := fun k => k ≠ Key.invoice i) (by simp) _ _ _ _).find_eq
          hrouted (by simp)
      have hu₃ : u₃.find (Key.invoice i) = u.find (Key.invoice i) :=
        (transition_confined (S := fun k => k ≠ Key.invoice i) (by simp) _ _ _ _).find_eq
          hawaiting (by simp)
      have hx₃ : u₃.find (Key.invoice i) = some x := hu₃.trans (hu.trans hx)
      obtain ⟨j, hnone, -, -, hothers, -⟩ := issueInvoice_ok hissue
      have hij : i ≠ j := by
        rintro rfl
        exact absurd (hnone.symm.trans hx₃) (by simp)
      exact ⟨x, (hothers i hij).trans hx₃, Or.inl rfl⟩
  | settle order eventId transactionId =>
      obtain ⟨_, u, hsettle, h⟩ := bind_ok h
      have hw : w.find (Key.invoice i) = u.find (Key.invoice i) :=
        (transition_confined (S := fun k => k ≠ Key.invoice i) (by simp) _ _ _ _).find_eq
          h (by simp)
      obtain ⟨j, y, hy, horder, hchange⟩ := settleInvoiceForOrder_ok hsettle
      by_cases hij : i = j
      · subst hij
        cases hx.symm.trans hy
        by_cases hissued : x.state = .issued
        · obtain ⟨x', hx', n, rfl⟩ := hchange.issued hissued
          exact ⟨_, hw.trans hx', Or.inr (.settle horder hissued)⟩
        · exact ⟨x, hw.trans (hchange.closed hissued), Or.inl rfl⟩
      · exact ⟨x, hw.trans ((hchange.others i hij).trans hx), Or.inl rfl⟩
  | settleInvoice j ref =>
      obtain ⟨y, hy, hchange⟩ := settleById_ok h
      by_cases hij : i = j
      · subst hij
        cases hx.symm.trans hy
        by_cases hissued : x.state = .issued
        · obtain ⟨x', hx', n, rfl⟩ := hchange.issued hissued
          exact ⟨_, hx', Or.inr (.settleInvoice hissued)⟩
        · exact ⟨x, hchange.closed hissued, Or.inl rfl⟩
      · exact ⟨x, (hchange.others i hij).trans hx, Or.inl rfl⟩
  | cancel order actor reason =>
      refine ⟨_, cancel_invoice hv h hx, ?_⟩
      split_ifs with hvoid
      · exact Or.inr (.cancel hvoid.2.1 hvoid.2.2)
      · exact Or.inl rfl
  | _ => exact unchanged rfl

/-- Settling an order finds its invoice and settles it, if it is issued. -/
theorem settle_changes {order : OrderDocument} {eventId : Id} {transactionId : ℕ}
    {r : OrderDocument}
    (h : ((settle order eventId transactionId).body cfg).run env v = .ok (r, w)) :
    ∃ i x, v.find (Key.invoice i) = some x ∧ x.orderId = order.id ∧
      ChangesInvoice v w i x fun x' => ∃ n, x' = x.settled (some transactionId) (env.time n) := by
  obtain ⟨_, u, hsettle, h⟩ := bind_ok h
  obtain ⟨i, x, hx, horder, hchange⟩ := settleInvoiceForOrder_ok hsettle
  have hkept : ∀ j, w.find (Key.invoice j) = u.find (Key.invoice j) := fun j =>
    (transition_confined (S := fun k => k ≠ Key.invoice j) (by simp) _ _ _ _).find_eq h (by simp)
  refine ⟨i, x, hx, horder, fun j hj => (hkept j).trans (hchange.others j hj), fun hne => ?_,
    fun hissued => ?_⟩
  · exact (hkept i).trans (hchange.closed hne)
  · obtain ⟨x', hx', hsettled⟩ := hchange.issued hissued
    exact ⟨x', (hkept i).trans hx', hsettled⟩

/-- The invoice of a settled order was there, and is no longer issued. -/
theorem settle_invoice {order : OrderDocument} {eventId : Id} {transactionId : ℕ}
    {r : OrderDocument}
    (h : ((settle order eventId transactionId).body cfg).run env v = .ok (r, w)) :
    ∃ i x, v.find (Key.invoice i) = some x ∧ x.orderId = order.id ∧
      (x.state = .issued → ∃ n, w.find (Key.invoice i) =
        some (x.settled (some transactionId) (env.time n))) := by
  obtain ⟨i, x, hx, horder, hchange⟩ := settle_changes h
  refine ⟨i, x, hx, horder, fun hissued => ?_⟩
  obtain ⟨x', hx', n, rfl⟩ := hchange.issued hissued
  exact ⟨n, hx'⟩

end Call
end CiroFuel
