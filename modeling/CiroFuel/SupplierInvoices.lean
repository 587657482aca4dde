import CiroFuel.LitreLedger

/-!
# One current supplier invoice per order

Confirming and replacing decide on a document read before their transaction
which entry is current. The balance stops a second reconciliation, but an
invoice of exactly the ordered quantity records none, so only the runs whose
confirmations and replacements commit on an order with the current entry they
read keep one current entry, and a ledger that agrees with it.
-/
namespace CiroFuel
open Snapshot Tx LitreBalance

/-- Confirmed and not superseded. -/
def SupplierInvoice.current (si : SupplierInvoice) : Bool :=
  si.supersededAt.isNone && si.confirmed.isSome

namespace Order

def currents (o : Order) : List SupplierInvoice := o.supplierInvoices.filter (·.current)

theorem currentEntry_eq (o : Order) : o.currentEntry = o.currents.head? :=
  List.head?_filter.symm

/-- The order after an entry has been superseded. -/
def superseding (o : Order) (entry : Option SupplierInvoice) (at_ : Instant) : Order :=
  match entry with
  | some existing =>
      { o with
        supplierInvoices := o.supplierInvoices.map fun si =>
          if si.id = existing.id then { si with supersededAt := some at_ } else si }
  | none => o

theorem currents_push (o : Order) (dto : SupplierInvoiceInput) (actorId : Id) (at_ : Instant) :
    ∃ si : SupplierInvoice,
      (o.pushSupplierInvoice dto actorId at_).currents = o.currents ++ [si] ∧
      si.confirmed = some dto.confirmed := by
  refine ⟨_, List.filter_append _ _, rfl⟩

theorem currents_superseding (o : Order) (existing : SupplierInvoice) (at_ : Instant) :
    (o.superseding (some existing) at_).currents = o.currents.filter fun si => si.id ≠ existing.id := by
  have superseded : ∀ si : SupplierInvoice,
      SupplierInvoice.current { si with supersededAt := some at_ } = false := fun _ => rfl
  simp only [currents, superseding]
  induction o.supplierInvoices with
  | nil => rfl
  | cons si l ih =>
      rw [List.map_cons]
      by_cases hid : si.id = existing.id
      · rw [if_pos hid, List.filter_cons_of_neg (by simp [superseded]), ih]
        cases hcurrent : si.current <;> simp [hid, hcurrent]
      · rw [if_neg hid]
        cases hcurrent : si.current
        · rw [List.filter_cons_of_neg (by simp [hcurrent]), ih]
          simp [hcurrent]
        · rw [List.filter_cons_of_pos hcurrent, ih]
          simp [hid, hcurrent]

/-- Superseding the only current entry leaves none. -/
theorem currents_superseding_nil {o : Order} {entry : Option SupplierInvoice} (at_ : Instant)
    (honce : o.currents.length ≤ 1) (hentry : o.currentEntry.map (·.id) = entry.map (·.id)) :
    (o.superseding entry at_).currents = [] := by
  rw [currentEntry_eq] at hentry
  cases entry with
  | none =>
      change o.currents = []
      simpa using hentry
  | some existing =>
      rw [currents_superseding]
      obtain ⟨si, hsi, hid⟩ := Option.map_eq_some_iff.mp hentry
      have hmem : si ∈ o.currents := List.mem_of_mem_head? hsi
      simp [eq_singleton honce hmem, hid]

end Order

/-! ### The calls that reconcile -/

namespace Call

/-- The calls that record a supplier invoice. -/
def reconciles : Call → Bool
  | .confirmInvoice .. | .replaceInvoice .. => true
  | _ => false

section body
variable {cfg : Settings} {env : Env} {v w : View Doc} {order : OrderDocument}
  {dto : SupplierInvoiceInput} {actorId : Id} {r : OrderDocument × ReconciliationResult} {o : Order}

theorem confirmInvoice_order
    (h : ((confirmInvoice order dto actorId).body cfg).run env v = .ok (r, w))
    (ho : v.find (Key.order order.id) = some o) :
    ∃ t, w.find (Key.order order.id) = some (o.pushSupplierInvoice dto actorId t) := by
  obtain ⟨u, _, _, hrecord, hpush⟩ := confirmInvoice_ok h
  have hu := (recordReconciliation_confined (S := fun k => k ≠ Key.order order.id)
    (by simp) _ _ _ _).find_eq hrecord (k := Key.order order.id) (by simp)
  exact pushConfirmed_ok hpush (hu.trans ho)

theorem supersede_order {entry : SupplierInvoice} {r : Unit}
    (h : (supersede order entry).run env v = .ok (r, w))
    (ho : v.find (Key.order order.id) = some o) :
    ∃ t, w.find (Key.order order.id) = some (o.superseding (some entry) t) := by
  obtain ⟨t, u, ht, h⟩ := bind_ok h
  obtain ⟨-, rfl⟩ := getTime_ok ht
  obtain ⟨updated, u, hupdate, h⟩ := bind_ok h
  obtain ⟨-, rfl⟩ := pure_ok h
  rcases updateOrder_ok hupdate ho with ⟨-, -, hw⟩ | ⟨hmissing, -, rfl⟩
  · exact ⟨t, hw⟩
  · -- No entry has the identifier, so superseding changes none.
    refine ⟨t, ho.trans (congrArg some ?_)⟩
    have hnone : ∀ si ∈ o.supplierInvoices, si.id ≠ entry.id := by simpa using hmissing
    have hmap : (o.supplierInvoices.map fun si =>
        if si.id = entry.id then { si with supersededAt := some t } else si) = o.supplierInvoices :=
      (List.map_congr_left fun si hsi => if_neg (hnone si hsi)).trans (List.map_id _)
    simp only [Order.superseding, hmap]

theorem replaceInvoice_order
    (h : ((replaceInvoice order dto actorId).body cfg).run env v = .ok (r, w))
    (ho : v.find (Key.order order.id) = some o) :
    ∃ t t', w.find (Key.order order.id) =
      some ((o.superseding order.currentEntry t).pushSupplierInvoice dto actorId t') := by
  obtain ⟨u, u', _, _, hsupersede, hrestate, hpush⟩ := replaceInvoice_ok h
  have hu : ∃ t, u.find (Key.order order.id) = some (o.superseding order.currentEntry t) := by
    rcases hsupersede with ⟨hnone, rfl⟩ | ⟨entry, hentry, hsupersede⟩
    · rw [hnone]
      exact ⟨0, ho⟩
    · rw [hentry]
      exact supersede_order hsupersede ho
  obtain ⟨t, hu⟩ := hu
  have hu' := (restateReconciliation_confined (S := fun k => k ≠ Key.order order.id)
    (by simp) _ _ _ _).find_eq hrestate (k := Key.order order.id) (by simp)
  obtain ⟨t', hw⟩ := pushConfirmed_ok hpush (hu'.trans hu)
  exact ⟨t, t', hw⟩

end body
end Call

/-- Any other call leaves the supplier invoices of its order alone. -/
theorem OrderStep.supplierInvoices {cfg : Settings} {time : ℕ → Instant} {c : Call} {o o' : Order}
    (h : OrderStep cfg time c o o') (hc : c.reconciles = false) :
    o'.supplierInvoices = o.supplierInvoices := by
  cases h with
  | route =>
      rename_i order source transportCompanyId deliveryFee actor invoiceId n _ _
      obtain ⟨priceBreakdown, finalPrice, heq⟩ := Order.awaiting_eq cfg o order.id source
        transportCompanyId deliveryFee actor invoiceId (time n) (time (n + 1)) (time (n + 2))
        (time (n + 3))
      rw [heq]
  | assign =>
      rename_i order a driver truck tank client n _
      obtain ⟨clientSummary, ineligible, reason, heq⟩ :=
        Order.assigned_eq o a driver truck tank client (time n)
      rw [heq]
  | confirmInvoice => cases hc
  | replaceInvoice => cases hc
  | _ => rfl

/-- What is recorded of a reconciliation: nothing when the quantities agree. -/
def recordedLitres (litres : ℚ) : List ℚ := if litres = 0 then [] else [litres]

section step
variable {A : Arithmetic} {time : ℕ → Instant} {found left : Docs Doc} {key : BalanceKey} {c : Call}
variable {b b' : LitreBalance}

/-- Only a confirmation or replacement for the order touches its reconciliation. -/
theorem LitreStep.entries_reconciles (h : LitreStep A time found left key c b b') (hb : b.Sound A)
    {id : Id} (hid : c.reconciles = false ∨ c.subject ≠ some id) :
    b'.entries reconciles id = b.entries reconciles id := by
  cases h with
  | draw => exact entries_move_other (A := A) _ _ _ _ _ _ _ (Or.inr rfl)
  | giveBack => exact entries_move_other (A := A) _ _ _ _ _ _ _ (Or.inr rfl)
  | correct => exact entries_move_other (A := A) _ _ _ _ _ _ _ (Or.inr rfl)
  | confirm =>
      have hne := hid.resolve_left (by simp [Call.reconciles])
      exact entries_move_other (A := A) _ _ _ _ _ _ _ (Or.inl hne)
  | replace =>
      have hne := hid.resolve_left (by simp [Call.reconciles])
      exact (entries_move_other (A := A) _ _ _ _ _ _ _ (Or.inl hne)).trans
        (hb.entries_takenBack_other (Or.inl fun e => hne (congrArg some e.symm)))
  | replaceExact =>
      have hne := hid.resolve_left (by simp [Call.reconciles])
      exact hb.entries_takenBack_other (Or.inl fun e => hne (congrArg some e.symm))
  | _ => rfl

theorem reconciled_litres (b : LitreBalance) {litres : ℚ} (hlitres : litres ≠ 0)
    (orderId actorId : Id) (at_ : Instant) :
    ((b.reconciled A litres orderId actorId at_).entries reconciles orderId).map (·.litres) =
      (b.entries reconciles orderId).map (·.litres) ++ recordedLitres litres := by
  have hkind : reconciles (if litres > 0 then .shortfallCredit else .excessDebit) = true := by
    split_ifs <;> rfl
  rw [reconciled_entries, entries_move_self _ _ _ _ _ _ hkind, List.map_append, recordedLitres,
    if_neg hlitres]
  rfl

theorem LitreStep.confirmed {order : OrderDocument} {dto : SupplierInvoiceInput} {actorId : Id}
    (h : LitreStep A time found left (order.reconciledKey dto) (.confirmInvoice order dto actorId) b b') :
    (b'.entries reconciles order.id).map (·.litres) =
      (b.entries reconciles order.id).map (·.litres) ++
        recordedLitres (order.shortfall A dto.confirmed) := by
  cases h with
  | frame htouches => simp [Call.touches, OrderDocument.reconciledKey] at htouches
  | confirm hkey hlitres hfirst => exact reconciled_litres b hlitres _ _ _
  | confirmExact hkey hlitres => simp [recordedLitres, hlitres]

theorem LitreStep.replaced {order : OrderDocument} {dto : SupplierInvoiceInput} {actorId : Id}
    (h : LitreStep A time found left (order.reconciledKey dto) (.replaceInvoice order dto actorId) b b')
    (hb : b.Sound A) :
    (b'.entries reconciles order.id).map (·.litres) =
      recordedLitres (order.shortfall A dto.confirmed) := by
  cases h with
  | frame htouches => simp [Call.touches, OrderDocument.reconciledKey] at htouches
  | replace hkey hlitres hfirst =>
      rw [reconciled_litres _ hlitres, hb.entries_takenBack_self]
      rfl
  | replaceExact hkey hlitres => simp [recordedLitres, hlitres, hb.entries_takenBack_self]

end step

/-! ### The order and its ledger -/

/-- What the ledger should hold of the order's reconciliation. -/
def Order.reconciliation (A : Arithmetic) (o : Order) : List ℚ :=
  o.currents.flatMap fun si => (si.confirmed.map fun data => recordedLitres (o.shortfall A data)).getD []

/-- One current entry at most, and the ledger agrees with it. -/
structure Order.Agrees (A : Arithmetic) (o : Order) (id : Id) (d : Docs Doc) : Prop where
  once : o.currents.length ≤ 1
  ledger : ((balanceOf d o.balanceKey).entries reconciles id).map (·.litres) = o.reconciliation A

theorem Order.reconciliation_push {A : Arithmetic} {o : Order} (hnone : o.currents = [])
    (dto : SupplierInvoiceInput) (actorId : Id) (at_ : Instant) :
    (o.pushSupplierInvoice dto actorId at_).currents.length ≤ 1 ∧
      (o.pushSupplierInvoice dto actorId at_).reconciliation A =
        recordedLitres (o.shortfall A dto.confirmed) := by
  obtain ⟨si, hcurrents, hconfirmed⟩ := o.currents_push dto actorId at_
  rw [hnone, List.nil_append] at hcurrents
  refine ⟨by simp [hcurrents], ?_⟩
  simp only [reconciliation, hcurrents, List.flatMap_cons, List.flatMap_nil, List.append_nil,
    hconfirmed, Option.map_some, Option.getD_some]
  rfl

namespace Call

/-- A confirmation commits on an order without a current entry, a replacement on
one with the current entry of its document. -/
def entryCurrent : Call → Db → Bool
  | .confirmInvoice order _ _, s => (s.order order.id).all fun o => o.currentEntry.isNone
  | .replaceInvoice order _ _, s =>
      (s.order order.id).all fun o => o.currentEntry.map (·.id) = order.currentEntry.map (·.id)
  | _, _ => true

end Call

/-- Every order agrees with its ledger. -/
def LedgerAgrees (A : Arithmetic) (s : Db) : Prop :=
  ∀ id o, s.order id = some o → o.Agrees A id s.docs

section commit
variable {cfg : Settings} {since : Db} {ev : Event Doc Call.Reply}

/-- The order a reconciling commit found, the one it left, and its balance. -/
theorem reconciling_commit (hev : ev.Sound (machine cfg)) (hholds : (evolution cfg since).Holds ev)
    {order : OrderDocument} {dto : SupplierInvoiceInput} (hdoc : ev.label.document = some order)
    (hsubject : ev.label.subject = some order.id)
    (hfuel : dto.confirmed.fuelType = order.fuelType) :
    ∃ o o', ev.base.order order.id = some o ∧ ev.before.order order.id = some o ∧
      ev.after.order order.id = some o' ∧ ev.view.find (Key.order order.id) = some o' ∧
      o.balanceKey = order.reconciledKey dto ∧ o'.balanceKey = order.reconciledKey dto ∧
      o.shortfall cfg.arithmetic dto.confirmed = order.shortfall cfg.arithmetic dto.confirmed := by
  obtain ⟨o, o', hbase, hbefore, hafter, hview, -⟩ := subject_step hev hholds.older hholds.pre hsubject
  obtain ⟨o₁, ho₁, hevolves⟩ := (hholds.pre.1 order hdoc).earlier
  cases ho₁.symm.trans hbase
  obtain ⟨o₂, ho₂, hevolves'⟩ := hholds.before_after.orders _ o hbefore
  cases ho₂.symm.trans hafter
  have hkey : o.balanceKey = order.reconciledKey dto := by
    rw [hevolves.balanceKey]
    simp only [Order.balanceKey, OrderDocument.reconciledKey, hfuel]
  refine ⟨o, o', hbase, hbefore, hafter, hview, hkey, hevolves'.balanceKey.trans hkey, ?_⟩
  simp only [Order.shortfall, hevolves.quantityLiters]

theorem confirm_agrees (hev : ev.Sound (machine cfg)) (hholds : (evolution cfg since).Holds ev)
    {order : OrderDocument} {dto : SupplierInvoiceInput} {actorId : Id}
    (hlabel : ev.label = .confirmInvoice order dto actorId)
    (hcurrent : ev.label.entryCurrent ev.before = true)
    (hbefore : LedgerAgrees cfg.arithmetic ev.before) {o' : Order}
    (ho' : ev.after.order order.id = some o') :
    o'.Agrees cfg.arithmetic order.id ev.after.docs := by
  have hchecked := hholds.pre.2
  rw [hlabel] at hchecked
  obtain ⟨o, o₁, hbase, hbefore', hafter, hview, hkey, hkey', hlitres⟩ :=
    reconciling_commit hev hholds (by rw [hlabel]; rfl) (by rw [hlabel]; rfl) hchecked
  cases hafter.symm.trans ho'
  obtain ⟨r, hran⟩ := ran_as hev hlabel
  obtain ⟨t, hw⟩ := Call.confirmInvoice_order hran hbase
  cases hview.symm.trans hw
  have hnone : o.currents = [] := by
    rw [hlabel] at hcurrent
    simpa [Call.entryCurrent, hbefore', Order.currentEntry_eq] using hcurrent
  obtain ⟨honce, hreconciliation⟩ := Order.reconciliation_push hnone dto actorId t
  refine ⟨honce, ?_⟩
  rw [hreconciliation, hkey', hlitres]
  have hempty := (hbefore _ o hbefore').ledger
  rw [hkey, Order.reconciliation, hnone, List.flatMap_nil] at hempty
  rcases balance_cases hev hholds.older (order.reconciledKey dto) with ⟨-, hstep⟩ | ⟨heq, hstep⟩
  · rw [hlabel] at hstep
    rw [hstep.confirmed, hempty]
    rfl
  · -- The balance was not written, so there was nothing to record.
    rw [hlabel] at hstep
    rw [heq, hempty, List.self_eq_append_right.mp hstep.confirmed]

theorem replace_agrees (hev : ev.Sound (machine cfg)) (hholds : (evolution cfg since).Holds ev)
    {order : OrderDocument} {dto : SupplierInvoiceInput} {actorId : Id}
    (hlabel : ev.label = .replaceInvoice order dto actorId)
    (hcurrent : ev.label.entryCurrent ev.before = true) (hledger : LitreLedger cfg.arithmetic ev.base)
    (hledger' : LitreLedger cfg.arithmetic ev.before) (hbase : LedgerAgrees cfg.arithmetic ev.base)
    (hbefore : LedgerAgrees cfg.arithmetic ev.before) {o' : Order}
    (ho' : ev.after.order order.id = some o') : o'.Agrees cfg.arithmetic order.id ev.after.docs := by
  have hchecked := hholds.pre.2
  rw [hlabel] at hchecked
  obtain ⟨o, o₁, hbase', hbefore', hafter, hview, hkey, hkey', hlitres⟩ :=
    reconciling_commit hev hholds (by rw [hlabel]; rfl) (by rw [hlabel]; rfl) hchecked
  cases hafter.symm.trans ho'
  obtain ⟨r, hran⟩ := ran_as hev hlabel
  obtain ⟨t, t', hw⟩ := Call.replaceInvoice_order hran hbase'
  cases hview.symm.trans hw
  have hagrees := hbefore _ o hbefore'
  have hentry : o.currentEntry.map (·.id) = order.currentEntry.map (·.id) := by
    rw [hlabel] at hcurrent
    simpa [Call.entryCurrent, hbefore'] using hcurrent
  obtain ⟨honce, hreconciliation⟩ := Order.reconciliation_push
    (Order.currents_superseding_nil t hagrees.once hentry) dto actorId t'
  refine ⟨honce, ?_⟩
  have hshortfall : (o.superseding order.currentEntry t).shortfall cfg.arithmetic dto.confirmed =
      order.shortfall cfg.arithmetic dto.confirmed := by
    rw [← hlitres]
    cases order.currentEntry <;> rfl
  rw [hreconciliation, hkey', hshortfall]
  rcases balance_cases hev hholds.older (order.reconciledKey dto) with ⟨-, hstep⟩ | ⟨heq, hstep⟩
  · rw [hlabel] at hstep
    exact hstep.replaced (hledger'.sound _)
  · -- The balance was not written; the snapshot agreed with the same order.
    rw [hlabel] at hstep
    have hsame := (hbase _ o hbase').ledger.trans hagrees.ledger.symm
    rw [hkey] at hsame
    rw [heq, ← hsame]
    exact hstep.replaced (hledger.sound _)

/-- Every commit keeps orders and ledger in agreement, if the reconciling ones
commit on the current entry they read. -/
theorem commit_agrees (hev : ev.Sound (machine cfg)) (hholds : (evolution cfg since).Holds ev)
    (hcurrent : ev.label.entryCurrent ev.before = true) (hledger : LitreLedger cfg.arithmetic ev.base)
    (hledger' : LitreLedger cfg.arithmetic ev.before) (hbase : LedgerAgrees cfg.arithmetic ev.base)
    (hbefore : LedgerAgrees cfg.arithmetic ev.before) : LedgerAgrees cfg.arithmetic ev.after := by
  intro id o' ho'
  -- The ledger of an order the commit does not reconcile is as it was.
  have kept : ∀ {key}, (ev.label.reconciles = false ∨ ev.label.subject ≠ some id) →
      (balanceOf ev.after.docs key).entries reconciles id =
        (balanceOf ev.before.docs key).entries reconciles id := by
    intro key hid
    rcases balance_cases hev hholds.older key with ⟨-, hstep⟩ | ⟨heq, -⟩
    · exact hstep.entries_reconciles (hledger'.sound key) hid
    · rw [heq]
  rcases order_cases hev hholds.older hholds.pre id with ⟨hid, heq⟩ |
    ⟨o₁, o₂, hid, -, ho₁, ho₂, -, hstep⟩ | ⟨fields, userId, hlabel, hnone, hafter⟩
  · have hagrees := hbefore id o' (heq.symm.trans ho')
    exact ⟨hagrees.once, by rw [kept (Or.inr hid)]; exact hagrees.ledger⟩
  · cases ho₂.symm.trans ho'
    by_cases hc : ev.label.reconciles = false
    · have hagrees := hbefore id o₁ ho₁
      have hsame := hstep.supplierInvoices hc
      obtain ⟨o₃, ho₃, hevolves⟩ := hholds.before_after.orders _ o₁ ho₁
      cases ho₃.symm.trans ho'
      have hcurrents : o'.currents = o₁.currents := by simp only [Order.currents, hsame]
      refine ⟨by rw [hcurrents]; exact hagrees.once, ?_⟩
      rw [kept (Or.inl hc), hevolves.balanceKey, hagrees.ledger]
      simp only [Order.reconciliation, hcurrents, Order.shortfall, hevolves.quantityLiters]
    · generalize hlabel : ev.label = c at *
      cases c with
      | confirmInvoice order dto actorId =>
          cases hid
          exact confirm_agrees hev hholds hlabel (hlabel ▸ hcurrent) hbefore ho'
      | replaceInvoice order dto actorId =>
          cases hid
          exact replace_agrees hev hholds hlabel (hlabel ▸ hcurrent) hledger hledger' hbase hbefore ho'
      | _ => exact absurd rfl hc
  · cases hafter.symm.trans ho'
    refine ⟨Nat.zero_le _, ?_⟩
    rw [kept (Or.inl (by rw [hlabel]; rfl))]
    have hempty : (balanceOf ev.before.docs fields.order.balanceKey).entries reconciles id = [] := by
      refine List.eq_nil_iff_forall_not_mem.mpr fun m hm => ?_
      obtain ⟨hmem, horder, -⟩ := mem_entries.mp hm
      obtain ⟨o, ho, -⟩ := hledger'.owned _ m hmem id horder
      exact absurd (ho.symm.trans hnone) (by simp)
    rw [hempty]
    rfl

end commit

/-- At most one supplier invoice is current; if one is, the reconciliation
recorded for the order, over all balances, is its shortfall. -/
def OneCurrentEntry (A : Arithmetic) (s : Db) (id : Id) (o : Order) : Prop :=
  o.currents.length ≤ 1 ∧ ∀ si ∈ o.currents, ∀ data, si.confirmed = some data → ∀ key,
    ((balanceOf s.docs key).entries reconciles id).map (·.litres) =
      if key = o.balanceKey then recordedLitres (o.shortfall A data) else []

/-- In every run whose confirmations and replacements commit on the current entry
they read, every order has one current entry at most and the ledger agrees. -/
theorem one_current_entry {cfg : Settings} {log : List (Event Doc Call.Reply)}
    {s : Sys Doc Call.Reply Refusal Answer}
    (h : Run (machine cfg) Store.empty (fun ev => ev.label.entryCurrent ev.before = true) log s)
    {id : Id} {o : Order} (ho : s.store.order id = some o) :
    OneCurrentEntry cfg.arithmetic s.store id o := by
  obtain ⟨⟨hledger, hagrees⟩, -⟩ := db_invariant
    (I := fun s => LitreLedger cfg.arithmetic s ∧ LedgerAgrees cfg.arithmetic s)
    consistent_empty ⟨litreLedger_empty, fun id o ho => (by cases ho)⟩
    (fun ev hev hcurrent hholds hbase hbefore => ⟨commit_litreLedger hev hholds hbefore.1,
      commit_agrees hev hholds hcurrent hbase.1 hbefore.1 hbase.2 hbefore.2⟩) h
  obtain ⟨honce, hlitres⟩ := hagrees id o ho
  refine ⟨honce, fun si hsi data hdata key => ?_⟩
  split_ifs with hkey
  · subst hkey
    rw [hlitres, Order.reconciliation, eq_singleton honce hsi]
    simp [hdata]
  · rw [hledger.entries_elsewhere ho hkey]
    rfl

theorem one_current_entry_restated :
    ∃ log s o, Run (machine Sample.cfg) Store.empty
        (fun ev => ev.label.entryCurrent ev.before = true) log s ∧
      s.store.order 100 = some o ∧ o.supplierInvoices.length = 2 ∧
      OneCurrentEntry Sample.cfg.arithmetic s.store 100 o := by
  obtain ⟨log, s, hrun, htest⟩ := exists_run (machine Sample.cfg) Store.empty
    (fun ev => ev.label.entryCurrent ev.before = true) Sample.restated
    (fun _ s => (s.store.order 100).any fun o => o.supplierInvoices.length = 2)
    (by decide +kernel)
  obtain ⟨o, ho, hlength⟩ := (Option.any_eq_true _ _).mp htest
  exact ⟨log, s, o, hrun, ho, of_decide_eq_true hlength, one_current_entry hrun ho⟩

/-- Two invoices of exactly the ordered quantity, both confirmed from the order as
it was before either. -/
def Sample.confirmedTwice : List (Act Request) :=
  opening ++ serve (.create client (order .direct)) 10 6 100 ++
    [Act.arrive (Request.confirmInvoice fuelAdmin 100 (supply 1000)), .step 11,
      .arrive (.confirmInvoice fuelAdmin 100 (supply 1000)), .step 12,
      .step 11, .step 11, .step 12, .step 12]

theorem one_current_entry_confirmedTwice :
    ¬ ∀ (log : List (Event Doc Call.Reply)) (s : Sys Doc Call.Reply Refusal Answer),
      Run (machine Sample.cfg) Store.empty (fun _ => True) log s →
      ∀ id o, s.store.order id = some o → OneCurrentEntry Sample.cfg.arithmetic s.store id o := by
  intro hclaim
  obtain ⟨log, s, hrun, htest⟩ := exists_run (machine Sample.cfg) Store.empty (fun _ => True)
    Sample.confirmedTwice (fun _ s => (s.store.order 100).any fun o => o.currents.length = 2)
    (by decide +kernel)
  obtain ⟨o, ho, hlength⟩ := (Option.any_eq_true _ _).mp htest
  obtain ⟨honce, -⟩ := hclaim log s hrun 100 o ho
  rw [of_decide_eq_true hlength] at honce
  omega

end CiroFuel
