import CiroFuel.Billed

/-!
# What a call records on the platform account

Movements are only ever added, but for a company's payment, which the operator
confirms once. Routing may charge commission for the invoice it issues, settling
may credit cashback, voiding reverses what was accrued for the invoice. Each is
described by what was stored before, so that commits can be compared with the
state they commit to.
-/
namespace CiroFuel
open Snapshot Tx

namespace Snapshot.Store

def accountMovement (s : Store Doc) (id : Id) : Option AccountMovement :=
  s.find (Key.accountMovement id)

end Snapshot.Store

/-! ### Reading one collection -/

theorem Docs.mem_collect {α : Type} {pick : (k : Key) → Doc k → Option α} {d : Docs Doc} {a : α} :
    a ∈ Docs.collect pick d ↔ ∃ (k : Key) (x : Doc k), d.lookup k = some x ∧ pick k x = some a := by
  constructor
  · intro h
    obtain ⟨⟨k, x⟩, he, hpick⟩ := List.mem_filterMap.mp h
    exact ⟨k, x, AList.mem_lookup_iff.mpr he, hpick⟩
  · rintro ⟨k, x, hx, hpick⟩
    exact List.mem_filterMap.mpr ⟨⟨k, x⟩, AList.mem_lookup_iff.mp hx, hpick⟩

/-- What is collected from elsewhere is collected in the same order. -/
theorem Snapshot.Tx.SameOff.collect {α : Type} {S : Key → Prop} {d d' : Docs Doc}
    (h : SameOff S d d') {pick : (k : Key) → Doc k → Option α}
    (hpick : ∀ k x, S k → pick k x = none) :
    Docs.collect pick d' = Docs.collect pick d := by
  have picked : ∀ d : Docs Doc, Docs.collect pick d =
      (d.entries.filter fun e => (pick e.1 e.2).isSome).filterMap fun e => pick e.1 e.2 := by
    intro d
    rw [List.filterMap_filter, Docs.collect]
    congr 1
    funext e
    cases pick e.1 e.2 <;> rfl
  have hsame := h (fun e => (pick e.1 e.2).isSome) fun e he hS => by
    rw [hpick e.1 e.2 hS] at he
    cases he
  rw [picked d', picked d, hsame]

theorem mem_collect_movement {d : Docs Doc} {m : Id} {y : AccountMovement} :
    (m, y) ∈ Docs.collect pickAccountMovement d ↔ d.lookup (Key.accountMovement m) = some y := by
  rw [Docs.mem_collect]
  constructor
  · rintro ⟨k, x, hx, hpick⟩
    cases k with
    | accountMovement id =>
        cases hpick
        exact hx
    | _ => cases hpick
  · intro h
    exact ⟨_, _, h, rfl⟩

theorem mem_collect_term {d : Docs Doc} {id : Id} {term : CommissionTerm} :
    (id, term) ∈ Docs.collect pickCommissionTerm d ↔
      d.lookup (Key.commissionTerm id) = some term := by
  rw [Docs.mem_collect]
  constructor
  · rintro ⟨k, x, hx, hpick⟩
    cases k with
    | commissionTerm id =>
        cases hpick
        exact hx
    | _ => cases hpick
  · intro h
    exact ⟨_, _, h, rfl⟩

/-! ### The record in force -/

section latest
variable {α : Type} {effectiveFrom : α → ℕ}

/-- `r` takes effect no later than `n`. -/
def NoLater (effectiveFrom : α → ℕ) (r n : ℕ × α) : Prop :=
  effectiveFrom r.2 < effectiveFrom n.2 ∨ effectiveFrom r.2 = effectiveFrom n.2 ∧ r.1 ≤ n.1

theorem NoLater.refl (r : ℕ × α) : NoLater effectiveFrom r r := Or.inr ⟨rfl, le_rfl⟩

theorem NoLater.trans {a b c : ℕ × α} (hab : NoLater effectiveFrom a b)
    (hbc : NoLater effectiveFrom b c) : NoLater effectiveFrom a c := by
  unfold NoLater at *
  omega

theorem NoLater.antisymm {a b : ℕ × α} (hab : NoLater effectiveFrom a b)
    (hba : NoLater effectiveFrom b a) : a.1 = b.1 := by
  unfold NoLater at *
  omega

/-- The fold keeps the latest of what it has seen. -/
theorem latest_fold (records : List (ℕ × α)) (newest : Option (ℕ × α)) {n : ℕ × α}
    (h : records.foldl
      (fun newest r =>
        match newest with
        | some n =>
            if effectiveFrom n.2 < effectiveFrom r.2 ||
                (effectiveFrom n.2 = effectiveFrom r.2 && n.1 < r.1) then some r else some n
        | none => some r)
      newest = some n) :
    (n ∈ records ∨ newest = some n) ∧ (∀ r ∈ records, NoLater effectiveFrom r n) ∧
      ∀ m, newest = some m → NoLater effectiveFrom m n := by
  induction records generalizing newest with
  | nil =>
      refine ⟨Or.inr h, by simp, fun m hm => ?_⟩
      cases hm.symm.trans h
      exact NoLater.refl _
  | cons r rest ih =>
      rw [List.foldl_cons] at h
      obtain ⟨hfrom, hrest, hstart⟩ := ih _ h
      have hboth : NoLater effectiveFrom r n ∧ ∀ m, newest = some m → NoLater effectiveFrom m n := by
        cases newest with
        | none => exact ⟨hstart r rfl, by simp⟩
        | some m =>
            dsimp only at hstart
            split_ifs at hstart with hlater
            · refine ⟨hstart r rfl, fun m' hm' => ?_⟩
              cases hm'
              refine NoLater.trans ?_ (hstart r rfl)
              simp only [Bool.or_eq_true, Bool.and_eq_true, decide_eq_true_eq] at hlater
              unfold NoLater
              omega
            · refine ⟨NoLater.trans ?_ (hstart m rfl), fun m' hm' => ?_⟩
              · simp only [Bool.or_eq_true, Bool.and_eq_true, decide_eq_true_eq] at hlater
                unfold NoLater
                omega
              · cases hm'
                exact hstart m rfl
      refine ⟨?_, fun r' hr' => ?_, hboth.2⟩
      · rcases hfrom with hmem | heq
        · exact Or.inl (List.mem_cons_of_mem _ hmem)
        · cases newest with
          | none =>
              cases heq
              exact Or.inl List.mem_cons_self
          | some m =>
              dsimp only at heq
              split_ifs at heq
              · cases heq
                exact Or.inl List.mem_cons_self
              · exact Or.inr heq
      · rcases List.mem_cons.mp hr' with rfl | hmem
        · exact hboth.1
        · exact hrest r' hmem

theorem latest_some {records : List (ℕ × α)} {a : α} (h : latest effectiveFrom records = some a) :
    ∃ id, (id, a) ∈ records ∧ ∀ r ∈ records, NoLater effectiveFrom r (id, a) := by
  obtain ⟨⟨id, b⟩, hfold, rfl⟩ := Option.map_eq_some_iff.mp h
  obtain ⟨hfrom, hall, -⟩ := latest_fold records none hfold
  exact ⟨id, hfrom.resolve_right (by simp), hall⟩

theorem latest_isSome {records : List (ℕ × α)} {r : ℕ × α} (h : r ∈ records) :
    (latest effectiveFrom records).isSome = true := by
  have kept : ∀ (records : List (ℕ × α)) (n : ℕ × α), (records.foldl
      (fun newest r =>
        match newest with
        | some n =>
            if effectiveFrom n.2 < effectiveFrom r.2 ||
                (effectiveFrom n.2 = effectiveFrom r.2 && n.1 < r.1) then some r else some n
        | none => some r)
      (some n)).isSome = true := by
    intro records
    induction records with
    | nil => exact fun n => rfl
    | cons r rest ih =>
        intro n
        rw [List.foldl_cons]
        dsimp only
        split_ifs <;> exact ih _
  cases records with
  | nil => cases h
  | cons first rest =>
      rw [latest, Option.isSome_map]
      exact kept rest first

end latest

/-- The commission term in force: the latest by effective date, ties broken by id. -/
def InForce (d : Docs Doc) (term : CommissionTerm) : Prop :=
  ∃ id, d.lookup (Key.commissionTerm id) = some term ∧
    ∀ id' term', d.lookup (Key.commissionTerm id') = some term' →
      NoLater (·.effectiveFrom) (id', term') (id, term)

theorem inForce_of_latest {d : Docs Doc} {term : CommissionTerm}
    (h : latest (·.effectiveFrom) (Docs.collect pickCommissionTerm d) = some term) :
    InForce d term := by
  obtain ⟨id, hmem, hall⟩ := latest_some h
  exact ⟨id, mem_collect_term.mp hmem, fun id' term' h' => hall _ (mem_collect_term.mpr h')⟩

/-- There is one such term, and the code finds it. -/
theorem InForce.latest_eq {d : Docs Doc} {term : CommissionTerm} (h : InForce d term) :
    latest (·.effectiveFrom) (Docs.collect pickCommissionTerm d) = some term := by
  obtain ⟨id, hid, hall⟩ := h
  have hsome : (latest (fun t : CommissionTerm => t.effectiveFrom)
      (Docs.collect pickCommissionTerm d)).isSome = true := latest_isSome (mem_collect_term.mpr hid)
  obtain ⟨found, hfound⟩ := Option.isSome_iff_exists.mp hsome
  obtain ⟨id', hid', hall'⟩ := inForce_of_latest hfound
  have hsame : id = id' := (hall' id term hid).antisymm (hall id' found hid')
  subst hsame
  exact hfound.trans (hid'.symm.trans hid)

theorem InForce.congr {d d' : Docs Doc} {term : CommissionTerm} (h : InForce d term)
    (heq : ∀ id, d'.lookup (Key.commissionTerm id) = d.lookup (Key.commissionTerm id)) :
    InForce d' term := by
  obtain ⟨id, hid, hall⟩ := h
  exact ⟨id, (heq id).trans hid, fun id' term' h' => hall id' term' ((heq id').symm.trans h')⟩

/-! ### Adding movements -/

/-- `d'` has the created movements, under new ids, besides those of `d`. -/
structure Records (d d' : Docs Doc) (created : List (Id × AccountMovement)) : Prop where
  distinct : (created.map Prod.fst).Nodup
  fresh : ∀ e ∈ created, d.lookup (Key.accountMovement e.1) = none
  stored : ∀ e ∈ created, d'.lookup (Key.accountMovement e.1) = some e.2
  others : ∀ m, m ∉ created.map Prod.fst →
    d'.lookup (Key.accountMovement m) = d.lookup (Key.accountMovement m)

namespace Records
variable {d d' d'' : Docs Doc} {created created' : List (Id × AccountMovement)} {m : Id}

theorem nil (h : ∀ m, d'.lookup (Key.accountMovement m) = d.lookup (Key.accountMovement m)) :
    Records d d' [] where
  distinct := List.nodup_nil
  fresh := by simp
  stored := by simp
  others := fun m _ => h m

/-- A stored movement was there before, or has been created. -/
theorem cases (h : Records d d' created) {y : AccountMovement}
    (hy : d'.lookup (Key.accountMovement m) = some y) :
    d.lookup (Key.accountMovement m) = some y ∨ (m, y) ∈ created := by
  by_cases hm : m ∈ created.map Prod.fst
  · obtain ⟨⟨m', y'⟩, he, rfl⟩ := List.mem_map.mp hm
    cases hy.symm.trans (h.stored _ he)
    exact Or.inr he
  · exact Or.inl ((h.others m hm).symm.trans hy)

/-- What was there stays. -/
theorem kept (h : Records d d' created) {y : AccountMovement}
    (hy : d.lookup (Key.accountMovement m) = some y) :
    d'.lookup (Key.accountMovement m) = some y := by
  rw [h.others m, hy]
  intro hm
  obtain ⟨e, he, rfl⟩ := List.mem_map.mp hm
  exact absurd ((h.fresh e he).symm.trans hy) (by simp)

theorem trans (h : Records d d' created) (h' : Records d' d'' created') :
    Records d d'' (created ++ created') where
  distinct := by
    rw [List.map_append, List.nodup_append]
    refine ⟨h.distinct, h'.distinct, fun m hm m' hm' hmm => ?_⟩
    subst hmm
    obtain ⟨e, he, rfl⟩ := List.mem_map.mp hm
    obtain ⟨e', he', heq⟩ := List.mem_map.mp hm'
    exact absurd ((h'.fresh e' he').symm.trans (heq ▸ h.stored e he)) (by simp)
  fresh := by
    intro e he
    rcases List.mem_append.mp he with hmem | hmem
    · exact h.fresh e hmem
    · have hnone := h'.fresh e hmem
      by_cases hm : e.1 ∈ created.map Prod.fst
      · obtain ⟨e₀, he₀, heq⟩ := List.mem_map.mp hm
        exact absurd (hnone.symm.trans (heq ▸ h.stored e₀ he₀)) (by simp)
      · exact (h.others _ hm).symm.trans hnone
  stored := by
    intro e he
    rcases List.mem_append.mp he with hmem | hmem
    · exact h'.kept (h.stored e hmem)
    · exact h'.stored e hmem
  others := by
    intro m hm
    rw [List.map_append, List.mem_append, not_or] at hm
    exact (h'.others m hm.2).trans (h.others m hm.1)

/-- Only the movements matter. -/
theorem congr (h : Records d d' created) {a b : Docs Doc}
    (ha : ∀ m, a.lookup (Key.accountMovement m) = d.lookup (Key.accountMovement m))
    (hb : ∀ m, b.lookup (Key.accountMovement m) = d'.lookup (Key.accountMovement m)) :
    Records a b created where
  distinct := h.distinct
  fresh := fun e he => (ha _).trans (h.fresh e he)
  stored := fun e he => (hb _).trans (h.stored e he)
  others := fun m hm => (hb m).trans ((h.others m hm).trans (ha m).symm)

end Records

/-! ### The operations -/

/-- The movement is an accrual for the invoice, not the reversal of one. -/
def AccountMovement.OriginalOf (y : AccountMovement) (i : Id) : Prop :=
  y.sourceInvoiceId = some i ∧ y.reversalOfId = none

/-- What undoes a movement. -/
def AccountMovement.reversal (original : AccountMovement) (id : Id) : AccountMovement where
  companyId := original.companyId
  kind := original.kind
  amount := original.amount
  state := .confirmed
  sourceInvoiceId := original.sourceInvoiceId
  appliedRate := original.appliedRate
  appliedBasis := original.appliedBasis
  reversalOfId := some id

/-- The commission a term charges for an invoice. -/
def CommissionTerm.charge (A : Arithmetic) (term : CommissionTerm) (invoice : InvoiceDocument) :
    AccountMovement where
  companyId := invoice.fuelCompanyId
  kind := .commissionCharged
  amount := computeAmount A term.basis term.rate invoice.amount
  state := .confirmed
  sourceInvoiceId := some invoice.id
  appliedRate := some term.rate
  appliedBasis := some term.basis

/-- The cashback a programme credits for an invoice. -/
def CashbackProgramme.credit (A : Arithmetic) (programme : CashbackProgramme)
    (invoice : InvoiceDocument) : AccountMovement where
  companyId := invoice.fuelCompanyId
  kind := .cashbackCredited
  amount := computeAmount A programme.basis programme.rate invoice.amount
  state := .confirmed
  sourceInvoiceId := some invoice.id
  appliedRate := some programme.rate
  appliedBasis := some programme.basis

def cashbackOwed (A : Arithmetic) (d : Docs Doc) (companyId : Id) : ℚ :=
  A.round (confirmedBalance A d companyId .cashbackCredited -
    confirmedBalance A d companyId .cashbackPaidOut)

section operations
variable {A : Arithmetic} {env : Env} {v w : View Doc}

theorem getConfirmedBalance_ok {companyId : Id} {kind : AccountMovementKind} {r : ℚ}
    (h : (getConfirmedBalance A companyId kind).run env v = .ok (r, w)) :
    r = confirmedBalance A v.docs companyId kind ∧ w = v := by
  obtain ⟨d, u, hscan, h⟩ := bind_ok h
  obtain ⟨rfl, rfl⟩ := scan_ok hscan
  obtain ⟨rfl, rfl⟩ := pure_ok h
  exact ⟨rfl, rfl⟩

theorem getCashbackOwed_ok {companyId : Id} {r : ℚ}
    (h : (getCashbackOwed A companyId).run env v = .ok (r, w)) :
    r = cashbackOwed A v.docs companyId ∧ w = v := by
  obtain ⟨credited, u, hcredited, h⟩ := bind_ok h
  obtain ⟨rfl, rfl⟩ := getConfirmedBalance_ok hcredited
  obtain ⟨paidOut, u', hpaid, h⟩ := bind_ok h
  obtain ⟨rfl, rfl⟩ := getConfirmedBalance_ok hpaid
  obtain ⟨rfl, rfl⟩ := pure_ok h
  exact ⟨rfl, rfl⟩

theorem createMovement_ok {movement : AccountMovement} {r : Id}
    (h : (createMovement movement).run env v = .ok (r, w)) :
    Records v.docs w.docs [(r, movement)] := by
  obtain ⟨id, u, hid, h⟩ := bind_ok h
  obtain ⟨-, rfl⟩ := freshId_ok hid
  obtain ⟨_, u, hinsert, h⟩ := bind_ok h
  obtain ⟨rfl, rfl⟩ := pure_ok h
  obtain ⟨hnone, -, rfl⟩ := insert_ok hinsert
  refine ⟨by simp, ?_, ?_, fun m hm => ?_⟩
  · intro e he
    rw [List.mem_singleton.mp he]
    exact hnone
  · intro e he
    rw [List.mem_singleton.mp he]
    exact View.find_put_self _ _ _
  · exact Docs.lookup_put_ne (by simpa using hm)

/-- Every movement of the list is undone, in its order. -/
theorem createReversals_ok (originals : List (Id × AccountMovement)) {v : View Doc} {r : Unit}
    (h : (createReversals originals).run env v = .ok (r, w)) :
    ∃ created, Records v.docs w.docs created ∧
      created.map Prod.snd = originals.map fun e => e.2.reversal e.1 := by
  induction originals generalizing v with
  | nil =>
      obtain ⟨-, rfl⟩ := pure_ok h
      exact ⟨[], .nil fun _ => rfl, rfl⟩
  | cons e rest ih =>
      obtain ⟨m, u, hcreate, h⟩ := bind_ok h
      obtain ⟨created, hrest, hmap⟩ := ih h
      exact ⟨_, (createMovement_ok hcreate).trans hrest, congrArg _ hmap⟩

theorem getCurrentCommissionTerm_ok {r : Option CommissionTerm}
    (h : getCurrentCommissionTerm.run env v = .ok (r, w)) :
    w = v ∧ ∀ term, r = some term → InForce v.docs term := by
  obtain ⟨d, u, hscan, h⟩ := bind_ok h
  obtain ⟨rfl, rfl⟩ := scan_ok hscan
  obtain ⟨rfl, rfl⟩ := pure_ok h
  exact ⟨rfl, fun term hterm => inForce_of_latest hterm⟩

/-- Commission is charged at most once, and at the term in force. -/
theorem accrueCommission_ok {order : OrderDocument} {invoice : InvoiceDocument} {r : Unit}
    (hcompany : invoice.fuelCompanyId = order.fuelCompanyId)
    (h : (accrueCommission A order invoice).run env v = .ok (r, w)) :
    ∃ created, Records v.docs w.docs created ∧ (created = [] ∨ ∃ m term, InForce v.docs term ∧
      0 < (term.charge A invoice).amount ∧ created = [(m, term.charge A invoice)]) := by
  obtain ⟨found, u, hfound, h⟩ := bind_ok h
  obtain ⟨rfl, hterm⟩ := getCurrentCommissionTerm_ok hfound
  cases found with
  | none =>
      obtain ⟨-, rfl⟩ := pure_ok h
      exact ⟨[], .nil fun _ => rfl, Or.inl rfl⟩
  | some term =>
      dsimp only at h
      split_ifs at h with hpos
      · obtain ⟨-, rfl⟩ := pure_ok h
        exact ⟨[], .nil fun _ => rfl, Or.inl rfl⟩
      · obtain ⟨m, u', hcreate, h⟩ := bind_ok h
        obtain ⟨-, rfl⟩ := pure_ok h
        rw [← hcompany] at hcreate
        exact ⟨_, createMovement_ok hcreate,
          Or.inr ⟨m, term, hterm term rfl, Rat.not_le.mp hpos, rfl⟩⟩

theorem accrueCashback_ok {invoice : InvoiceDocument} {r : Unit}
    (h : (accrueCashback A invoice).run env v = .ok (r, w)) :
    ∃ created, Records v.docs w.docs created ∧ (created = [] ∨ ∃ (m : Id)
      (programme : CashbackProgramme), 0 < (programme.credit A invoice).amount ∧
      created = [(m, programme.credit A invoice)]) := by
  obtain ⟨found, u, hfound, h⟩ := bind_ok h
  obtain ⟨d, u', hscan, hfound⟩ := bind_ok hfound
  obtain ⟨rfl, rfl⟩ := scan_ok hscan
  obtain ⟨rfl, rfl⟩ := pure_ok hfound
  split at h
  · obtain ⟨-, rfl⟩ := pure_ok h
    exact ⟨[], .nil fun _ => rfl, Or.inl rfl⟩
  · rename_i programme _
    dsimp only at h
    split_ifs at h with hpos
    · obtain ⟨-, rfl⟩ := pure_ok h
      exact ⟨[], .nil fun _ => rfl, Or.inl rfl⟩
    · obtain ⟨m, u', hcreate, h⟩ := bind_ok h
      obtain ⟨-, rfl⟩ := pure_ok h
      simp only [Bool.or_eq_true, decide_eq_true_eq, not_or] at hpos
      exact ⟨_, createMovement_ok hcreate, Or.inr ⟨m, programme, Rat.not_le.mp hpos.2, rfl⟩⟩

/-- Cashback is credited only to an invoice that settling has just changed. -/
theorem applySettlement_account {invoice r : InvoiceDocument} {ref : Option ℕ}
    (h : (applySettlement A invoice ref).run env v = .ok (r, w))
    (hfind : v.find (Key.invoice invoice.id) = some invoice.toInvoice) :
    ∃ created, Records v.docs w.docs created ∧ (created = [] ∨ ∃ (m : Id)
      (programme : CashbackProgramme) (x' : Invoice), invoice.state = .issued ∧
      w.find (Key.invoice invoice.id) = some x' ∧ x'.state = .settled ∧
      0 < (programme.credit A invoice).amount ∧ created = [(m, programme.credit A invoice)]) := by
  have hself := (applySettlement_ok h hfind).2
  unfold applySettlement at h
  split_ifs at h with hstate
  · obtain ⟨-, rfl⟩ := pure_ok h
    exact ⟨[], .nil fun _ => rfl, Or.inl rfl⟩
  · have hissued : invoice.state = .issued := by simpa using hstate
    obtain ⟨n, hw⟩ := (hself.resolve_left fun hclosed => hclosed.1 hissued).2
    obtain ⟨t, u, ht, h⟩ := bind_ok h
    obtain ⟨rfl, rfl⟩ := getTime_ok ht
    obtain ⟨_, u, hupdate, h⟩ := bind_ok h
    obtain ⟨_, u', haccrue, h⟩ := bind_ok h
    obtain ⟨-, rfl⟩ := pure_ok h
    obtain ⟨created, hrecords, hcreated⟩ := accrueCashback_ok haccrue
    have hmovements : ∀ m, u.docs.lookup (Key.accountMovement m) =
        v.docs.lookup (Key.accountMovement m) := fun m =>
      (Confined.findOneAndUpdate (S := fun k => k = Key.invoice invoice.id) rfl).find_eq hupdate
        (by simp)
    refine ⟨created, hrecords.congr (fun m => (hmovements m).symm) fun _ => rfl, ?_⟩
    rcases hcreated with hnil | ⟨m, programme, hpos, heq⟩
    · exact Or.inl hnil
    · exact Or.inr ⟨m, programme, _, hissued, hw, rfl, hpos, heq⟩

/-- What voiding undoes: every confirmed accrual for the invoice that is not
undone yet, once. -/
structure Reverses (d d' : Docs Doc) (created : List (Id × AccountMovement)) : Prop where
  each : ∀ e ∈ created, ∃ i x m y, d.lookup (Key.invoice i) = some x ∧ x.state = .issued ∧
    d'.lookup (Key.invoice i) = some x.voided ∧ d.lookup (Key.accountMovement m) = some y ∧
    y.OriginalOf i ∧ e.2 = y.reversal m
  all : ∀ i x m y, d.lookup (Key.invoice i) = some x → x.state = .issued →
    d'.lookup (Key.invoice i) = some x.voided → d.lookup (Key.accountMovement m) = some y →
    y.OriginalOf i → y.state = .confirmed →
    (∀ r z, d.lookup (Key.accountMovement r) = some z → z.reversalOfId ≠ some m) →
    ∃ r, (r, y.reversal m) ∈ created
  once : (created.map fun e => e.2.reversalOfId).Nodup

theorem collect_movement_nodup (d : Docs Doc) :
    ((Docs.collect pickAccountMovement d).map Prod.fst).Nodup := by
  rw [Docs.collect, List.Nodup, List.pairwise_map, List.pairwise_filterMap]
  refine d.nodupKeys.pairwise_ne.imp ?_
  rintro ⟨k, x⟩ ⟨k', x'⟩ hne ⟨m, y⟩ hpick ⟨m', y'⟩ hpick' hmm
  cases k with
  | accountMovement id =>
      cases k' with
      | accountMovement id' =>
          cases hpick
          cases hpick'
          exact hne (congrArg Key.accountMovement hmm)
      | _ => cases hpick'
  | _ => cases hpick

theorem mem_unreversed {d : Docs Doc} {i m : Id} {y : AccountMovement} :
    (m, y) ∈ unreversedMovements d i ↔ d.lookup (Key.accountMovement m) = some y ∧
      y.OriginalOf i ∧ y.state = .confirmed ∧
      ∀ r z, d.lookup (Key.accountMovement r) = some z → z.reversalOfId ≠ some m := by
  unfold unreversedMovements AccountMovement.OriginalOf
  simp only [List.mem_filter, mem_collect_movement, Bool.and_eq_true, decide_eq_true_eq,
    Option.isNone_iff_eq_none, Bool.not_eq_true', List.any_eq_false]
  constructor
  · rintro ⟨⟨hy, ⟨hsource, hstate⟩, hnone⟩, hall⟩
    exact ⟨hy, ⟨hsource, hnone⟩, hstate, fun r z hz => hall (r, z) (mem_collect_movement.mpr hz)⟩
  · rintro ⟨hy, ⟨hsource, hnone⟩, hstate, hall⟩
    exact ⟨⟨hy, ⟨hsource, hstate⟩, hnone⟩, fun e he => hall e.1 e.2 (mem_collect_movement.mp he)⟩

theorem Invoice.voided_ne {x : Invoice} (h : x.state = .issued) : x.voided ≠ x := by
  intro heq
  have hstate := congrArg Invoice.state heq
  rw [h] at hstate
  cases hstate

theorem reverses_nothing {d d' : Docs Doc}
    (h : ∀ i, d'.lookup (Key.invoice i) = d.lookup (Key.invoice i)) : Reverses d d' [] where
  each := by simp
  all := by
    intro i x m y hx hissued hx' hy horiginal hstate hunreversed
    exact absurd (Option.some.inj (hx'.symm.trans ((h i).trans hx))) (Invoice.voided_ne hissued)
  once := List.nodup_nil

/-- The accruals not undone yet are undone, each once. -/
theorem reverseMovementsForInvoice_ok {i : Id} {r : Unit}
    (h : (reverseMovementsForInvoice i).run env v = .ok (r, w)) :
    ∃ created, Records v.docs w.docs created ∧
      (∀ e ∈ created, ∃ m y, (m, y) ∈ unreversedMovements v.docs i ∧ e.2 = y.reversal m) ∧
      (∀ m y, (m, y) ∈ unreversedMovements v.docs i → ∃ r, (r, y.reversal m) ∈ created) ∧
      (created.map fun e => e.2.reversalOfId).Nodup := by
  obtain ⟨d, u, hscan, h⟩ := bind_ok h
  obtain ⟨rfl, rfl⟩ := scan_ok hscan
  obtain ⟨created, hrecords, hmap⟩ := createReversals_ok _ h
  refine ⟨created, hrecords, fun e he => ?_, fun m y hmy => ?_, ?_⟩
  · have hmem : e.2 ∈ created.map Prod.snd := List.mem_map.mpr ⟨e, he, rfl⟩
    rw [hmap] at hmem
    obtain ⟨⟨m, y⟩, hmy, heq⟩ := List.mem_map.mp hmem
    exact ⟨m, y, hmy, heq.symm⟩
  · have hmem : y.reversal m ∈ created.map Prod.snd := by
      rw [hmap]
      exact List.mem_map.mpr ⟨(m, y), hmy, rfl⟩
    obtain ⟨⟨r, z⟩, hr, rfl⟩ := List.mem_map.mp hmem
    exact ⟨r, hr⟩
  · have hids : (created.map fun e => e.2.reversalOfId) =
        ((unreversedMovements u.docs i).map Prod.fst).map some := by
      calc (created.map fun e => e.2.reversalOfId)
          = (created.map Prod.snd).map fun y : AccountMovement => y.reversalOfId := by
            rw [List.map_map]
            rfl
        _ = ((unreversedMovements u.docs i).map Prod.fst).map some := by
            rw [hmap, List.map_map, List.map_map]
            rfl
    rw [hids]
    refine List.Nodup.map (fun _ _ => Option.some.inj) ?_
    refine (collect_movement_nodup u.docs).sublist (List.Sublist.map _ ?_)
    exact List.filter_sublist.trans List.filter_sublist

theorem voidInvoice_account {orderId : Id} {r : Unit} (hv : v.docs.Unique)
    (h : (voidInvoice orderId).run env v = .ok (r, w)) :
    ∃ created, Records v.docs w.docs created ∧ Reverses v.docs w.docs created := by
  obtain ⟨hothers, hself⟩ := voidInvoice_ok hv h
  obtain ⟨d, u, hscan, h⟩ := bind_ok h
  obtain ⟨rfl, rfl⟩ := scan_ok hscan
  split at h
  · obtain ⟨-, rfl⟩ := pure_ok h
    exact ⟨[], .nil fun _ => rfl, reverses_nothing fun _ => rfl⟩
  · rename_i invoice hinvoice
    obtain ⟨hfind, horder⟩ := findInvoiceOf_some hinvoice
    split_ifs at h with hstate
    · obtain ⟨-, rfl⟩ := pure_ok h
      exact ⟨[], .nil fun _ => rfl, reverses_nothing fun _ => rfl⟩
    · have hissued : invoice.state = .issued := by simpa using hstate
      obtain ⟨updated, u', hupdate, h⟩ := bind_ok h
      have hmovements : ∀ m, u'.docs.lookup (Key.accountMovement m) =
          u.docs.lookup (Key.accountMovement m) := fun m =>
        (Confined.findOneAndUpdate (S := fun k => k = Key.invoice invoice.id) rfl).find_eq hupdate
          (by simp)
      rcases findOneAndUpdate_ok hupdate with ⟨x, -, -, -, rfl, -⟩ | ⟨-, -, hnone⟩
      · obtain ⟨x', hx', rfl⟩ := (hself _ _ hfind horder).issued hissued
        obtain ⟨created, hrecords, heach, hall, honce⟩ := reverseMovementsForInvoice_ok h
        refine ⟨created, hrecords.congr (fun m => (hmovements m).symm) fun _ => rfl, ?_, ?_, honce⟩
        · intro e he
          obtain ⟨m, y, hmy, heq⟩ := heach e he
          obtain ⟨hy, horiginal, -, -⟩ := mem_unreversed.mp hmy
          exact ⟨invoice.id, _, m, y, hfind, hissued, hx', (hmovements m).symm.trans hy, horiginal, heq⟩
        · intro i z m y hz hzissued hz' hy horiginal hconfirmed hunreversed
          have hi : i = invoice.id := by
            by_contra hne
            have hkept := hothers i fun z' hz'' horder' => hne
              (invoice_unique hv hz'' hfind (horder'.trans horder.symm))
            exact absurd (Option.some.inj (hz'.symm.trans (hkept.trans hz)))
              (Invoice.voided_ne hzissued)
          subst hi
          refine hall m y (mem_unreversed.mpr ⟨(hmovements m).trans hy, horiginal, hconfirmed, ?_⟩)
          exact fun r z hz => hunreversed r z ((hmovements r).symm.trans hz)
      · have hmatch := hnone _ hfind
        simp [horder, hissued] at hmatch

end operations

/-! ### The calls -/

/-- The calls that settle an invoice. -/
def Call.settles : Call → Bool
  | .settle .. | .settleInvoice .. => true
  | _ => false

/-- What a call can have recorded between `d` and `d'`, having found `found`. -/
inductive AccountStep (A : Arithmetic) (found d d' : Docs Doc) :
    Call → List (Id × AccountMovement) → Prop where
  | charge {order source transportCompanyId deliveryFee actor i x m} {term : CommissionTerm}
      (hnone : d.lookup (Key.invoice i) = none) (hx : d'.lookup (Key.invoice i) = some x)
      (hissued : x.state = .issued) (hterm : InForce found term)
      (hprice : ∃ o, found.lookup (Key.order order.id) = some o ∧
        x.fuelCompanyId = o.fuelCompanyId ∧
        x.amount = settlementPrice (o.withId order.id) deliveryFee)
      (hpos : 0 < (term.charge A (x.withId i)).amount) :
      AccountStep A found d d' (.route order source transportCompanyId deliveryFee actor)
        [(m, term.charge A (x.withId i))]
  | credit {c i x x' m} {programme : CashbackProgramme} (hsettles : c.settles = true)
      (hx : d.lookup (Key.invoice i) = some x) (hissued : x.state = .issued)
      (hx' : d'.lookup (Key.invoice i) = some x') (hsettled : x'.state = .settled)
      (hpos : 0 < (programme.credit A (x.withId i)).amount) :
      AccountStep A found d d' c [(m, programme.credit A (x.withId i))]
  | reverse {order actor reason created} (hreverses : Reverses d d' created)
      (hbilled : created ≠ [] → order.invoiceId.isSome = true) :
      AccountStep A found d d' (.cancel order actor reason) created
  | recordPayment {companyId amount reference m} :
      AccountStep A found d d' (.recordPayment companyId amount reference)
        [(m, { companyId := companyId, kind := .paymentRecorded, amount := amount,
               state := .recorded, reference := reference })]
  | payOut {companyId amount reference confirmedBy m at_}
      (hle : amount ≤ cashbackOwed A found companyId) :
      AccountStep A found d d' (.recordCashbackPayout companyId amount reference confirmedBy)
        [(m, { companyId := companyId, kind := .cashbackPaidOut, amount := amount,
               state := .confirmed, reference := some reference,
               confirmedBy := some confirmedBy, confirmedAt := some at_ })]
  | nothing {c} (hkeeps : ∀ order actor reason, c ≠ .cancel order actor reason) :
      AccountStep A found d d' c []

/-- The operator's confirmation of a payment. -/
def AccountMovement.confirmedPayment (y : AccountMovement) (confirmedBy : Id) (at_ : Instant) :
    AccountMovement :=
  { y with
    state := .confirmed
    confirmedBy := some confirmedBy
    confirmedAt := some at_ }

namespace Call
variable {cfg : Settings} {c : Call} {r : c.Reply} {env : Env} {v w : View Doc}

theorem route_account {order : OrderDocument} {source : OrderStatus} {transportCompanyId : Id}
    {deliveryFee : ℚ} {actor : TransitionActor} {r : OrderDocument}
    (h : ((route order source transportCompanyId deliveryFee actor).body cfg).run env v =
      .ok (r, w)) :
    ∃ created, Records v.docs w.docs created ∧ AccountStep cfg.arithmetic v.docs v.docs w.docs
      (.route order source transportCompanyId deliveryFee actor) created := by
  obtain ⟨o, n, awaiting, invoice, u, ho, -, -, hid, hu, hawaiting, hframe, hissue⟩ :=
    routeToTransport_issues h
  obtain ⟨-, u₁, u₂, i, -, -, -, hu₁, hnone, -, hself, -, hframe₂, haccrue⟩ :=
    issueInvoice_parts hissue
  have hfound : ∀ k, k ≠ Key.invoice i → k ≠ Key.order order.id →
      u₂.docs.lookup k = v.docs.lookup k := fun k hk hko =>
    (hframe₂ k hk (by rwa [hid])).trans (hframe.lookup_eq hko)
  obtain ⟨created, hrecords, hcreated⟩ := accrueCommission_ok rfl haccrue
  refine ⟨created, hrecords.congr (fun m => (hfound _ (by simp) (by simp)).symm) fun _ => rfl, ?_⟩
  rcases hcreated with rfl | ⟨m, term, hterm, hpos, rfl⟩
  · exact .nothing (by simp)
  · obtain ⟨priceBreakdown, finalPrice, heq⟩ := Order.awaiting_eq cfg o order.id source
      transportCompanyId deliveryFee actor i (env.time n) (env.time (n + 1)) (env.time (n + 2))
      (env.time (n + 3))
    have hcompany := congrArg Order.fuelCompanyId ((hawaiting i).trans heq)
    have hprice := (congrArg Order.finalPrice (hawaiting i)).trans (Order.awaiting_priced ..)
    rw [settledPrice_snd] at hprice
    have hamount := congrArg (fun p => Option.getD p awaiting.estimatedPrice) hprice
    refine .charge ?_ ?_ rfl (hterm.congr fun id => ?_) ⟨o, ho, hcompany, hamount⟩ hpos
    · exact (hframe.lookup_eq (by simp)).symm.trans ((hu₁ _).symm.trans hnone)
    · exact (accrueCommission_find haccrue id).trans hself
    · exact (hfound _ (by simp) (by simp)).symm

theorem cancel_account {order : OrderDocument} {actor : TransitionActor} {reason : Option String}
    {r : OrderDocument} (hv : v.docs.Unique)
    (h : ((cancel order actor reason).body cfg).run env v = .ok (r, w)) :
    ∃ created, Records v.docs w.docs created ∧ AccountStep cfg.arithmetic v.docs v.docs w.docs
      (.cancel order actor reason) created := by
  obtain ⟨u, u₁, u₂, updated, hrelease, htransition, hvoid, hreturn⟩ := cancel_ok h
  -- Around the voiding, neither invoices nor movements change.
  let S : Key → Prop := fun k => ∀ i, k ≠ Key.invoice i ∧ k ≠ Key.accountMovement i
  have hu₁ : ∀ k, ¬ S k → u₁.find k = v.find k := fun k hk =>
    ((transition_confined (S := S) (by simp [S]) _ _ _ _).find_eq htransition hk).trans
      ((releaseDriverIfAssigned_confined (S := S) (by simp [S]) (by simp [S]) (by simp [S])).find_eq
        hrelease hk)
  have hw : ∀ k, ¬ S k → w.find k = u₂.find k := fun k hk =>
    (returnDrawdown_confined (S := S) (by simp [S]) _ _).find_eq hreturn hk
  have hinvoice : ∀ i, ¬ S (Key.invoice i) := fun i hS => (hS i).1 rfl
  have hmovement : ∀ m, ¬ S (Key.accountMovement m) := fun m hS => (hS m).2 rfl
  have huniq : u₁.docs.Unique := run_unique (run_unique hv hrelease) htransition
  have hbetween : ∃ created, Records u₁.docs u₂.docs created ∧ Reverses u₁.docs u₂.docs created ∧
      (created ≠ [] → order.invoiceId.isSome = true) := by
    rcases hvoid with ⟨hbilled, hvoid⟩ | ⟨-, rfl⟩
    · obtain ⟨created, hrecords, hreverses⟩ := voidInvoice_account huniq hvoid
      exact ⟨created, hrecords, hreverses, fun _ => hbilled⟩
    · exact ⟨[], .nil fun _ => rfl, reverses_nothing fun _ => rfl, fun hnil => absurd rfl hnil⟩
  obtain ⟨created, hrecords, hreverses, hbilled⟩ := hbetween
  refine ⟨created, hrecords.congr (fun m => (hu₁ _ (hmovement m)).symm) fun m => hw _ (hmovement m),
    .reverse ⟨fun e he => ?_, fun i x m y hx hissued hx' hy horiginal hconfirmed hunreversed => ?_,
      hreverses.once⟩ hbilled⟩
  · obtain ⟨i, x, m, y, hx, hissued, hx', hy, hrest⟩ := hreverses.each e he
    exact ⟨i, x, m, y, (hu₁ _ (hinvoice i)).symm.trans hx, hissued,
      (hw _ (hinvoice i)).trans hx', (hu₁ _ (hmovement m)).symm.trans hy, hrest⟩
  · refine hreverses.all i x m y ((hu₁ _ (hinvoice i)).trans hx) hissued
      ((hw _ (hinvoice i)).symm.trans hx') ((hu₁ _ (hmovement m)).trans hy) horiginal hconfirmed ?_
    exact fun r z hz => hunreversed r z ((hu₁ _ (hmovement r)).symm.trans hz)

/-- A settlement credits at most one cashback, for the invoice it settles. -/
theorem settlement_account (found : View Doc) {d : View Doc} {invoice r : InvoiceDocument}
    {ref : Option ℕ} (hsettles : c.settles = true)
    (h : (applySettlement cfg.arithmetic invoice ref).run env v = .ok (r, w))
    (hfind : v.find (Key.invoice invoice.id) = some invoice.toInvoice)
    (hw : ∀ k, (∀ id, k ≠ Key.order id) → d.find k = w.find k) :
    ∃ created, Records v.docs d.docs created ∧
      AccountStep cfg.arithmetic found.docs v.docs d.docs c created := by
  obtain ⟨created, hrecords, hcreated⟩ := applySettlement_account h hfind
  refine ⟨created, hrecords.congr (fun _ => rfl) fun m => hw _ (by simp), ?_⟩
  rcases hcreated with rfl | ⟨m, programme, x', hissued, hx', hsettled, hpos, rfl⟩
  · refine .nothing ?_
    rintro order actor reason rfl
    cases hsettles
  · exact .credit hsettles hfind hissued ((hw _ (by simp)).trans hx') hsettled hpos

/-- What a call that ran has recorded. -/
theorem body_account (hv : v.docs.Unique) (h : (c.body cfg).run env v = .ok (r, w)) :
    (∃ created, Records v.docs w.docs created ∧
      AccountStep cfg.arithmetic v.docs v.docs w.docs c created) ∨
    ∃ m confirmedBy y at_, c = .confirmPayment m confirmedBy ∧
      v.find (Key.accountMovement m) = some y ∧ y.kind = .paymentRecorded ∧ y.state = .recorded ∧
      w.find (Key.accountMovement m) = some (y.confirmedPayment confirmedBy at_) ∧
      ∀ m', m' ≠ m → w.find (Key.accountMovement m') = v.find (Key.accountMovement m') := by
  have untouched : c.bills = false → c.pays = false → ∃ created, Records v.docs w.docs created ∧
      AccountStep cfg.arithmetic v.docs v.docs w.docs c created := by
    intro hbills hpays
    refine ⟨[], .nil fun m => body_frame (k := Key.accountMovement m) h ?_, .nothing ?_⟩
    · simp [touches, hbills, hpays]
    · rintro order actor reason rfl
      cases hbills
  cases c with
  | route => exact Or.inl (route_account h)
  | cancel => exact Or.inl (cancel_account hv h)
  | settle order eventId transactionId =>
      obtain ⟨settled, u, hsettle, hmove⟩ := bind_ok h
      obtain ⟨d, u', hscan, hsettle⟩ := bind_ok hsettle
      obtain ⟨rfl, rfl⟩ := scan_ok hscan
      split at hsettle
      · exact (throw_ok hsettle).elim
      · rename_i invoice hinvoice
        refine Or.inl (settlement_account u' rfl hsettle
          (findInvoiceOf_some hinvoice).1 fun k hk => ?_)
        exact (transition_confined (S := fun k => ∃ id, k = Key.order id) ⟨_, rfl⟩ _ _ _ _).find_eq
          hmove (by simpa using hk)
  | settleInvoice i ref =>
      obtain ⟨found, u, hfound, h⟩ := bind_ok h
      obtain ⟨hfound, rfl⟩ := find_ok hfound
      cases found with
      | none => exact (throw_ok h).elim
      | some x =>
          have hfind : u.find (Key.invoice (Invoice.withId x i).id) =
              some (Invoice.withId x i).toInvoice := hfound.symm
          exact Or.inl (settlement_account u rfl h hfind fun _ _ => rfl)
  | recordPayment companyId amount reference => exact Or.inl ⟨_, createMovement_ok h, .recordPayment⟩
  | recordCashbackPayout companyId amount reference confirmedBy =>
      obtain ⟨owed, u, howed, h⟩ := bind_ok h
      obtain ⟨rfl, rfl⟩ := getCashbackOwed_ok howed
      split_ifs at h with hexceeds
      · exact (throw_ok h).elim
      · obtain ⟨t, u', ht, h⟩ := bind_ok h
        obtain ⟨rfl, rfl⟩ := getTime_ok ht
        have hrecords := createMovement_ok h
        exact Or.inl ⟨_, hrecords, .payOut (Rat.not_lt.mp hexceeds)⟩
  | confirmPayment m confirmedBy =>
      obtain ⟨t, u, ht, h⟩ := bind_ok h
      obtain ⟨rfl, rfl⟩ := getTime_ok ht
      obtain ⟨updated, u, hupdate, h⟩ := bind_ok h
      rcases findOneAndUpdate_ok hupdate with ⟨y, hy, hmatch, -, rfl, rfl⟩ | ⟨rfl, -, -⟩
      · obtain ⟨-, rfl⟩ := pure_ok h
        simp only [Bool.and_eq_true, decide_eq_true_eq] at hmatch
        refine Or.inr ⟨m, confirmedBy, y, _, rfl, hy, hmatch.1, hmatch.2,
          View.find_put_self _ _ _, fun m' hm' => ?_⟩
        exact View.find_put_ne _ _ (by simpa using hm')
      · exact (throw_ok h).elim
  | _ => exact Or.inl (untouched rfl rfl)

end Call
end CiroFuel
