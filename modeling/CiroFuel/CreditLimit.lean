import CiroFuel.Billed
import CiroFuel.Snapshot.Totals
import Mathlib.Algebra.Group.Subgroup.ZPowers.Basic
import Mathlib.Algebra.Group.Submonoid.BigOperators
import Mathlib.Algebra.Order.Ring.Rat
import Mathlib.Data.Rat.Floor
import Mathlib.Tactic.Linarith
import Mathlib.Tactic.Ring

/-!
# Credit limits

What a client owes on credit is summed from the invoices each time. The check
rewrites the client with what is there, so that two issues for one client
conflict although they insert different invoices: a snapshot in which the client
is current has every open credit invoice of that client. Amounts are whole
halalas, and no limit is lowered.
-/
namespace CiroFuel
open Snapshot Tx

/-! ### Amounts -/

def wholeHalalas (q : ℚ) : Bool := 0 ≤ q && (q * 100).den = 1

/-- The multiples of a hundredth. -/
def halalas : AddSubgroup ℚ := AddSubgroup.zmultiples (1 / 100)

theorem wholeHalalas_nonneg {q : ℚ} (h : wholeHalalas q = true) : 0 ≤ q :=
  of_decide_eq_true (Bool.and_eq_true_iff.mp h).1

theorem wholeHalalas_mem {q : ℚ} (h : wholeHalalas q = true) : q ∈ halalas := by
  obtain ⟨-, hden⟩ := Bool.and_eq_true_iff.mp h
  refine AddSubgroup.mem_zmultiples_iff.mpr ⟨(q * 100).num, ?_⟩
  have hnum : ((q * 100).num : ℚ) = q * 100 :=
    (Rat.den_eq_one_iff _).mp (of_decide_eq_true hden)
  rw [zsmul_eq_mul, hnum]
  ring

/-- Whole halalas are not rounded. -/
theorem roundCurrency_halalas {q : ℚ} (h : q ∈ halalas) : roundCurrency q = q := by
  obtain ⟨n, rfl⟩ := AddSubgroup.mem_zmultiples_iff.mp h
  have hfloor : (n • (1 / 100 : ℚ) * (100 : ℕ) + 1 / 2).floor = n := by
    change ⌊(n • (1 / 100 : ℚ) * (100 : ℕ) + 1 / 2)⌋ = n
    rw [Int.floor_eq_iff, zsmul_eq_mul]
    constructor
    · push_cast
      linarith
    · push_cast
      linarith
  rw [roundCurrency, roundTo, hfloor, zsmul_eq_mul]
  norm_num
  ring

/-- Every invoice is over whole halalas. -/
def amountsWhole (s : Db) : Bool := (Docs.collect pickInvoice s.docs).all fun x => wholeHalalas x.2.amount

theorem amountsWhole_of {s : Db} (h : amountsWhole s = true) {i : Id} {x : Invoice}
    (hx : s.invoice i = some x) : wholeHalalas x.amount = true :=
  List.all_eq_true.mp h (i, x) (mem_collect_invoice.mpr hx)

/-! ### What a client owes, and may owe -/

/-- What an open credit invoice of the client weighs. -/
def creditWeight (clientId : Id) : (k : Key) → Doc k → ℚ
  | .invoice _, (x : Invoice) =>
      if x.clientId = clientId ∧ x.method = .credit ∧ x.state = .issued then x.amount else 0
  | _, _ => 0

theorem outstandingCredit_eq (d : Docs Doc) (clientId : Id) :
    outstandingCredit d clientId = d.total (creditWeight clientId) := by
  rw [outstandingCredit, Docs.collect, Docs.sum_selected]
  congr 1
  funext k x
  cases k with
  | invoice i =>
      simp only [pickInvoice, creditWeight, Option.filter]
      by_cases h : x.clientId = clientId ∧ x.method = .credit ∧ x.state = .issued
      · simp [h]
      · simp [h, and_assoc]
  | _ => rfl

theorem creditWeight_other {clientId : Id} {d : Docs Doc} {k : Key} (h : ∀ i, k ≠ Key.invoice i) :
    d.weight (creditWeight clientId) k = 0 := by
  unfold Docs.weight
  cases k with
  | invoice i => exact absurd rfl (h i)
  | _ => cases d.lookup _ <;> rfl

theorem creditWeight_nonneg {s : Db} (h : amountsWhole s = true) (clientId : Id) (k : Key) :
    0 ≤ s.docs.weight (creditWeight clientId) k := by
  cases k with
  | invoice i =>
      cases hx : s.docs.lookup (Key.invoice i) with
      | none => rw [Docs.weight_none hx]
      | some x =>
          rw [Docs.weight_some hx]
          simp only [creditWeight]
          split_ifs
          · exact wholeHalalas_nonneg (amountsWhole_of h hx)
          · exact le_rfl
  | _ => rw [creditWeight_other (by simp)]

/-- The sum only depends on the invoices. -/
theorem outstandingCredit_congr {d d' : Docs Doc}
    (h : ∀ i, d'.lookup (Key.invoice i) = d.lookup (Key.invoice i)) (clientId : Id) :
    outstandingCredit d' clientId = outstandingCredit d clientId := by
  rw [outstandingCredit_eq, outstandingCredit_eq]
  refine Docs.total_congr fun k => ?_
  cases k with
  | invoice i => simp only [Docs.weight, h i]
  | _ => rw [creditWeight_other (by simp), creditWeight_other (by simp)]

theorem outstandingCredit_mem {s : Db} (h : amountsWhole s = true) (clientId : Id) :
    outstandingCredit s.docs clientId ∈ halalas := by
  refine list_sum_mem fun q hq => ?_
  obtain ⟨x, hx, rfl⟩ := List.mem_map.mp hq
  exact wholeHalalas_mem (List.all_eq_true.mp h x (List.mem_filter.mp hx).1)

def creditLimitOf (d : Docs Doc) (clientId : Id) : ℚ :=
  ((d.lookup (Key.user clientId)).bind fun u : User => u.creditLimit).getD 0

/-! ### The check -/

section check
variable {cfg : Settings} {env : Env} {v w : View Doc}

theorem assertCredit_writes {order : OrderDocument} (hcredit : order.paymentMethod = .credit)
    (amount : ℚ) : Writes (Key.user order.clientId) (assertCredit order amount) := by
  unfold assertCredit
  rw [if_pos hcredit]
  exact Writes.first (Writes.findOneAndUpdate (Writes.throw _))

/-- The check passes exactly the amounts within what is left, rounded. -/
theorem assertCredit_iff {order : OrderDocument} (hcredit : order.paymentMethod = .credit)
    (amount : ℚ) {client : User} (hv : v.docs.Unique)
    (hclient : v.find (Key.user order.clientId) = some client) :
    (∃ w, (assertCredit order amount).run env v = .ok ((), w)) ↔
      amount ≤ roundCurrency (creditLimitOf v.docs order.clientId -
        outstandingCredit v.docs order.clientId) := by
  have hfit : v.docs.fits (Key.user order.clientId) client = true := Docs.fits_stored hv hclient
  have hsame : outstandingCredit (v.docs.put (Key.user order.clientId) client) order.clientId =
      outstandingCredit v.docs order.clientId :=
    outstandingCredit_congr (fun i => Docs.lookup_put_ne (by simp)) _
  have hlimit : creditLimitOf v.docs order.clientId = client.creditLimit.getD 0 := by
    rw [creditLimitOf, show v.docs.lookup (Key.user order.clientId) = some client from hclient]
    rfl
  rw [hlimit, ← hsame]
  constructor
  · rintro ⟨w, h⟩
    unfold assertCredit at h
    rw [if_pos hcredit] at h
    obtain ⟨available, u, havailable, h⟩ := bind_ok h
    obtain ⟨updated, u₁, hupdate, havailable⟩ := bind_ok havailable
    rcases findOneAndUpdate_ok hupdate with ⟨x, hx, -, -, rfl, rfl⟩ | ⟨-, -, hnone⟩
    · cases hclient.symm.trans hx
      obtain ⟨d, u₂, hscan, havailable⟩ := bind_ok havailable
      obtain ⟨rfl, rfl⟩ := scan_ok hscan
      obtain ⟨rfl, rfl⟩ := pure_ok havailable
      split_ifs at h with hexceeds
      · exact (throw_ok h).elim
      · exact not_lt.mp hexceeds
    · exact absurd (hnone _ hclient) (by simp)
  · intro hle
    refine ⟨v.put (Key.user order.clientId) client, ?_⟩
    have hfind : v.docs.lookup (Key.user order.clientId) = some client := hclient
    have havailable : (getAvailableCredit order.clientId).run env v =
        .ok (roundCurrency (client.creditLimit.getD 0 - outstandingCredit
          (v.docs.put (Key.user order.clientId) client) order.clientId),
          v.put (Key.user order.clientId) client) := by
      simp only [getAvailableCredit, updateUser]
      rw [run_bind]
      simp only [findOneAndUpdate, run, hfind, id, if_true, hfit]
      rfl
    unfold assertCredit
    rw [if_pos hcredit, run_bind, havailable]
    simp only [gt_iff_lt, not_lt.mpr hle, if_false]
    rfl

/-- Without the client there is no credit. -/
theorem assertCredit_client {order : OrderDocument} (hcredit : order.paymentMethod = .credit)
    {amount : ℚ} (h : (assertCredit order amount).run env v = .ok ((), w)) :
    ∃ client, v.find (Key.user order.clientId) = some client := by
  unfold assertCredit at h
  rw [if_pos hcredit] at h
  obtain ⟨available, u, havailable, h⟩ := bind_ok h
  obtain ⟨updated, u₁, hupdate, havailable⟩ := bind_ok havailable
  rcases findOneAndUpdate_ok hupdate with ⟨x, hx, -⟩ | ⟨rfl, -, -⟩
  · exact ⟨x, hx⟩
  · exact (throw_ok havailable).elim

end check

/-! ### Who changes a limit -/

/-- Every client may owe what it could before. -/
def SameLimits (d d' : Docs Doc) : Prop := ∀ id, creditLimitOf d' id = creditLimitOf d id

instance : Std.Refl SameLimits := ⟨fun _ _ => rfl⟩

instance : IsTrans (Docs Doc) SameLimits := ⟨fun _ _ _ h h' id => (h' id).trans (h id)⟩

theorem creditLimitOf_congr {d d' : Docs Doc} {id : Id}
    (h : d'.lookup (Key.user id) = d.lookup (Key.user id)) :
    creditLimitOf d' id = creditLimitOf d id := by
  rw [creditLimitOf, h, creditLimitOf]

theorem sameLimits_confined {α : Type} {S : Key → Prop} {tx : Action α} (h : Confined S tx)
    (hS : ∀ id, ¬ S (Key.user id)) : Obeys SameLimits tx :=
  fun _ _ _ _ hrun id => creditLimitOf_congr (h.find_eq hrun (hS id))

theorem sameLimits_update {id : Id} {filter : User → Bool} {f : User → User}
    (hf : ∀ u, (f u).creditLimit = u.creditLimit) : Obeys SameLimits (updateUser id filter f) := by
  refine Obeys.findOneAndUpdate fun d x hx _ id' => ?_
  by_cases hid : id' = id
  · subst hid
    rw [creditLimitOf, Docs.lookup_put, creditLimitOf, hx]
    exact congrArg (Option.getD · 0) (hf x)
  · exact creditLimitOf_congr (Docs.lookup_put_ne (by simpa using hid))

theorem sameLimits_releaseDriver (driverId : Option Id) (orderId : Id) :
    Obeys SameLimits (releaseDriver driverId orderId) := by
  cases driverId with
  | none => exact Obeys.pure _
  | some id => exact Obeys.bind (sameLimits_update fun _ => rfl) fun _ => Obeys.pure _

theorem sameLimits_releaseDriverIfAssigned (order : OrderDocument) :
    Obeys SameLimits (releaseDriverIfAssigned order) := by
  refine Obeys.bind (sameLimits_releaseDriver _ _) fun _ => ?_
  refine Obeys.bind (sameLimits_confined (releaseTruck_confined
    (S := fun k => ∀ id, k ≠ Key.user id) (by simp) _) (by simp)) fun _ => ?_
  exact sameLimits_confined (releaseTank_confined (S := fun k => ∀ id, k ≠ Key.user id)
    (by simp) _) (by simp)

theorem sameLimits_transition (id : Id) (source target : OrderStatus) (actor : TransitionActor)
    (options : TransitionOptions) : Obeys SameLimits (transition id source target actor options) :=
  sameLimits_confined (transition_confined (S := fun k => ∀ id, k ≠ Key.user id) (by simp) _ _ _ _)
    (by simp)

theorem sameLimits_assign (order : OrderDocument) (a : Assignment) :
    Obeys SameLimits (assignDriver order a) := by
  refine Obeys.bind (sameLimits_update fun _ => rfl) fun driver => ?_
  cases driver with
  | none => exact Obeys.throw _
  | some driver =>
      refine Obeys.bind (sameLimits_confined (Confined.findOneAndUpdate
        (S := fun k => ∀ id, k ≠ Key.user id) (by simp)) (by simp)) fun truck => ?_
      cases truck with
      | none => exact Obeys.throw _
      | some truck =>
          refine Obeys.bind (sameLimits_confined (Confined.findOneAndUpdate
            (S := fun k => ∀ id, k ≠ Key.user id) (by simp)) (by simp)) fun tank => ?_
          cases tank with
          | none => exact Obeys.throw _
          | some tank =>
              refine Obeys.bind (sameLimits_confined (assertTankFits_confined
                (S := fun _ => False) _ _) (by simp)) fun _ => ?_
              exact Obeys.bind (Obeys.find _) fun _ => sameLimits_transition _ _ _ _ _

theorem sameLimits_edit {edit : AdminEdit} (h : ∀ id limit, edit ≠ .setCreditLimit id limit) :
    Obeys SameLimits edit.body := by
  have inserted : ∀ {k : Key} {x : Doc k}, (∀ id, k ≠ Key.user id) →
      Obeys SameLimits (Tx.insert k x : Action Unit) := fun hk =>
    sameLimits_confined (Confined.insert (S := fun k => ∀ id, k ≠ Key.user id) hk) (by simp)
  have upserted : ∀ {k : Key} {x : Doc k} {f : Doc k → Doc k}, (∀ id, k ≠ Key.user id) →
      Obeys SameLimits (Tx.upsert k x f : Action Unit) := fun hk =>
    sameLimits_confined (Confined.upsert (S := fun k => ∀ id, k ≠ Key.user id) hk) (by simp)
  have updated : ∀ {k : Key} {p : Doc k → Bool} {f : Doc k → Doc k}, (∀ id, k ≠ Key.user id) →
      Obeys SameLimits (Tx.findOneAndUpdate k p f : Action _) := fun hk =>
    sameLimits_confined (Confined.findOneAndUpdate (S := fun k => ∀ id, k ≠ Key.user id) hk)
      (by simp)
  cases edit with
  | putCompany id c =>
      simp only [AdminEdit.body]
      exact upserted (by simp)
  | putWarehouse id w =>
      simp only [AdminEdit.body]
      exact upserted (by simp)
  | putStation id s =>
      simp only [AdminEdit.body]
      exact upserted (by simp)
  | addCommissionTerm id t => exact inserted (by simp)
  | addCashbackProgramme id p => exact inserted (by simp)
  | addUser id role companyId fullName phone station =>
      -- A new client starts without a limit, which is what a missing one has.
      refine Obeys.insert fun d hnone id' => ?_
      by_cases hid : id' = id
      · subst hid
        rw [creditLimitOf, Docs.lookup_put, creditLimitOf, hnone]
        rfl
      · exact creditLimitOf_congr (Docs.lookup_put_ne (by simpa using hid))
  | setCreditLimit id limit => exact absurd rfl (h id limit)
  | setOnline => exact Obeys.bind (sameLimits_update fun _ => rfl) fun _ => Obeys.pure _
  | deactivateUser =>
      refine Obeys.bind (sameLimits_update fun _ => rfl) fun _ => ?_
      exact Obeys.bind (sameLimits_update fun _ => rfl) fun _ => Obeys.pure _
  | activateUser => exact Obeys.bind (sameLimits_update fun _ => rfl) fun _ => Obeys.pure _
  | addTruck => exact inserted (by simp)
  | setTruckActive => exact Obeys.bind (updated (by simp)) fun _ => Obeys.pure _
  | addTank => exact inserted (by simp)
  | setTankActive => exact Obeys.bind (updated (by simp)) fun _ => Obeys.pure _

namespace Call

/-- Only an administrator changes a limit. -/
theorem body_limits (cfg : Settings) {c : Call}
    (h : ∀ id limit, c ≠ .administer (.setCreditLimit id limit)) :
    Obeys SameLimits (c.body cfg) := by
  cases c with
  | timeOut job order =>
      exact Obeys.bind (sameLimits_releaseDriver _ _) fun _ => sameLimits_transition _ _ _ _ _
  | assign order a => exact sameLimits_assign order a
  | cancel order actor reason =>
      have hreturn : Obeys SameLimits
          (returnDrawdown cfg.arithmetic order.balanceKey order.id actor.actorId) :=
        sameLimits_confined (returnDrawdown_confined (S := fun k => ∀ id, k ≠ Key.user id)
          (by simp) _ _) (by simp)
      refine Obeys.bind (sameLimits_releaseDriverIfAssigned _) fun _ => ?_
      refine Obeys.bind (sameLimits_transition _ _ _ _ _) fun _ => ?_
      split_ifs
      · refine Obeys.bind (sameLimits_confined (voidInvoice_confined
          (S := fun k => ∀ id, k ≠ Key.user id) (by simp) (by simp) _) (by simp)) fun _ => ?_
        exact Obeys.bind hreturn fun _ => Obeys.pure _
      · exact Obeys.bind hreturn fun _ => Obeys.pure _
  | complete order actor =>
      exact Obeys.bind (sameLimits_releaseDriverIfAssigned _) fun _ => sameLimits_transition _ _ _ _ _
  | forceComplete order actor reason =>
      exact Obeys.bind (sameLimits_releaseDriverIfAssigned _) fun _ => sameLimits_transition _ _ _ _ _
  | administer edit =>
      refine sameLimits_edit fun id limit hedit => ?_
      exact h id limit (by rw [hedit])
  | _ => exact sameLimits_confined (body_confined cfg _) (by simp [touches])

/-- Limits are set to whole halalas, and never lower than they were. -/
def keepsLimit (c : Call) (s : Db) : Bool :=
  match c with
  | .administer (.setCreditLimit id limit) =>
      wholeHalalas limit && creditLimitOf s.docs id ≤ limit
  | _ => true

end Call

/-! ### Commits -/

section commit
variable {cfg : Settings} {ev : Event Doc Call.Reply}

/-- A credit invoice is issued to a client that was rewritten, within what the
snapshot left, and no other invoice with it. -/
theorem Call.route_credit {cfg : Settings} {env : Env} {v w : View Doc} {order : OrderDocument}
    {source : OrderStatus} {transportCompanyId : Id} {deliveryFee : ℚ} {actor : TransitionActor}
    {r : OrderDocument} (hv : v.docs.Unique)
    (h : ((Call.route order source transportCompanyId deliveryFee actor).body cfg).run env v =
      .ok (r, w)) :
    ∃ i x, v.find (Key.invoice i) = none ∧ w.find (Key.invoice i) = some x ∧
      (∀ j, j ≠ i → w.find (Key.invoice j) = v.find (Key.invoice j)) ∧
      (x.method = .credit → Key.user x.clientId ∈ w.writes ∧
        x.amount ≤ roundCurrency (creditLimitOf v.docs x.clientId -
          outstandingCredit v.docs x.clientId)) := by
  obtain ⟨o, n, awaiting, invoice, u, -, -, -, hid, hu, -, hframe, hissue⟩ :=
    routeToTransport_issues h
  have huniq : u.docs.Unique := by
    -- The view differs from the snapshot in one order, which has no index entries.
    intro k k' y y' e hy hy' he he'
    have horder : ∀ {k : Key} {y : Doc k}, u.docs.lookup k = some y →
        e ∈ Indexed.entries k y → v.docs.lookup k = some y := by
      intro k y hy he
      by_cases hk : k = Key.order order.id
      · subst hk
        cases he
      · exact (hframe.lookup_eq hk).symm.trans hy
    exact hv k k' y y' e (horder hy he) (horder hy' he') he he'
  obtain ⟨i, hnone, -, hself, hothers, -⟩ := issueInvoice_ok hissue
  refine ⟨i, _, (hframe.lookup_eq (by simp)).symm.trans hnone, hself,
    fun j hj => (hothers j hj).trans (hframe.lookup_eq (by simp)), fun hcredit => ⟨?_, ?_⟩⟩
  · exact Writes.first (assertCredit_writes hcredit _) env u invoice w hissue
  · obtain ⟨u₁, -, -, -, hassert, -⟩ := issueInvoice_parts hissue
    obtain ⟨client, hclient⟩ := assertCredit_client hcredit hassert
    have hle := (assertCredit_iff hcredit _ huniq hclient).mp ⟨u₁, hassert⟩
    have hlimit : creditLimitOf u.docs awaiting.clientId = creditLimitOf v.docs awaiting.clientId :=
      creditLimitOf_congr (hframe.lookup_eq (by simp))
    have hsum : outstandingCredit u.docs awaiting.clientId =
        outstandingCredit v.docs awaiting.clientId :=
      outstandingCredit_congr (fun j => hframe.lookup_eq (by simp)) _
    rw [hlimit, hsum] at hle
    exact hle

/-- What a commit that issues a credit invoice found. -/
theorem credit_commit (hev : ev.Sound (machine cfg)) (holder : Store.Older ev.base ev.before)
    {i : Id} {x : Invoice} (hnone : ev.before.invoice i = none) (hx : ev.after.invoice i = some x) :
    (∀ j, j ≠ i → ev.before.invoice j = none → ev.after.invoice j = none) ∧
    (x.method = .credit → Key.user x.clientId ∈ ev.view.writes ∧
      x.amount ≤ roundCurrency (creditLimitOf ev.base.docs x.clientId -
        outstandingCredit ev.base.docs x.clientId)) := by
  obtain ⟨⟨order, source, transportCompanyId, deliveryFee, actor, hlabel⟩, hbase, hview⟩ :=
    issue_cases hev holder hnone hx
  obtain ⟨r, hran⟩ := ran_as hev hlabel
  obtain ⟨i', x', -, hview', hothers, hcredit⟩ := Call.route_credit ev.base.unique hran
  have hii : i = i' := by
    by_contra hne
    exact absurd (hview.symm.trans ((hothers i hne).trans hbase)) (by simp)
  subst hii
  cases hview.symm.trans hview'
  refine ⟨fun j hj hnone => ?_, hcredit⟩
  exact (hev.unwritten holder (hothers j hj)).trans hnone

/-- While a client has not been rewritten, no invoice on its credit is added to
those open. -/
structure CreditStable (a b : Db) : Prop where
  older : Store.Older a b
  open_ : ∀ clientId, a.version (Key.user clientId) = b.version (Key.user clientId) →
    ∀ i x, b.invoice i = some x → x.clientId = clientId → x.method = .credit →
      x.state = .issued → a.invoice i = some x

theorem CreditStable.refl (s : Db) : CreditStable s s :=
  ⟨Store.Older.refl s, fun _ _ _ _ hx _ _ _ => hx⟩

theorem CreditStable.trans {a b c : Db} (hab : CreditStable a b) (hbc : CreditStable b c) :
    CreditStable a c where
  older := hab.older.trans hbc.older
  open_ := by
    intro clientId hversion i x hx hclient hcredit hissued
    have hle := (hab.older (Key.user clientId)).1
    have hle' := (hbc.older (Key.user clientId)).1
    have hb := hbc.open_ clientId (by omega) i x hx hclient hcredit hissued
    exact hab.open_ clientId (by omega) i x hb hclient hcredit hissued

/-- A snapshot in which the client is current has every open invoice. -/
theorem CreditStable.outstanding {a b : Db} (h : CreditStable a b) (ha : amountsWhole a = true)
    {clientId : Id} (hversion : a.version (Key.user clientId) = b.version (Key.user clientId)) :
    outstandingCredit b.docs clientId ≤ outstandingCredit a.docs clientId := by
  rw [outstandingCredit_eq, outstandingCredit_eq]
  refine Docs.total_le_total fun k => ?_
  have hnonneg := creditWeight_nonneg ha clientId k
  cases k with
  | invoice i =>
      cases hx : b.docs.lookup (Key.invoice i) with
      | none => rwa [Docs.weight_none hx]
      | some x =>
          rw [Docs.weight_some hx]
          simp only [creditWeight]
          split_ifs with hopen
          · have hy := h.open_ clientId hversion i x hx hopen.1 hopen.2.1 hopen.2.2
            rw [Docs.weight_some hy]
            simp [creditWeight, hopen]
          · exact hnonneg
  | _ => rw [creditWeight_other (by simp), creditWeight_other (by simp)]

theorem commit_creditStable (hev : ev.Sound (machine cfg)) (holder : Store.Older ev.base ev.before) :
    CreditStable ev.before ev.after where
  older := Store.commit_older hev.committed
  open_ := by
    intro clientId hversion i x hx hclient hcredit hissued
    rcases invoice_cases hev holder i with heq | ⟨y, x', -, -, hafter, hstep⟩ |
      ⟨_, _, _, _, _, _, _, hnone, -⟩
    · exact heq.symm.trans hx
    · cases hafter.symm.trans hx
      generalize ev.label = c at hstep
      cases hstep <;> cases hissued
    · -- The commit that issued it rewrote the client.
      obtain ⟨hwritten, -⟩ := (credit_commit hev holder hnone hx).2 hcredit
      have hgrown := Store.commit_version hev.committed (Key.user x.clientId)
      rw [if_pos hwritten, hclient] at hgrown
      omega

/-- Every client owes at most its limit, in whole halalas. -/
structure WithinCredit (s : Db) : Prop where
  amounts : amountsWhole s = true
  limits : ∀ clientId, creditLimitOf s.docs clientId ∈ halalas
  held : ∀ clientId, outstandingCredit s.docs clientId ≤ creditLimitOf s.docs clientId

theorem withinCredit_empty : WithinCredit Store.empty where
  amounts := rfl
  limits := fun _ => AddSubgroup.zero_mem _
  held := fun _ => le_refl 0

/-- A commit changes a limit only where an administrator sets it. -/
theorem commit_limits (hev : ev.Sound (machine cfg)) (holder : Store.Older ev.base ev.before)
    (hkeeps : ev.label.keepsLimit ev.before = true) (hbefore : WithinCredit ev.before)
    (clientId : Id) : creditLimitOf ev.after.docs clientId ∈ halalas ∧
      creditLimitOf ev.before.docs clientId ≤ creditLimitOf ev.after.docs clientId := by
  have kept : creditLimitOf ev.after.docs clientId = creditLimitOf ev.before.docs clientId →
      creditLimitOf ev.after.docs clientId ∈ halalas ∧
        creditLimitOf ev.before.docs clientId ≤ creditLimitOf ev.after.docs clientId := by
    intro heq
    rw [heq]
    exact ⟨hbefore.limits clientId, le_rfl⟩
  rcases hev.cases holder (Key.user clientId) with ⟨hb, ha⟩ | ⟨-, ha, -⟩
  · have hbase : creditLimitOf ev.before.docs clientId = creditLimitOf ev.base.docs clientId :=
      (creditLimitOf_congr hb).symm
    have hview : creditLimitOf ev.after.docs clientId = creditLimitOf ev.view.docs clientId :=
      creditLimitOf_congr ha
    by_cases hset : ∃ id limit, ev.label = .administer (.setCreditLimit id limit)
    · obtain ⟨id, limit, hlabel⟩ := hset
      obtain ⟨r, hran⟩ := ran_as hev hlabel
      obtain ⟨updated, u, hupdate, hreturn⟩ := bind_ok hran
      obtain ⟨-, rfl⟩ := pure_ok hreturn
      rcases findOneAndUpdate_ok hupdate with ⟨x, hx, -, -, -, hw⟩ | ⟨-, hw, -⟩
      · by_cases hid : clientId = id
        · subst hid
          have hnew : creditLimitOf ev.view.docs clientId = limit := by
            rw [hw, creditLimitOf, View.put, Docs.lookup_put]
            rfl
          simp only [Call.keepsLimit, hlabel, Bool.and_eq_true, decide_eq_true_eq] at hkeeps
          rw [hview, hnew]
          exact ⟨wholeHalalas_mem hkeeps.1, hkeeps.2⟩
        · refine kept (hview.trans (Eq.trans ?_ hbase.symm))
          rw [hw]
          exact creditLimitOf_congr (Docs.lookup_put_ne (by simpa using hid))
      · refine kept (hview.trans (Eq.trans ?_ hbase.symm))
        rw [hw]
        rfl
    · refine kept (hview.trans (Eq.trans ?_ hbase.symm))
      refine Call.body_limits cfg (fun id limit hlabel => hset ⟨id, limit, hlabel⟩) _ _ _ _ hev.ran _
  · exact kept (creditLimitOf_congr ha)

/-- An invoice weighs no more once it is settled or voided. -/
theorem commit_creditWeight (hev : ev.Sound (machine cfg)) (holder : Store.Older ev.base ev.before)
    (hwhole : amountsWhole ev.before = true) (clientId : Id) {k : Key}
    (hk : ∀ i x, k = Key.invoice i → ev.before.invoice i = none → ev.after.invoice i = some x →
      x.clientId = clientId → x.method ≠ .credit) :
    ev.after.docs.weight (creditWeight clientId) k ≤
      ev.before.docs.weight (creditWeight clientId) k := by
  have hnonneg := creditWeight_nonneg hwhole clientId k
  cases k with
  | invoice i =>
      rcases invoice_cases hev holder i with heq | ⟨y, x', -, hb, ha, hstep⟩ |
        ⟨_, _, _, _, _, o', _, hnone, -, -, ha⟩
      · have hlookup : ev.after.docs.lookup (Key.invoice i) = ev.before.docs.lookup (Key.invoice i) :=
          heq
        simp only [Docs.weight, hlookup]
        exact le_rfl
      · have hclosed : x'.state ≠ .issued := by
          generalize ev.label = c at hstep
          cases hstep <;> simp [Invoice.settled, Invoice.voided]
        rw [Docs.weight_some ha]
        simpa [creditWeight, hclosed] using hnonneg
      · rw [Docs.weight_none hnone, Docs.weight_some ha]
        have hother := hk i _ rfl hnone ha
        simp only [creditWeight]
        split_ifs with howed
        · exact absurd howed.2.1 (hother howed.1)
        · exact le_rfl
  | _ => rw [creditWeight_other (by simp), creditWeight_other (by simp)]

/-- Issuing a credit invoice adds at most its amount to what the client owes. -/
theorem issue_outstanding (hev : ev.Sound (machine cfg)) (holder : Store.Older ev.base ev.before)
    (hbefore : amountsWhole ev.before = true) (hafter : amountsWhole ev.after = true) {i : Id}
    {x : Invoice} (hnone : ev.before.invoice i = none) (hx : ev.after.invoice i = some x) :
    outstandingCredit ev.after.docs x.clientId ≤
      outstandingCredit ev.before.docs x.clientId + x.amount := by
  have honly := (credit_commit hev holder hnone hx).1
  have hamount : 0 ≤ x.amount := wholeHalalas_nonneg (amountsWhole_of hafter hx)
  rw [outstandingCredit_eq, outstandingCredit_eq]
  refine Docs.total_le_add (Key.invoice i) (fun k hk => ?_) ?_
  · refine commit_creditWeight hev holder hbefore _ fun j y hkj hjnone hy => ?_
    subst hkj
    exact absurd ((honly j (by simpa using hk) hjnone).symm.trans hy) (by simp)
  · rw [Docs.weight_some hx, Docs.weight_none hnone, zero_add]
    simp only [creditWeight]
    split_ifs
    · exact le_rfl
    · exact hamount

theorem commit_withinCredit (hev : ev.Sound (machine cfg)) (holder : Store.Older ev.base ev.before)
    (hkeeps : ev.label.keepsLimit ev.before = true) (hwhole : amountsWhole ev.after = true)
    (hstable : CreditStable ev.base ev.before) (hbase : WithinCredit ev.base)
    (hbefore : WithinCredit ev.before) : WithinCredit ev.after where
  amounts := hwhole
  limits := fun clientId => (commit_limits hev holder hkeeps hbefore clientId).1
  held := by
    intro clientId
    have hlimit := (commit_limits hev holder hkeeps hbefore clientId).2
    refine le_trans ?_ hlimit
    by_cases hnew : ∃ i x, ev.before.invoice i = none ∧ ev.after.invoice i = some x ∧
        x.clientId = clientId ∧ x.method = .credit
    · obtain ⟨i, x, hnone, hx, rfl, hcredit⟩ := hnew
      obtain ⟨hwritten, hle⟩ := (credit_commit hev holder hnone hx).2 hcredit
      have hsum := hstable.outstanding hbase.amounts (Store.commit_seen hev.committed hwritten)
      have hadd := issue_outstanding hev holder hbefore.amounts hwhole hnone hx
      have hrounded := roundCurrency_halalas (AddSubgroup.sub_mem _ (hbase.limits x.clientId)
        (outstandingCredit_mem hbase.amounts x.clientId))
      have hsame : creditLimitOf ev.before.docs x.clientId = creditLimitOf ev.base.docs x.clientId :=
        (creditLimitOf_congr (hev.wrote holder hwritten).1).symm
      rw [hrounded] at hle
      linarith
    · refine le_trans ?_ (hbefore.held clientId)
      rw [outstandingCredit_eq, outstandingCredit_eq]
      refine Docs.total_le_total fun k => ?_
      refine commit_creditWeight hev holder hbefore.amounts _ fun i x _ hnone hx hclient hcredit => ?_
      exact hnew ⟨i, x, hnone, hx, hclient, hcredit⟩

end commit

/-- In every run over whole halalas that lowers no limit, each client's open
credit invoices stay within its limit, and the check admits an order exactly if
its price fits in what is left. -/
theorem credit_limit_held {cfg : Settings} {log : List (Event Doc Call.Reply)}
    {s : Sys Doc Call.Reply Refusal Answer}
    (h : Run (machine cfg) Store.empty (fun ev =>
      ev.label.keepsLimit ev.before = true ∧ amountsWhole ev.after = true) log s) :
    (∀ clientId, outstandingCredit s.store.docs clientId ≤ creditLimitOf s.store.docs clientId) ∧
    ∀ (order : OrderDocument) (amount : ℚ) (env : Env), order.paymentMethod = .credit →
      (s.store.user order.clientId).isSome = true →
      ((∃ v, (assertCredit order amount).run env (View.start s.store.docs) = .ok ((), v)) ↔
        amount ≤ creditLimitOf s.store.docs order.clientId -
          outstandingCredit s.store.docs order.clientId) := by
  obtain ⟨hwithin, -⟩ := h.strengthen WithinCredit CreditStable CreditStable.refl CreditStable.trans
    withinCredit_empty fun ev hev hP hbase hbefore hstable =>
      ⟨commit_withinCredit hev hstable.older hP.1 hP.2 hstable hbase hbefore,
        commit_creditStable hev hstable.older⟩
  refine ⟨hwithin.held, fun order amount env hcredit hclient => ?_⟩
  obtain ⟨client, hfind⟩ := Option.isSome_iff_exists.mp hclient
  have hrounded := roundCurrency_halalas (AddSubgroup.sub_mem _ (hwithin.limits order.clientId)
    (outstandingCredit_mem hwithin.amounts order.clientId))
  rw [← hrounded]
  exact assertCredit_iff (v := View.start s.store.docs) hcredit amount s.store.unique hfind

/-- Two orders on credit are routed, and a third exceeds the limit. -/
def Sample.limitReached : List (Act Request) :=
  opening ++ serve (.administer (.setCreditLimit 20 5000)) 10 2 ++
    serve (.create client (order .credit)) 11 6 100 ++
    serve (.approve fuelAdmin 100 none none) 12 13 200 ++
    serve (.create client (order .credit)) 13 6 101 ++
    serve (.approve fuelAdmin 101 none none) 14 13 201 ++
    serve (.create client (order .credit)) 15 6 102 ++
    serve (.approve fuelAdmin 102 none none) 16 10 202

theorem credit_limit_held_limitReached :
    ∃ log s o v, Run (machine Sample.cfg) Store.empty (fun ev =>
        ev.label.keepsLimit ev.before = true ∧ amountsWhole ev.after = true) log s ∧
      s.store.order 102 = some o ∧ outstandingCredit s.store.docs 20 = 4945 ∧
      outstandingCredit s.store.docs 20 ≤ creditLimitOf s.store.docs 20 ∧
      (assertCredit (o.withId 102) 55).run (.frozen 0 0) (View.start s.store.docs) = .ok ((), v) := by
  obtain ⟨log, s, hrun, htest⟩ := exists_run (machine Sample.cfg) Store.empty (fun ev =>
      ev.label.keepsLimit ev.before = true ∧ amountsWhole ev.after = true) Sample.limitReached
    (fun _ s => ((s.store.order 102).any fun o => o.paymentMethod = .credit && o.clientId = 20) &&
      (s.store.user 20).isSome && outstandingCredit s.store.docs 20 = 4945 &&
      creditLimitOf s.store.docs 20 = 5000) (by decide +kernel)
  simp only [Bool.and_eq_true, decide_eq_true_eq] at htest
  obtain ⟨⟨⟨horder, hclient⟩, howed⟩, hlimit⟩ := htest
  obtain ⟨o, ho, hcredit⟩ := (Option.any_eq_true _ _).mp horder
  simp only [Bool.and_eq_true, decide_eq_true_eq] at hcredit
  obtain ⟨hheld, hadmits⟩ := credit_limit_held hrun
  have hfits : (55 : ℚ) ≤ creditLimitOf s.store.docs o.clientId -
      outstandingCredit s.store.docs o.clientId := by
    rw [hcredit.2, howed, hlimit]
    norm_num
  obtain ⟨v, hv⟩ := (hadmits (o.withId 102) 55 (.frozen 0 0) hcredit.1
    (by rw [← hcredit.2] at hclient; exact hclient)).mpr hfits
  exact ⟨log, s, o, v, hrun, ho, howed, hheld 20, hv⟩

end CiroFuel
