import CiroFuel.LitreSteps
import CiroFuel.Reachable
import Mathlib.Algebra.BigOperators.Group.List.Basic

/-!
# The litre ledger is sound

A balance is the sum of its movements, and the movements of an order follow a
protocol: drawn at most once, returned at most once and by what was drawn,
reconciled at most once and then marked. The calls keep this whatever they
interleave with, because the orders they record movements for are their own.
-/
namespace CiroFuel
open Snapshot

/-- An identifier above all those given is not among them. -/
theorem lt_freshId (l : List ℕ) {x : ℕ} (hx : x ∈ l) : x < l.foldl max 0 + 1 := by
  have bound : ∀ (l : List ℕ) (n : ℕ), n ≤ l.foldl max n ∧ ∀ x ∈ l, x ≤ l.foldl max n := by
    intro l
    induction l with
    | nil => simp
    | cons a l ih =>
        intro n
        obtain ⟨hinit, hmem⟩ := ih (max n a)
        refine ⟨(le_max_left n a).trans hinit, fun x hx => ?_⟩
        rcases List.mem_cons.mp hx with rfl | hx
        · exact (le_max_right n x).trans hinit
        · exact hmem x hx
  have hle := (bound l 0).2 x hx
  omega

/-- A list of at most one element is the singleton of any member. -/
theorem eq_singleton {α : Type} {l : List α} {x : α} (h : l.length ≤ 1) (hx : x ∈ l) : l = [x] := by
  have hpos := List.length_pos_of_mem hx
  obtain ⟨y, rfl⟩ := List.length_eq_one_iff.mp (by omega : l.length = 1)
  rw [List.mem_singleton.mp hx]

namespace LitreBalance

/-- The movements recorded for an order, of the kinds named. -/
def entries (b : LitreBalance) (kinds : LitreMovementKind → Bool) (orderId : Id) :
    List LitreMovement :=
  b.movements.filter fun m => m.orderId = some orderId && kinds m.kind

def reconciles (kind : LitreMovementKind) : Bool := kind = .shortfallCredit || kind = .excessDebit

def draws (kind : LitreMovementKind) : Bool := kind = .orderDrawdown

def givesBack (kind : LitreMovementKind) : Bool := kind = .drawdownReturned

theorem mem_entries {b : LitreBalance} {kinds : LitreMovementKind → Bool} {orderId : Id}
    {m : LitreMovement} :
    m ∈ b.entries kinds orderId ↔
      m ∈ b.movements ∧ m.orderId = some orderId ∧ kinds m.kind = true := by
  simp [entries]

/-- The ledger of one balance. It is the sum of its movements if no sum is rounded. -/
structure Sound (A : Arithmetic) (b : LitreBalance) : Prop where
  balance : A.Exact → b.balanceLitres = (b.movements.map (·.litres)).sum
  ids : (b.movements.map (·.id)).Nodup
  marked : ∀ id, id ∈ b.reconciledOrderIds ↔ (b.entries reconciles id).length = 1
  reconciledOnce : ∀ id, (b.entries reconciles id).length ≤ 1
  drawnOnce : ∀ id, (b.entries draws id).length ≤ 1
  returnedOnce : ∀ id, (b.entries givesBack id).length ≤ 1
  negates : ∀ id, ∀ m ∈ b.entries givesBack id, ∃ d ∈ b.entries draws id, m.litres = -d.litres

theorem sound_empty {A : Arithmetic} : Sound A {} := by
  constructor <;> simp [entries]

section move
variable {A : Arithmetic} (b : LitreBalance) (kind : LitreMovementKind) (litres : ℚ) (orderId : Option Id)
  (reason : Option String) (actorId : Id) (at_ : Instant)

/-- The movement that `move` records. -/
def movement : LitreMovement where
  id := b.freshMovementId
  kind := kind
  litres := litres
  orderId := orderId
  reason := reason
  actorId := actorId
  at_ := at_

@[simp] theorem move_movements : (b.move A kind litres orderId reason actorId at_).movements =
    b.movements ++ [b.movement kind litres orderId reason actorId at_] := rfl

@[simp] theorem move_reconciledOrderIds :
    (b.move A kind litres orderId reason actorId at_).reconciledOrderIds = b.reconciledOrderIds := rfl

theorem entries_move (kinds : LitreMovementKind → Bool) (id : Id) :
    (b.move A kind litres orderId reason actorId at_).entries kinds id = b.entries kinds id ++
      if orderId = some id ∧ kinds kind = true then
        [b.movement kind litres orderId reason actorId at_] else [] := by
  simp only [entries, move_movements, List.filter_append]
  congr 1
  by_cases h : orderId = some id ∧ kinds kind = true
  · simp [movement, h]
  · rw [if_neg h]
    simpa [movement] using h

theorem entries_move_other {kinds : LitreMovementKind → Bool} {id : Id}
    (h : orderId ≠ some id ∨ kinds kind = false) :
    (b.move A kind litres orderId reason actorId at_).entries kinds id = b.entries kinds id := by
  rw [entries_move, if_neg, List.append_nil]
  rintro ⟨horder, hkind⟩
  rcases h with h | h
  · exact h horder
  · simp [h] at hkind

theorem entries_move_self {kinds : LitreMovementKind → Bool} {id : Id} (hkind : kinds kind = true) :
    (b.move A kind litres (some id) reason actorId at_).entries kinds id =
      b.entries kinds id ++ [b.movement kind litres (some id) reason actorId at_] := by
  rw [entries_move, if_pos ⟨rfl, hkind⟩]

variable {b}

theorem move_balance (h : A.Exact → b.balanceLitres = (b.movements.map (·.litres)).sum)
    (hexact : A.Exact) :
    (b.move A kind litres orderId reason actorId at_).balanceLitres =
      ((b.move A kind litres orderId reason actorId at_).movements.map (·.litres)).sum := by
  rw [move_movements, List.map_append, List.sum_append, ← h hexact]
  exact (hexact _).trans (congrArg _ (List.sum_singleton).symm)

theorem move_ids (h : (b.movements.map (·.id)).Nodup) :
    ((b.move A kind litres orderId reason actorId at_).movements.map (·.id)).Nodup := by
  rw [move_movements, List.map_append]
  refine List.nodup_append.mpr ⟨h, List.nodup_singleton _, ?_⟩
  intro i hi j hj
  have hlt := lt_freshId _ hi
  rw [List.mem_singleton.mp hj]
  exact hlt.ne

end move

/-! ### What the operations keep -/

section sound
variable {A : Arithmetic} {b : LitreBalance} {orderId actorId : Id} {litres : ℚ} {reason : Option String}
  {at_ : Instant}

theorem Sound.corrected (h : b.Sound A) :
    (b.move A .correction litres none reason actorId at_).Sound A := by
  have same : ∀ kinds id, (b.move A .correction litres none reason actorId at_).entries kinds id =
      b.entries kinds id := fun kinds id => entries_move_other _ _ _ _ _ _ _ (Or.inl (by simp))
  constructor
  · exact move_balance _ _ _ _ _ _ h.balance
  · exact move_ids _ _ _ _ _ _ h.ids
  · simpa only [same, move_reconciledOrderIds] using h.marked
  · simpa only [same] using h.reconciledOnce
  · simpa only [same] using h.drawnOnce
  · simpa only [same] using h.returnedOnce
  · simpa only [same] using h.negates

/-- An order without movements may draw. -/
theorem Sound.drawn (h : b.Sound A) (hnew : ∀ m ∈ b.movements, m.orderId ≠ some orderId) :
    (b.move A .orderDrawdown litres (some orderId) reason actorId at_).Sound A := by
  have none_new : ∀ kinds, b.entries kinds orderId = [] := fun kinds =>
    List.filter_eq_nil_iff.mpr fun m hm => by simp [hnew m hm]
  have same : ∀ kinds id, kinds .orderDrawdown = false →
      (b.move A .orderDrawdown litres (some orderId) reason actorId at_).entries kinds id =
        b.entries kinds id := fun kinds id hkind => entries_move_other _ _ _ _ _ _ _ (Or.inr hkind)
  have hreconciles := fun id => same reconciles id rfl
  have hreturns := fun id => same givesBack id rfl
  constructor
  · exact move_balance _ _ _ _ _ _ h.balance
  · exact move_ids _ _ _ _ _ _ h.ids
  · simpa only [hreconciles, move_reconciledOrderIds] using h.marked
  · simpa only [hreconciles] using h.reconciledOnce
  · intro id
    by_cases hid : id = orderId
    · subst hid
      rw [entries_move_self _ _ _ _ _ _ rfl, none_new]
      exact le_rfl
    · rw [entries_move_other _ _ _ _ _ _ _ (Or.inl fun e => hid (Option.some.inj e).symm)]
      exact h.drawnOnce id
  · simpa only [hreturns] using h.returnedOnce
  · intro id m hm
    rw [hreturns] at hm
    obtain ⟨d, hd, hlitres⟩ := h.negates id m hm
    refine ⟨d, ?_, hlitres⟩
    rw [entries_move]
    exact List.mem_append_left _ hd

/-- What an order drew may be given back once. -/
theorem Sound.givenBack (h : b.Sound A) {drawn : LitreMovement}
    (hdrawn : drawn ∈ b.entries draws orderId)
    (hfirst : ∀ m ∈ b.movements, m.orderId = some orderId → m.kind ≠ .drawdownReturned) :
    (b.move A .drawdownReturned (-drawn.litres) (some orderId) reason actorId at_).Sound A := by
  have none_returned : b.entries givesBack orderId = [] :=
    List.filter_eq_nil_iff.mpr fun m hm => by
      simpa [givesBack] using hfirst m hm
  have same : ∀ kinds id, kinds .drawdownReturned = false →
      (b.move A .drawdownReturned (-drawn.litres) (some orderId) reason actorId at_).entries kinds id =
        b.entries kinds id := fun kinds id hkind => entries_move_other _ _ _ _ _ _ _ (Or.inr hkind)
  have hreconciles := fun id => same reconciles id rfl
  have hdraws := fun id => same draws id rfl
  constructor
  · exact move_balance _ _ _ _ _ _ h.balance
  · exact move_ids _ _ _ _ _ _ h.ids
  · simpa only [hreconciles, move_reconciledOrderIds] using h.marked
  · simpa only [hreconciles] using h.reconciledOnce
  · simpa only [hdraws] using h.drawnOnce
  · intro id
    by_cases hid : id = orderId
    · subst hid
      rw [entries_move_self _ _ _ _ _ _ rfl, none_returned]
      exact le_rfl
    · rw [entries_move_other _ _ _ _ _ _ _ (Or.inl fun e => hid (Option.some.inj e).symm)]
      exact h.returnedOnce id
  · intro id m hm
    rw [hdraws]
    rw [entries_move] at hm
    rcases List.mem_append.mp hm with hold | hnew
    · exact h.negates id m hold
    · split_ifs at hnew with hid
      · cases hid.1
        rw [List.mem_singleton.mp hnew]
        exact ⟨drawn, hdrawn, rfl⟩
      · cases hnew

/-- An order that is not marked has no reconciliation. -/
theorem Sound.unreconciled (h : b.Sound A) (hmark : orderId ∉ b.reconciledOrderIds) :
    b.entries reconciles orderId = [] := by
  have hone := (h.marked orderId).not.mp hmark
  have honce := h.reconciledOnce orderId
  exact List.length_eq_zero_iff.mp (by omega)

theorem reconciled_entries (kinds : LitreMovementKind → Bool) (id : Id) :
    (b.reconciled A litres orderId actorId at_).entries kinds id =
      (b.move A (if litres > 0 then .shortfallCredit else .excessDebit) litres (some orderId) none
        actorId at_).entries kinds id := rfl

/-- An order that is not marked may be reconciled. -/
theorem Sound.reconciled (h : b.Sound A) (hmark : orderId ∉ b.reconciledOrderIds) :
    (b.reconciled A litres orderId actorId at_).Sound A := by
  have hkind : reconciles (if litres > 0 then .shortfallCredit else .excessDebit) = true := by
    split_ifs <;> rfl
  have hnot : ∀ kinds : LitreMovementKind → Bool, kinds .shortfallCredit = false →
      kinds .excessDebit = false →
      kinds (if litres > 0 then .shortfallCredit else .excessDebit) = false := by
    intro kinds h₁ h₂
    split_ifs
    · exact h₁
    · exact h₂
  have hself : ((b.reconciled A litres orderId actorId at_).entries reconciles orderId).length = 1 := by
    rw [reconciled_entries, entries_move_self _ _ _ _ _ _ hkind, h.unreconciled hmark]
    rfl
  have hother : ∀ id, id ≠ orderId →
      (b.reconciled A litres orderId actorId at_).entries reconciles id = b.entries reconciles id := by
    intro id hid
    rw [reconciled_entries]
    exact entries_move_other _ _ _ _ _ _ _ (Or.inl fun e => hid (Option.some.inj e).symm)
  have hdraws : ∀ id, (b.reconciled A litres orderId actorId at_).entries draws id =
      b.entries draws id := by
    intro id
    rw [reconciled_entries]
    exact entries_move_other _ _ _ _ _ _ _ (Or.inr (hnot draws rfl rfl))
  have hreturns : ∀ id, (b.reconciled A litres orderId actorId at_).entries givesBack id =
      b.entries givesBack id := by
    intro id
    rw [reconciled_entries]
    exact entries_move_other _ _ _ _ _ _ _ (Or.inr (hnot givesBack rfl rfl))
  constructor
  · exact move_balance _ _ _ _ _ _ h.balance
  · exact move_ids (A := A) _ _ _ _ _ _ h.ids
  · intro id
    change id ∈ b.reconciledOrderIds ++ [orderId] ↔ _
    by_cases hid : id = orderId
    · subst hid
      simp [hself]
    · rw [hother id hid, ← h.marked id]
      simp [hid]
  · intro id
    by_cases hid : id = orderId
    · subst hid
      exact hself.le
    · rw [hother id hid]
      exact h.reconciledOnce id
  · simpa only [hdraws] using h.drawnOnce
  · simpa only [hreturns] using h.returnedOnce
  · simpa only [hdraws, hreturns] using h.negates

/-- The lookup of `takenBack` finds a reconciliation of the order if there is one. -/
theorem find_reconciliation {prior : LitreMovement}
    (h : (b.movements.find? fun m => m.orderId = some orderId && isReconciliation m) = some prior) :
    prior ∈ b.entries reconciles orderId := by
  have hfound := List.find?_some h
  exact List.mem_filter.mpr ⟨List.mem_of_find?_eq_some h, hfound⟩

theorem find_reconciliation_none
    (h : (b.movements.find? fun m => m.orderId = some orderId && isReconciliation m) = none) :
    b.entries reconciles orderId = [] :=
  List.filter_eq_nil_iff.mpr (List.find?_eq_none.mp h)

/-- Taking back removes the order's reconciliation and nothing else. -/
theorem Sound.takenBack_movements (h : b.Sound A) (orderId : Id) :
    (b.takenBack A orderId).movements =
      b.movements.filter fun m => !(m.orderId = some orderId && reconciles m.kind) := by
  unfold takenBack
  split
  · rename_i prior hprior
    have hentry := find_reconciliation hprior
    obtain ⟨hmem, hfound⟩ := List.mem_filter.mp hentry
    refine List.filter_congr fun m hm => ?_
    by_cases hm' : (m.orderId = some orderId && reconciles m.kind) = true
    · -- The order has one reconciliation, so this movement is the one found.
      have hother : m ∈ b.entries reconciles orderId := List.mem_filter.mpr ⟨hm, hm'⟩
      rw [eq_singleton (h.reconciledOnce orderId) hentry] at hother
      rw [List.mem_singleton.mp hother]
      simp [hfound]
    · have hne : m.id ≠ prior.id := by
        intro hid
        rw [List.inj_on_of_nodup_map h.ids hm hmem hid] at hm'
        exact hm' hfound
      simp only [hm', hne, ne_eq, not_false_eq_true, decide_true, Bool.not_false]
  · rename_i hnone
    have hempty := List.filter_eq_nil_iff.mp (find_reconciliation_none hnone)
    refine (List.filter_eq_self.mpr fun m hm => ?_).symm
    rw [Bool.eq_false_iff.mpr (hempty m hm)]
    rfl

theorem Sound.takenBack_marks (h : b.Sound A) (orderId id : Id) :
    id ∈ (b.takenBack A orderId).reconciledOrderIds ↔ id ∈ b.reconciledOrderIds ∧ id ≠ orderId := by
  unfold takenBack
  split
  · simp
  · rename_i hnone
    refine ⟨fun hmem => ⟨hmem, ?_⟩, fun hmem => hmem.1⟩
    rintro rfl
    have hone := (h.marked id).mp hmem
    simp [find_reconciliation_none hnone] at hone

theorem Sound.entries_takenBack_other (h : b.Sound A) {kinds : LitreMovementKind → Bool} {id : Id}
    (hother : id ≠ orderId ∨ ∀ kind, kinds kind = true → reconciles kind = false) :
    (b.takenBack A orderId).entries kinds id = b.entries kinds id := by
  simp only [entries]
  rw [h.takenBack_movements, List.filter_filter]
  refine List.filter_congr fun m _ => ?_
  by_cases hm : m.orderId = some id ∧ kinds m.kind = true
  · rcases hother with hid | hkinds
    · simp [hm.1, hid]
    · simp [hkinds m.kind hm.2]
  · have hm' : (decide (m.orderId = some id) && kinds m.kind) = false := by
      simpa using hm
    simp [hm']

theorem Sound.entries_takenBack_self (h : b.Sound A) (orderId : Id) :
    (b.takenBack A orderId).entries reconciles orderId = [] := by
  simp only [entries]
  rw [h.takenBack_movements, List.filter_filter]
  refine List.filter_eq_nil_iff.mpr fun m _ => ?_
  cases hm : (decide (m.orderId = some orderId) && reconciles m.kind) <;> simp

/-- The litres of the movements recorded for an order. -/
def litresOf (b : LitreBalance) (kinds : LitreMovementKind → Bool) (orderId : Id) : ℚ :=
  ((b.entries kinds orderId).map (·.litres)).sum

theorem Sound.takenBack_balance (h : b.Sound A) (hexact : A.Exact) (orderId : Id) :
    (b.takenBack A orderId).balanceLitres = b.balanceLitres - b.litresOf reconciles orderId := by
  unfold takenBack litresOf
  split
  · rename_i prior hprior
    rw [eq_singleton (h.reconciledOnce orderId) (find_reconciliation hprior), List.map_singleton,
      List.sum_singleton]
    exact hexact _
  · rename_i hnone
    simp [find_reconciliation_none hnone]

theorem Sound.takenBack (h : b.Sound A) (orderId : Id) : (b.takenBack A orderId).Sound A := by
  have hdraws : ∀ id, (b.takenBack A orderId).entries draws id = b.entries draws id := fun id =>
    h.entries_takenBack_other (Or.inr fun kind hkind => by
      cases kind <;> simp [draws, reconciles] at hkind ⊢)
  have hreturns : ∀ id, (b.takenBack A orderId).entries givesBack id = b.entries givesBack id :=
    fun id => h.entries_takenBack_other
      (Or.inr fun kind hkind => by
        cases kind <;> simp [givesBack, reconciles] at hkind ⊢)
  constructor
  · intro hexact
    rw [h.takenBack_balance hexact, h.balance hexact, h.takenBack_movements, litresOf, entries]
    have hsplit := ((List.filter_append_perm
      (fun m : LitreMovement => m.orderId = some orderId && reconciles m.kind) b.movements).map
      (·.litres)).sum_eq
    rw [List.map_append, List.sum_append] at hsplit
    rw [← hsplit]
    exact add_sub_cancel_left _ _
  · rw [h.takenBack_movements]
    exact h.ids.sublist (List.filter_sublist.map _)
  · intro id
    rw [h.takenBack_marks, h.marked]
    by_cases hid : id = orderId
    · subst hid
      simp [h.entries_takenBack_self]
    · simp [h.entries_takenBack_other (Or.inl hid), hid]
  · intro id
    by_cases hid : id = orderId
    · subst hid
      simp [h.entries_takenBack_self]
    · rw [h.entries_takenBack_other (Or.inl hid)]
      exact h.reconciledOnce id
  · simpa only [hdraws] using h.drawnOnce
  · simpa only [hreturns] using h.returnedOnce
  · simpa only [hdraws, hreturns] using h.negates

end sound

end LitreBalance

open LitreBalance

section step
variable {A : Arithmetic} {time : ℕ → Instant} {found left : Docs Doc} {key : BalanceKey} {c : Call}
variable {b b' : LitreBalance}

/-- Every step keeps a sound balance sound, if new orders have no movements. -/
theorem LitreStep.sound (h : LitreStep A time found left key c b b') (hb : b.Sound A)
    (hnew : ∀ id, found.lookup (Key.order id) = none → left.lookup (Key.order id) ≠ none →
      ∀ m ∈ b.movements, m.orderId ≠ some id) : b'.Sound A := by
  cases h with
  | draw hkey hnone hnow => exact hb.drawn (hnew _ hnone (by simp [hnow]))
  | giveBack hkey hfirst hdrawn horder hkind =>
      exact hb.givenBack (mem_entries.mpr ⟨hdrawn, horder, by simp [draws, hkind]⟩) hfirst
  | confirm hkey hlitres hfirst => exact hb.reconciled hfirst
  | replace hkey hlitres hfirst => exact (hb.takenBack _).reconciled hfirst
  | replaceExact => exact hb.takenBack _
  | correct => exact hb.corrected
  | _ => exact hb

theorem takenBack_sublist (b : LitreBalance) (orderId : Id) :
    (b.takenBack A orderId).movements.Sublist b.movements := by
  unfold LitreBalance.takenBack
  split
  · exact List.filter_sublist
  · exact List.Sublist.refl _

/-- A new movement is of the order created, of the document's order, or of none. -/
theorem LitreStep.recorded {cfg : Settings} {s : Db} {t : Instant}
    (h : LitreStep A time found left key c b b') (hchecked : c.Checked cfg s t) {m : LitreMovement}
    (hm : m ∈ b'.movements) :
    m ∈ b.movements ∨ m.orderId = none ∨
    (∃ fields id, m.orderId = some id ∧ found.lookup (Key.order id) = none ∧
      left.lookup (Key.order id) = some (OrderFields.order fields) ∧
      fields.order.balanceKey = key) ∨
    ∃ order, c.document = some order ∧ m.orderId = some order.id ∧ order.balanceKey = key := by
  have moved : ∀ {b : LitreBalance} {kind litres orderId reason actorId at_},
      m ∈ (b.move A kind litres orderId reason actorId at_).movements →
      m ∈ b.movements ∨ m.orderId = orderId := by
    intro b kind litres orderId reason actorId at_ hmem
    rcases List.mem_append.mp hmem with hold | hlast
    · exact Or.inl hold
    · rw [List.mem_singleton.mp hlast]
      exact Or.inr rfl
  have own : ∀ {order : OrderDocument} {dto : SupplierInvoiceInput},
      dto.confirmed.fuelType = order.fuelType → order.reconciledKey dto = key →
      order.balanceKey = key := by
    rintro order dto hfuel rfl
    simp only [OrderDocument.reconciledKey, Order.balanceKey, hfuel]
  cases h with
  | draw hkey hnone hnow =>
      rcases moved hm with hold | horder
      · exact Or.inl hold
      · exact Or.inr (Or.inr (Or.inl ⟨_, _, horder, hnone, hnow, hkey⟩))
  | giveBack hkey =>
      rcases moved hm with hold | horder
      · exact Or.inl hold
      · exact Or.inr (Or.inr (Or.inr ⟨_, rfl, horder, hkey⟩))
  | confirm hkey =>
      rcases moved hm with hold | horder
      · exact Or.inl hold
      · exact Or.inr (Or.inr (Or.inr ⟨_, rfl, horder, own hchecked hkey⟩))
  | replace hkey =>
      rcases moved hm with hold | horder
      · exact Or.inl ((takenBack_sublist _ _).subset hold)
      · exact Or.inr (Or.inr (Or.inr ⟨_, rfl, horder, own hchecked hkey⟩))
  | replaceExact => exact Or.inl ((takenBack_sublist _ _).subset hm)
  | correct =>
      rcases moved hm with hold | horder
      · exact Or.inl hold
      · exact Or.inr (Or.inl horder)
  | _ => exact Or.inl hm

end step

/-! ### The ledger of the platform -/

/-- Every balance is sound, and its movements are of orders that draw from it. -/
structure LitreLedger (A : Arithmetic) (s : Db) : Prop where
  sound : ∀ key, (balanceOf s.docs key).Sound A
  owned : ∀ key, ∀ m ∈ (balanceOf s.docs key).movements, ∀ id, m.orderId = some id →
    ∃ o, s.order id = some o ∧ o.balanceKey = key

theorem litreLedger_empty {A : Arithmetic} : LitreLedger A Store.empty where
  sound := fun _ => sound_empty
  owned := fun key m hm => by cases hm

/-- The movements of an order are all in its own balance. -/
theorem LitreLedger.entries_elsewhere {A : Arithmetic} {s : Db} (h : LitreLedger A s) {id : Id}
    {o : Order} (ho : s.order id = some o) {key : BalanceKey} (hkey : key ≠ o.balanceKey)
    (kinds : LitreMovementKind → Bool) : (balanceOf s.docs key).entries kinds id = [] := by
  refine List.eq_nil_iff_forall_not_mem.mpr fun m hm => hkey ?_
  obtain ⟨hmem, horder, -⟩ := mem_entries.mp hm
  obtain ⟨o', ho', hkey'⟩ := h.owned key m hmem id horder
  cases ho'.symm.trans ho
  exact hkey'.symm

section commit
variable {cfg : Settings} {since : Db} {ev : Event Doc Call.Reply}

theorem commit_litreLedger (hev : ev.Sound (machine cfg)) (hholds : (evolution cfg since).Holds ev)
    (hbefore : LitreLedger cfg.arithmetic ev.before) : LitreLedger cfg.arithmetic ev.after := by
  have kept : ∀ {id o key}, ev.before.order id = some o → o.balanceKey = key →
      ∃ o', ev.after.order id = some o' ∧ o'.balanceKey = key := by
    intro id o key ho hkey
    obtain ⟨o', ho', hevolves⟩ := hholds.before_after.orders id o ho
    exact ⟨o', ho', hevolves.balanceKey.trans hkey⟩
  refine ⟨fun key => ?_, fun key m hm id horder => ?_⟩
  · rcases balance_cases hev hholds.older key with ⟨-, hstep⟩ | ⟨heq, -⟩
    · refine hstep.sound (hbefore.sound key) fun id hnone hsome m hm horder => ?_
      obtain ⟨o, ho⟩ := Option.ne_none_iff_exists'.mp hsome
      obtain ⟨o', ho', -⟩ := hbefore.owned key m hm id horder
      exact absurd (ho'.symm.trans (created_order hev hholds.older hnone ho).1) (by simp)
    · rw [heq]
      exact hbefore.sound key
  · have old : m ∈ (balanceOf ev.before.docs key).movements →
        ∃ o, ev.after.order id = some o ∧ o.balanceKey = key := by
      intro hold
      obtain ⟨o, ho, hkey⟩ := hbefore.owned key m hold id horder
      exact kept ho hkey
    rcases balance_cases hev hholds.older key with ⟨-, hstep⟩ | ⟨heq, -⟩
    · rcases hstep.recorded hholds.pre.2 hm with hold | hnone | ⟨fields, id', horder', hnone, hnow, hkey⟩ |
        ⟨order, hdoc, horder', hkey⟩
      · exact old hold
      · exact absurd (horder.symm.trans hnone) (by simp)
      · cases horder.symm.trans horder'
        exact ⟨_, (created_order hev hholds.older hnone hnow).2, hkey⟩
      · cases horder.symm.trans horder'
        obtain ⟨o, ho, hevolves⟩ := (hholds.pre.1 order hdoc).earlier
        obtain ⟨o', ho', hevolves'⟩ := hholds.base_before.orders _ o ho
        exact kept ho' ((hevolves.trans hevolves').balanceKey.trans hkey)
    · exact old (heq ▸ hm)

end commit

/-- In every state reached, every balance is the sum of its movements if sums are exact, marks the
orders it reconciled, and holds at most one reconciliation, one drawdown and one
return of each order, the return undoing the drawdown. -/
theorem litre_ledger {cfg : Settings} {log : List (Event Doc Call.Reply)}
    {s : Sys Doc Call.Reply Refusal Answer}
    (h : Run (machine cfg) Store.empty (fun _ => True) log s) {key : BalanceKey} {b : LitreBalance}
    (hb : s.store.litreBalance key = some b) :
    (cfg.arithmetic.Exact → b.balanceLitres = (b.movements.map (·.litres)).sum) ∧
    (∀ id, id ∈ b.reconciledOrderIds ↔ (b.entries reconciles id).length = 1) ∧
    (∀ id, (b.entries reconciles id).length ≤ 1 ∧ (b.entries draws id).length ≤ 1 ∧
      (b.entries givesBack id).length ≤ 1) ∧
    (∀ id, ∀ m ∈ b.entries givesBack id, ∃ d, b.entries draws id = [d] ∧ m.litres = -d.litres) ∧
    -- The movements of an order are all in one balance.
    ∀ m ∈ b.movements, ∀ id, m.orderId = some id →
      ∃ o, s.store.order id = some o ∧ o.balanceKey = key := by
  obtain ⟨hledger, -⟩ := db_invariant (I := LitreLedger cfg.arithmetic) consistent_empty litreLedger_empty
    (fun ev hev _ hholds _ hbefore => commit_litreLedger hev hholds hbefore) h
  have hsound := hledger.sound key
  have howned := hledger.owned key
  rw [show balanceOf s.store.docs key = b from balanceOf_eq hb] at hsound howned
  refine ⟨hsound.balance, hsound.marked, fun id => ?_, fun id m hm => ?_, howned⟩
  · exact ⟨hsound.reconciledOnce id, hsound.drawnOnce id, hsound.returnedOnce id⟩
  · obtain ⟨d, hd, hlitres⟩ := hsound.negates id m hm
    exact ⟨d, eq_singleton (hsound.drawnOnce id) hd, hlitres⟩

namespace Sample

def supply (quantityLitres : ℚ) : SupplierInvoiceInput where
  fileId := 1
  confirmed := ⟨quantityLitres, .diesel, "A-1", 0⟩

/-- A shortfall is confirmed, restated, drawn by the next order and given back. -/
def restated : List (Act Request) :=
  opening ++ serve (.create client (order .direct)) 10 6 100 ++
    serve (.confirmInvoice fuelAdmin 100 (supply 900)) 11 3 ++
    serve (.replaceInvoice fuelAdmin 100 (supply 950)) 12 3 ++
    serve (.create client (order .direct)) 13 6 101 ++ serve (.cancel client 101 none) 14 3

def clientDiesel : BalanceKey := ⟨10, 20, .diesel⟩

/-- The platform, were its sums exact. -/
def exactly : Settings := { cfg with arithmetic := .exact }

end Sample

theorem litre_ledger_restated :
    ∃ log s b, Run (machine Sample.exactly) Store.empty (fun _ => True) log s ∧
      s.store.litreBalance Sample.clientDiesel = some b ∧
      b.movements.map (·.litres) = [50, -50, 50] ∧
      b.balanceLitres = (b.movements.map (·.litres)).sum := by
  obtain ⟨log, s, hrun, htest⟩ := exists_run (machine Sample.exactly) Store.empty (fun _ => True)
    Sample.restated (fun _ s => (s.store.litreBalance Sample.clientDiesel).any fun b =>
      b.movements.map (·.litres) = [50, -50, 50]) (by decide +kernel)
  obtain ⟨b, hb, hlitres⟩ := (Option.any_eq_true _ _).mp htest
  exact ⟨log, s, b, hrun, hb, of_decide_eq_true hlitres, (litre_ledger hrun hb).1 Arithmetic.exact_exact⟩

end CiroFuel
