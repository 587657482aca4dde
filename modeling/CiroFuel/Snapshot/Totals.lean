import CiroFuel.Snapshot.Store
import Mathlib.Algebra.BigOperators.Group.Finset.Basic
import Mathlib.Algebra.Order.BigOperators.Group.Finset
import Mathlib.Tactic.Abel

/-!
# Totals over the documents of a store

Each document has a weight; the total of a store is the sum of the weights. A
total is a sum over keys, and a key without a document weighs nothing, so two
stores are compared key by key.
-/
namespace CiroFuel.Snapshot
open scoped BigOperators

section
variable {K M : Type} [DecidableEq K] [AddCommMonoid M] {D : K → Type}

/-- The sum of the weights of all documents. -/
def Docs.total (w : (k : K) → D k → M) (d : Docs D) : M := (d.entries.map fun e => w e.1 e.2).sum

/-- The weight of the document under a key, if there is one. -/
def Docs.weight (w : (k : K) → D k → M) (d : Docs D) (k : K) : M := (d.lookup k).elim 0 (w k)

variable {w : (k : K) → D k → M} {d : Docs D}

theorem Docs.weight_some {k : K} {x : D k} (h : d.lookup k = some x) : d.weight w k = w k x := by
  rw [Docs.weight, h]
  rfl

theorem Docs.weight_none {k : K} (h : d.lookup k = none) : d.weight w k = 0 := by
  rw [Docs.weight, h]
  rfl

/-- A total is a sum over any set of keys that contains those in use. -/
theorem Docs.total_eq_sum {S : Finset K} (hS : ∀ k ∈ d, k ∈ S) :
    d.total w = ∑ k ∈ S, d.weight w k := by
  have hkeys : d.total w = ∑ k ∈ d.keys.toFinset, d.weight w k := by
    rw [List.sum_toFinset _ d.keys_nodup, AList.keys, List.keys, List.map_map, Docs.total]
    congr 1
    refine List.map_congr_left fun e he => ?_
    exact (Docs.weight_some (AList.mem_lookup_iff.mpr he)).symm
  rw [hkeys]
  refine Finset.sum_subset (fun k hk => ?_) fun k _ hk => ?_
  · exact hS k (AList.mem_keys.mpr (List.mem_toFinset.mp hk))
  · have hnone : k ∉ d := fun hmem => hk (List.mem_toFinset.mpr (AList.mem_keys.mp hmem))
    exact Docs.weight_none (AList.lookup_eq_none.mpr hnone)

theorem Docs.mem_keys_union (d d' : Docs D) (k : K) :
    (k ∈ d → k ∈ d.keys.toFinset ∪ d'.keys.toFinset) ∧
      (k ∈ d' → k ∈ d.keys.toFinset ∪ d'.keys.toFinset) := by
  constructor
  · intro hk
    exact Finset.mem_union_left _ (List.mem_toFinset.mpr (AList.mem_keys.mp hk))
  · intro hk
    exact Finset.mem_union_right _ (List.mem_toFinset.mpr (AList.mem_keys.mp hk))

/-- Stores that weigh the same under every key have the same total. -/
theorem Docs.total_congr {d' : Docs D} (h : ∀ k, d.weight w k = d'.weight w k) :
    d.total w = d'.total w := by
  rw [Docs.total_eq_sum (d := d) fun k => (Docs.mem_keys_union d d' k).1]
  rw [Docs.total_eq_sum (d := d') fun k => (Docs.mem_keys_union d d' k).2]
  exact Finset.sum_congr rfl fun k _ => h k

/-- Where only one key changes weight, the total changes by that. -/
theorem Docs.total_put {d' : Docs D} (k₀ : K) (h : ∀ k, k ≠ k₀ → d'.weight w k = d.weight w k) :
    d'.total w + d.weight w k₀ = d.total w + d'.weight w k₀ := by
  rw [Docs.total_eq_sum (d := d) (S := insert k₀ (d.keys.toFinset ∪ d'.keys.toFinset)) fun k hk =>
    Finset.mem_insert_of_mem ((Docs.mem_keys_union d d' k).1 hk)]
  rw [Docs.total_eq_sum (d := d') (S := insert k₀ (d.keys.toFinset ∪ d'.keys.toFinset)) fun k hk =>
    Finset.mem_insert_of_mem ((Docs.mem_keys_union d d' k).2 hk)]
  have hmem := Finset.mem_insert_self k₀ (d.keys.toFinset ∪ d'.keys.toFinset)
  rw [← Finset.sum_erase_add _ _ hmem, ← Finset.sum_erase_add _ _ hmem]
  have hrest : ∀ k ∈ (insert k₀ (d.keys.toFinset ∪ d'.keys.toFinset)).erase k₀,
      d'.weight w k = d.weight w k := fun k hk => h k (Finset.ne_of_mem_erase hk)
  rw [Finset.sum_congr rfl hrest]
  abel

/-- Weights that agree on the stored documents have the same total. -/
theorem Docs.total_congr_docs {w' : (k : K) → D k → M}
    (h : ∀ k x, d.lookup k = some x → w k x = w' k x) : d.total w = d.total w' := by
  unfold Docs.total
  congr 1
  refine List.map_congr_left fun e he => ?_
  exact h e.1 e.2 (AList.mem_lookup_iff.mpr he)

omit [DecidableEq K] in
theorem Docs.total_add {w' : (k : K) → D k → M} :
    d.total (fun k x => w k x + w' k x) = d.total w + d.total w' :=
  List.sum_map_add

omit [DecidableEq K] in
/-- A total of totals may be taken the other way round. -/
theorem Docs.total_comm {d' : Docs D} (f : (k : K) → D k → (k' : K) → D k' → M) :
    d.total (fun k x => d'.total (f k x)) = d'.total fun k' x' => d.total fun k x => f k x k' x' := by
  unfold Docs.total
  induction d.entries with
  | nil => simp
  | cons e es ih =>
      rw [List.map_cons, List.sum_cons, ih, ← List.sum_map_add]
      rfl

/-- A total to which one document alone contributes. -/
theorem Docs.total_single {k : K} {x : D k} (h : d.lookup k = some x)
    (hothers : ∀ k' x', k' ≠ k → w k' x' = 0) : d.total w = w k x := by
  rw [Docs.total_eq_sum (S := insert k d.keys.toFinset) fun k' hk' =>
    Finset.mem_insert_of_mem (List.mem_toFinset.mpr (AList.mem_keys.mp hk'))]
  rw [Finset.sum_eq_single k, Docs.weight_some h]
  · intro k' _ hk'
    rw [Docs.weight]
    cases d.lookup k' with
    | none => rfl
    | some x' => exact hothers k' x' hk'
  · intro hk
    exact absurd (Finset.mem_insert_self k _) hk

/-- Two weights that a matching of the keys relates have the same total. -/
theorem Docs.total_of_matching {w' : (k : K) → D k → M} (e : K → K)
    (hkept : ∀ k, d.weight w k ≠ 0 → d.weight w k = d.weight w' (e k))
    (hinj : ∀ k k', d.weight w k ≠ 0 → d.weight w k' ≠ 0 → e k = e k' → k = k')
    (hsurj : ∀ k, d.weight w' k ≠ 0 → ∃ k', d.weight w k' ≠ 0 ∧ e k' = k) :
    d.total w = d.total w' := by
  have stored : ∀ {w : (k : K) → D k → M} {k}, d.weight w k ≠ 0 → k ∈ d.keys.toFinset := by
    intro w k hk
    by_contra hmem
    refine hk (Docs.weight_none (AList.lookup_eq_none.mpr fun hk' => hmem ?_))
    exact List.mem_toFinset.mpr (AList.mem_keys.mp hk')
  have keys : ∀ k ∈ d, k ∈ d.keys.toFinset := fun k hk =>
    List.mem_toFinset.mpr (AList.mem_keys.mp hk)
  rw [Docs.total_eq_sum keys, Docs.total_eq_sum keys]
  refine Finset.sum_bij_ne_zero (fun k _ _ => e k) (fun k _ hk => ?_) ?_ ?_ fun k _ hk => hkept k hk
  · exact stored (hkept k hk ▸ hk)
  · exact fun k _ hk k' _ hk' heq => hinj k k' hk hk' heq
  · intro k _ hk
    obtain ⟨k', hk', heq⟩ := hsurj k hk
    exact ⟨k', stored hk', hk', heq⟩

omit [DecidableEq K] in
/-- The sum over the documents that `pick` selects and `p` retains. -/
theorem Docs.sum_selected {α : Type} (pick : (k : K) → D k → Option α) (p : α → Bool) (f : α → M) :
    (((d.entries.filterMap fun e => pick e.1 e.2).filter p).map f).sum =
      d.total fun k x => ((pick k x).filter p).elim 0 f := by
  unfold Docs.total
  induction d.entries with
  | nil => rfl
  | cons e es ih =>
      cases hpick : pick e.1 e.2 with
      | none => simp [hpick, ih]
      | some a =>
          cases hp : p a with
          | false => simp [hpick, hp, ih, Option.filter]
          | true => simp [hpick, hp, ih, Option.filter]

end

section order
variable {K M : Type} [DecidableEq K] [AddCommMonoid M] [PartialOrder M] [IsOrderedAddMonoid M]
variable {D : K → Type} {w : (k : K) → D k → M} {d d' : Docs D}

theorem Docs.total_le_total (h : ∀ k, d.weight w k ≤ d'.weight w k) : d.total w ≤ d'.total w := by
  rw [Docs.total_eq_sum (d := d) fun k => (Docs.mem_keys_union d d' k).1]
  rw [Docs.total_eq_sum (d := d') fun k => (Docs.mem_keys_union d d' k).2]
  exact Finset.sum_le_sum fun k _ => h k

/-- Where only one key gains weight, the total gains at most that. -/
theorem Docs.total_le_add (k₀ : K) {x : M} (h : ∀ k, k ≠ k₀ → d'.weight w k ≤ d.weight w k)
    (hk₀ : d'.weight w k₀ ≤ d.weight w k₀ + x) : d'.total w ≤ d.total w + x := by
  rw [Docs.total_eq_sum (d := d) (S := insert k₀ (d.keys.toFinset ∪ d'.keys.toFinset)) fun k hk =>
    Finset.mem_insert_of_mem ((Docs.mem_keys_union d d' k).1 hk)]
  rw [Docs.total_eq_sum (d := d') (S := insert k₀ (d.keys.toFinset ∪ d'.keys.toFinset)) fun k hk =>
    Finset.mem_insert_of_mem ((Docs.mem_keys_union d d' k).2 hk)]
  have hmem := Finset.mem_insert_self k₀ (d.keys.toFinset ∪ d'.keys.toFinset)
  rw [← Finset.sum_erase_add _ _ hmem, ← Finset.sum_erase_add _ _ hmem, add_assoc]
  refine add_le_add (Finset.sum_le_sum fun k hk => ?_) hk₀
  exact h k (Finset.ne_of_mem_erase hk)

end order
end CiroFuel.Snapshot
