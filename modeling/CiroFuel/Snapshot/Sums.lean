import CiroFuel.Arithmetic
import CiroFuel.Snapshot.Totals

/-!
# Rounded sums over the documents of a store

A sum that is rounded at every addition depends on the order of its terms. It runs over
the documents in the order in which they were stored. What is stored later is added
last, so the sums of two states of a store are compared key by key.
-/
namespace CiroFuel.Snapshot

section
variable {K : Type} [DecidableEq K] {D : K → Type} {A : Arithmetic}
variable {w : (k : K) → D k → ℚ} {a b d : Docs D}

omit [DecidableEq K] in
/-- The weights of all documents, added up from the oldest document on. -/
def Docs.sum (A : Arithmetic) (w : (k : K) → D k → ℚ) (d : Docs D) : ℚ :=
  A.sum (d.entries.map fun e => w e.1 e.2)

theorem Docs.sum_eq : d.sum A w = A.sum (d.keys.map (d.weight w)) := by
  rw [Docs.sum, AList.keys, List.keys, List.map_map]
  congr 1
  refine List.map_congr_left fun e he => ?_
  exact (Docs.weight_some (AList.mem_lookup_iff.mpr he)).symm

omit [DecidableEq K] in
theorem Docs.number_sum : A.Number (d.sum A w) := Arithmetic.number_sum

omit [DecidableEq K] in
/-- The sum over the documents that `pick` selects and `p` retains. -/
theorem Docs.sum_retained {α : Type} (pick : (k : K) → D k → Option α) (p : α → Bool) (f : α → ℚ) :
    A.sum (((d.entries.filterMap fun e => pick e.1 e.2).filter p).map f) =
      d.sum A fun k x => ((pick k x).filter p).elim 0 f := by
  unfold Docs.sum
  induction d.entries with
  | nil => rfl
  | cons e es ih =>
      rw [List.map_cons, List.filterMap_cons]
      beta_reduce
      cases pick e.1 e.2 with
      | none =>
          rw [Option.filter_none, Option.elim_none, Arithmetic.sum_zero_cons]
          exact ih
      | some x =>
          rw [Option.filter_some, List.filter_cons]
          cases p x with
          | false =>
              simp only [Bool.false_eq_true, if_false, Option.elim_none]
              rw [Arithmetic.sum_zero_cons]
              exact ih
          | true =>
              simp only [if_true, Option.elim_some]
              rw [List.map_cons, Arithmetic.sum_cons, Arithmetic.sum_cons, ih]

/-- A key that is new weighed nothing before. -/
theorem Docs.weight_new {l : List K} (h : l ++ a.keys = b.keys) {k : K} (hk : k ∈ l) :
    a.weight w k = 0 := by
  have hnodup : (l ++ a.keys).Nodup := h ▸ b.keys_nodup
  apply Docs.weight_none
  apply AList.lookup_eq_none.mpr
  intro hmem
  exact (List.nodup_append.mp hnodup).2.2 k hk k (AList.mem_keys.mp hmem) rfl

theorem Docs.sum_le_sum (hkeys : a.keys <:+ b.keys) (h : ∀ k, b.weight w k ≤ a.weight w k) :
    b.sum A w ≤ a.sum A w := by
  obtain ⟨l, hl⟩ := hkeys
  rw [Docs.sum_eq, Docs.sum_eq, ← hl, List.map_append]
  calc A.sum (l.map (b.weight w) ++ a.keys.map (b.weight w))
      ≤ A.sum (a.keys.map (b.weight w)) := by
        refine Arithmetic.sum_append_le fun q hq => ?_
        obtain ⟨k, hk, rfl⟩ := List.mem_map.mp hq
        exact (h k).trans_eq (Docs.weight_new hl hk)
    _ ≤ A.sum (a.keys.map (a.weight w)) := Arithmetic.sum_le_sum fun k _ => h k

theorem Docs.le_sum (hkeys : a.keys <:+ b.keys) (h : ∀ k, a.weight w k ≤ b.weight w k) :
    a.sum A w ≤ b.sum A w := by
  obtain ⟨l, hl⟩ := hkeys
  rw [Docs.sum_eq, Docs.sum_eq, ← hl, List.map_append]
  calc A.sum (a.keys.map (a.weight w))
      ≤ A.sum (a.keys.map (b.weight w)) := Arithmetic.sum_le_sum fun k _ => h k
    _ ≤ A.sum (l.map (b.weight w) ++ a.keys.map (b.weight w)) := by
        refine Arithmetic.le_sum_append fun q hq => ?_
        obtain ⟨k, hk, rfl⟩ := List.mem_map.mp hq
        exact (Docs.weight_new hl hk).symm.trans_le (h k)

theorem Docs.sum_congr (hkeys : a.keys <:+ b.keys) (h : ∀ k, b.weight w k = a.weight w k) :
    b.sum A w = a.sum A w :=
  le_antisymm (Docs.sum_le_sum hkeys fun k => (h k).le) (Docs.le_sum hkeys fun k => (h k).ge)

/-- A key that is new stands after those there were. -/
theorem Docs.keys_split (hkeys : a.keys <:+ b.keys) {k₀ : K} (hk₀ : k₀ ∉ a) (hmem : k₀ ∈ b) :
    ∃ later earlier, (later ++ k₀ :: earlier) ++ a.keys = b.keys ∧
      ∀ k ∈ later ++ earlier, k ≠ k₀ ∧ a.weight w k = 0 := by
  obtain ⟨l, hl⟩ := hkeys
  have hnew : k₀ ∈ l := by
    have hkey := AList.mem_keys.mp hmem
    rw [← hl] at hkey
    exact (List.mem_append.mp hkey).resolve_right fun hold => hk₀ (AList.mem_keys.mpr hold)
  obtain ⟨later, earlier, rfl⟩ := List.append_of_mem hnew
  have hnodup : (later ++ k₀ :: earlier).Nodup :=
    (List.nodup_append.mp (show ((later ++ k₀ :: earlier) ++ a.keys).Nodup from
      hl ▸ b.keys_nodup)).1
  have hfirst := (List.nodup_middle.mp hnodup).notMem
  refine ⟨later, earlier, hl, fun k hk => ⟨?_, Docs.weight_new hl ?_⟩⟩
  · rintro rfl
    exact hfirst hk
  · rcases List.mem_append.mp hk with hlater | hearlier
    · exact List.mem_append_left _ hlater
    · exact List.mem_append_right _ (List.mem_cons_of_mem _ hearlier)

/-- Where one new document alone weighs something, it is added last. -/
theorem Docs.sum_le_add (hkeys : a.keys <:+ b.keys) {k₀ : K} {x : ℚ} (hx : 0 ≤ x)
    (h : ∀ k, k ≠ k₀ → b.weight w k ≤ a.weight w k) (hk₀ : k₀ ∉ a) (hle : b.weight w k₀ ≤ x) :
    b.sum A w ≤ A.round (a.sum A w + x) := by
  by_cases hmem : k₀ ∈ b
  · obtain ⟨later, earlier, hl, hnew⟩ := Docs.keys_split (w := w) hkeys hk₀ hmem
    have hnone : ∀ l : List K, (∀ k ∈ l, k ∈ later ++ earlier) →
        ∀ q ∈ l.map (b.weight w), q ≤ 0 := by
      intro l hl q hq
      obtain ⟨k, hk, rfl⟩ := List.mem_map.mp hq
      obtain ⟨hne, hzero⟩ := hnew k (hl k hk)
      exact (h k hne).trans_eq hzero
    rw [Docs.sum_eq, Docs.sum_eq, ← hl, List.append_assoc, List.map_append, List.cons_append,
      List.map_cons, List.map_append]
    calc A.sum (later.map (b.weight w) ++
          (b.weight w k₀ :: (earlier.map (b.weight w) ++ a.keys.map (b.weight w))))
        ≤ A.sum (b.weight w k₀ :: (earlier.map (b.weight w) ++ a.keys.map (b.weight w))) :=
          Arithmetic.sum_append_le (hnone later fun k => List.mem_append_left _)
      _ ≤ A.round (A.sum (a.keys.map (a.weight w)) + x) := by
          apply A.monotone
          refine add_le_add ?_ hle
          calc A.sum (earlier.map (b.weight w) ++ a.keys.map (b.weight w))
              ≤ A.sum (a.keys.map (b.weight w)) :=
                Arithmetic.sum_append_le (hnone earlier fun k => List.mem_append_right _)
            _ ≤ A.sum (a.keys.map (a.weight w)) := by
                refine Arithmetic.sum_le_sum fun k hk => h k ?_
                rintro rfl
                exact hk₀ (AList.mem_keys.mpr hk)
  · calc b.sum A w ≤ a.sum A w := by
          refine Docs.sum_le_sum hkeys fun k => ?_
          by_cases hk : k = k₀
          · rw [hk, Docs.weight_none (AList.lookup_eq_none.mpr hmem),
              Docs.weight_none (AList.lookup_eq_none.mpr hk₀)]
          · exact h k hk
      _ ≤ A.round (a.sum A w + x) := Arithmetic.le_round Docs.number_sum (le_add_of_nonneg_right hx)

/-- Where one new document alone weighs anything else, the sum is what it was and that. -/
theorem Docs.sum_add (hkeys : a.keys <:+ b.keys) {k₀ : K}
    (h : ∀ k, k ≠ k₀ → b.weight w k = a.weight w k) (hk₀ : k₀ ∉ a) (hmem : k₀ ∈ b) :
    b.sum A w = A.round (a.sum A w + b.weight w k₀) := by
  obtain ⟨later, earlier, hl, hnew⟩ := Docs.keys_split (w := w) hkeys hk₀ hmem
  have hnone : ∀ l : List K, (∀ k ∈ l, k ∈ later ++ earlier) →
      ∀ q ∈ l.map (b.weight w), q = 0 := by
    intro l hl q hq
    obtain ⟨k, hk, rfl⟩ := List.mem_map.mp hq
    obtain ⟨hne, hzero⟩ := hnew k (hl k hk)
    exact (h k hne).trans hzero
  have hkept : a.keys.map (b.weight w) = a.keys.map (a.weight w) := by
    refine List.map_congr_left fun k hk => h k ?_
    rintro rfl
    exact hk₀ (AList.mem_keys.mpr hk)
  rw [Docs.sum_eq, Docs.sum_eq, ← hl, List.append_assoc, List.map_append, List.cons_append,
    List.map_cons, List.map_append,
    Arithmetic.sum_append_zero (hnone later fun k => List.mem_append_left _), Arithmetic.sum_cons,
    Arithmetic.sum_append_zero (hnone earlier fun k => List.mem_append_right _), hkept]

end
end CiroFuel.Snapshot
