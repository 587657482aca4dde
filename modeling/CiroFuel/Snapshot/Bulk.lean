import CiroFuel.Snapshot.System

/-!
# Updating many documents

A bulk update goes through the keys of its view once and rewrites each document
that passes its filter.
-/
namespace CiroFuel.Snapshot

variable {K X : Type} [DecidableEq K] [DecidableEq X] {D : K → Type} [Indexed D X]

/-- A document that only its own key may change. -/
def rewrite (p : (k : K) → D k → Bool) (f : (k : K) → D k → D k) (k : K) (x : D k) : D k :=
  if p k x then f k x else x

namespace Tx
variable {ε α : Type}

/-- Rewrites the documents under the given keys that pass the filter. -/
def updateEach (p : (k : K) → D k → Bool) (f : (k : K) → D k → D k) : List K → Tx D ε Unit
  | [] => pure ()
  | k :: ks => do
      let _ ← findOneAndUpdate k (p k) (f k)
      updateEach p f ks

/-- Rewrites the documents that pass the filter. -/
def updateMany (p : (k : K) → D k → Bool) (f : (k : K) → D k → D k) : Tx D ε Unit := do
  let d ← scan
  updateEach p f d.keys

variable {env : Env} {v w : View D} {p : (k : K) → D k → Bool} {f : (k : K) → D k → D k}

theorem findOneAndUpdate_find {k : K} {q : D k → Bool} {g : D k → D k} {r : Option (D k)}
    (h : run env (findOneAndUpdate k q g : Tx D ε _) v = .ok (r, w)) :
    w.find k = (v.find k).map (fun x => if q x then g x else x) ∧
      ∀ k', k' ≠ k → w.find k' = v.find k' := by
  rcases findOneAndUpdate_ok h with ⟨x, hx, hq, -, -, rfl⟩ | ⟨-, rfl, hnone⟩
  · constructor
    · rw [View.find_put_self, hx, Option.map_some, if_pos hq]
    · intro k' hk'
      exact View.find_put_ne _ _ hk'
  · constructor
    · cases hx : w.find k with
      | none => rfl
      | some x => rw [Option.map_some, hnone x hx, if_neg Bool.false_ne_true]
    · intro k' _
      rfl

theorem updateEach_find {ks : List K} (hks : ks.Nodup) {r : Unit}
    (h : run env (updateEach p f ks : Tx D ε _) v = .ok (r, w)) (k : K) :
    w.find k = if k ∈ ks then (v.find k).map (rewrite p f k) else v.find k := by
  induction ks generalizing v with
  | nil =>
      obtain ⟨-, rfl⟩ := pure_ok h
      rw [if_neg List.not_mem_nil]
  | cons k' ks ih =>
      obtain ⟨hk', hnodup⟩ := List.nodup_cons.mp hks
      obtain ⟨x, u, hx, hrest⟩ := bind_ok h
      obtain ⟨hself, hother⟩ := findOneAndUpdate_find hx
      rw [ih hnodup hrest]
      by_cases hk : k = k'
      · subst hk
        rw [if_neg hk', if_pos List.mem_cons_self, hself]
        rfl
      · rw [hother k hk]
        simp only [List.mem_cons, hk, false_or]

/-- A bulk update rewrites every document that passes its filter, and no other. -/
theorem updateMany_find {r : Unit} (h : run env (updateMany p f : Tx D ε _) v = .ok (r, w)) (k : K) :
    w.find k = (v.find k).map (rewrite p f k) := by
  obtain ⟨d, u, hd, hrest⟩ := bind_ok h
  obtain ⟨rfl, rfl⟩ := scan_ok hd
  rw [updateEach_find (AList.keys_nodup _) hrest]
  by_cases hk : k ∈ u.docs.keys
  · rw [if_pos hk]
  · have hnone : u.find k = none := AList.lookup_eq_none.mpr hk
    rw [if_neg hk, hnone, Option.map_none]

end Tx
end CiroFuel.Snapshot
