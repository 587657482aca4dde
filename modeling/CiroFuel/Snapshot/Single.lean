import CiroFuel.Snapshot.System

/-!
# Calls outside transactions

A call that is not isolated runs on the store it commits to, and leaves there what
its body has written. Most such calls write one document.
-/
namespace CiroFuel.Snapshot

variable {K X : Type} [DecidableEq K] [DecidableEq X] {D : K → Type} [Indexed D X]
variable {L : Type} {R : L → Type} {ε Q A : Type}

/-- The stores differ in the document under `k`, which is `x` afterwards. -/
structure Store.Puts (s s' : Store D) (k : K) (x : D k) : Prop where
  here : s'.find k = some x
  elsewhere : ∀ k', k' ≠ k → s'.find k' = s.find k'

section commits
variable {M : Machine D R ε Q A} {ev : Event D R}

theorem Event.Sound.stored (h : ev.Sound M) (hiso : M.isolated ev.label = false) :
    ev.base = ev.before ∧ ∀ k, ev.after.find k = ev.view.find k := by
  have hbase : ev.base = ev.before := h.current hiso
  refine ⟨hbase, fun k => ?_⟩
  rcases h.cases (hbase ▸ Store.Older.refl _) k with ⟨-, hafter⟩ | ⟨hview, hafter, -⟩
  · exact hafter
  · rw [hafter, hview, hbase]

theorem Event.Sound.puts (h : ev.Sound M) (hiso : M.isolated ev.label = false) {k : K} {x : D k}
    (hview : ∀ k', ev.view.find k' = ((View.start ev.before.docs).put k x).find k') :
    Store.Puts ev.before ev.after k x := by
  obtain ⟨-, hafter⟩ := h.stored hiso
  constructor
  · rw [hafter, hview, View.find_put_self]
  · intro k' hk'
    rw [hafter, hview, View.find_put_ne _ _ hk']
    rfl

/-- A call that has written nothing. -/
theorem Event.Sound.untouched (h : ev.Sound M) (hiso : M.isolated ev.label = false)
    (hview : ∀ k, ev.view.find k = ev.before.find k) (k : K) :
    ev.after.find k = ev.before.find k := by
  obtain ⟨-, hafter⟩ := h.stored hiso
  rw [hafter, hview]

end commits

/-! ### Bodies that refuse -/

namespace Tx
variable {ε α β : Type} {env : Env} {v : View D}

theorem bind_error {tx : Tx D ε α} {f : α → Tx D ε β} {e : Failure ε}
    (h : run env (tx >>= f) v = .error e) :
    run env tx v = .error e ∨ ∃ a u, run env tx v = .ok (a, u) ∧ run env (f a) u = .error e := by
  rw [run_bind] at h
  split at h
  · rename_i hrun
    exact Or.inr ⟨_, _, hrun, h⟩
  · rename_i hrun
    cases h
    exact Or.inl hrun

/-- Inserting under a free key fails for the sake of the indexes only. -/
theorem insert_error {k : K} {x : D k} {e : Failure ε} (hk : v.find k = none)
    (h : run env (insert k x : Tx D ε Unit) v = .error e) :
    e = .duplicateKey ∧ v.docs.fits k x = false := by
  have hlookup : v.docs.lookup k = none := hk
  simp only [insert, run, hlookup, Option.isSome_none, Bool.false_eq_true, if_false] at h
  split_ifs at h with hfit
  cases h
  exact ⟨rfl, by simpa using hfit⟩

/-- An update that keeps the index entries does not fail. -/
theorem updateOne_error {k : K} {p : D k → Bool} {f : D k → D k} {e : Failure ε}
    (hunique : v.docs.Unique) (hentries : ∀ x, Indexed.entries k (f x) ⊆ Indexed.entries k x)
    (h : run env (updateOne k p f : Tx D ε Bool) v = .error e) : False := by
  rcases bind_error h with h | ⟨a, u, -, h⟩
  · simp only [findOneAndUpdate, run] at h
    split at h
    · rename_i x hx
      split_ifs at h
      · have hfit : v.docs.fits k (f x) = true := by
          apply Docs.fits_complete
          intro k' x' i hx' hi hi'
          exact hunique k' k x' x i hx' hx hi' (hentries x hi)
        simp only [run, hfit, if_true] at h
        cases h
      · cases h
    · cases h
  · cases h

end Tx

/-- A document that does not fit shares an index entry with another one. -/
theorem Docs.fits_conflict {d : Docs D} {k : K} {x : D k} (h : d.fits k x = false) :
    ∃ (k' : K) (x' : D k') (i : X), d.lookup k' = some x' ∧ i ∈ Indexed.entries k x ∧
      i ∈ Indexed.entries k' x' ∧ k' ≠ k := by
  by_contra hnone
  have hfit : d.fits k x = true := by
    apply Docs.fits_complete
    intro k' x' i hx' hi hi'
    by_contra hne
    exact hnone ⟨k', x', i, hx', hi, hi', hne⟩
  rw [h] at hfit
  cases hfit

end CiroFuel.Snapshot
