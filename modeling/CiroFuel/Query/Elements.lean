import Mathlib.Data.List.Basic
import Mathlib.Data.List.Count

/-!
# Arrays inside documents

A write through the positional operator changes the first element that its filter
finds, and a push adds one at the end. An array that is only written in these ways
is extended: its elements stay where they are and change as the writes allow.
-/
namespace CiroFuel.Query

variable {E I : Type} {R : E → E → Prop} {p q : E → Bool} {f : E → E} {l l' l'' : List E} {e : E}

/-- Rewrites the first element that passes the filter. -/
def setFirst (p : E → Bool) (f : E → E) : List E → List E
  | [] => []
  | e :: l => if p e then f e :: l else e :: setFirst p f l

@[simp] theorem length_setFirst (l : List E) : (setFirst p f l).length = l.length := by
  induction l with
  | nil => rfl
  | cons e l ih =>
      rw [setFirst]
      split_ifs
      · rfl
      · rw [List.length_cons, List.length_cons, ih]

/-- Every element has been there, perhaps before the rewriting. -/
theorem of_mem_setFirst (he : e ∈ setFirst p f l) : ∃ e' ∈ l, e = e' ∨ e = f e' := by
  induction l with
  | nil => cases he
  | cons e₀ l ih =>
      rw [setFirst] at he
      split_ifs at he
      · rcases List.mem_cons.mp he with rfl | he
        · exact ⟨e₀, List.mem_cons_self, Or.inr rfl⟩
        · exact ⟨e, List.mem_cons_of_mem _ he, Or.inl rfl⟩
      · rcases List.mem_cons.mp he with rfl | he
        · exact ⟨e, List.mem_cons_self, Or.inl rfl⟩
        · obtain ⟨e', he', heq⟩ := ih he
          exact ⟨e', List.mem_cons_of_mem _ he', heq⟩

/-- If some element passes the filter, one of them has been rewritten. -/
theorem setFirst_mem (he : e ∈ l) (hp : p e = true) :
    ∃ e' ∈ l, p e' = true ∧ f e' ∈ setFirst p f l := by
  induction l with
  | nil => cases he
  | cons e₀ l ih =>
      rw [setFirst]
      split_ifs with h₀
      · exact ⟨e₀, List.mem_cons_self, h₀, List.mem_cons_self⟩
      · rcases List.mem_cons.mp he with rfl | he
        · exact (h₀ hp).elim
        · obtain ⟨e', hmem, hp', hf⟩ := ih he
          exact ⟨e', List.mem_cons_of_mem _ hmem, hp', List.mem_cons_of_mem _ hf⟩

/-- A rewriting that keeps the identifiers. -/
theorem setFirst_map {key : E → I} (hf : ∀ e, key (f e) = key e) (l : List E) :
    (setFirst p f l).map key = l.map key := by
  induction l with
  | nil => rfl
  | cons e l ih =>
      rw [setFirst]
      split_ifs
      · rw [List.map_cons, List.map_cons, hf]
      · rw [List.map_cons, List.map_cons, ih]

/-- The elements of `l` are still there, each changed as `R` allows; others may follow them. -/
inductive Extends (R : E → E → Prop) : List E → List E → Prop where
  | added (l : List E) : Extends R [] l
  | kept {e e' : E} {l l' : List E} (he : R e e') (h : Extends R l l') : Extends R (e :: l) (e' :: l')

namespace Extends

theorem refl (hrefl : ∀ e, R e e) (l : List E) : Extends R l l := by
  induction l with
  | nil => exact .added []
  | cons e l ih => exact .kept (hrefl e) ih

theorem trans (htrans : ∀ a b c, R a b → R b c → R a c) (h : Extends R l l')
    (h' : Extends R l' l'') : Extends R l l'' := by
  induction h generalizing l'' with
  | added l => exact .added l''
  | kept he _ ih =>
      cases h' with
      | kept he' hl' => exact .kept (htrans _ _ _ he he') (ih hl')

theorem push (hrefl : ∀ e, R e e) (l added : List E) : Extends R l (l ++ added) := by
  induction l with
  | nil => exact .added added
  | cons e l ih => exact .kept (hrefl e) ih

theorem rewritten (hrefl : ∀ e, R e e) (hf : ∀ e, p e = true → R e (f e)) (l : List E) :
    Extends R l (setFirst p f l) := by
  induction l with
  | nil => exact .added []
  | cons e l ih =>
      rw [setFirst]
      split_ifs with he
      · exact .kept (hf e he) (refl hrefl l)
      · exact .kept (hrefl e) ih

/-- What has become of an element. -/
theorem mem (h : Extends R l l') (he : e ∈ l) : ∃ e' ∈ l', R e e' := by
  induction h with
  | added l => cases he
  | kept hR _ ih =>
      rcases List.mem_cons.mp he with rfl | he
      · exact ⟨_, List.mem_cons_self, hR⟩
      · obtain ⟨e', hmem, hR'⟩ := ih he
        exact ⟨e', List.mem_cons_of_mem _ hmem, hR'⟩

theorem getElem? (h : Extends R l l') {i : ℕ} (he : l[i]? = some e) :
    ∃ e', l'[i]? = some e' ∧ R e e' := by
  induction h generalizing i with
  | added l => simp at he
  | kept hR _ ih =>
      cases i with
      | zero =>
          cases he
          exact ⟨_, rfl, hR⟩
      | succ i => exact ih he

end Extends

/-- A rewriting that brings no element to pass `q` leaves no more of them. -/
theorem countP_setFirst_le (hf : ∀ e, p e = true → q (f e) = true → q e = true) (l : List E) :
    (setFirst p f l).countP q ≤ l.countP q := by
  induction l with
  | nil => exact Nat.le_refl _
  | cons e l ih =>
      rw [setFirst]
      split_ifs with he
      · rw [List.countP_cons, List.countP_cons]
        have hq := hf e he
        split_ifs with hnew hold
        · exact Nat.le_refl _
        · exact (hold (hq hnew)).elim
        · exact Nat.le_succ _
        · exact Nat.le_refl _
      · rw [List.countP_cons, List.countP_cons]
        omega

end CiroFuel.Query
