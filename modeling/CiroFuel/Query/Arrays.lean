import Mathlib.Data.List.Basic

/-!
# Elements of an array that a filter keeps

An array is searched for the first element that passes a filter, and elements are
changed in their places.
-/
namespace CiroFuel
variable {α : Type} {p q : α → Bool} {f : α → α} {x : α}

/-- Changing an element that a filter drops does not show. -/
theorem filter_modify_of_not {l : List α} {i : ℕ} (hf : ∀ x, p (f x) = p x)
    (hi : ∀ x, l[i]? = some x → p x = false) : (l.modify i f).filter p = l.filter p := by
  induction l generalizing i with
  | nil => simp
  | cons a l ih =>
      cases i with
      | zero =>
          have ha : p a = false := hi a rfl
          rw [List.modify_zero_cons, List.filter_cons_of_neg (by simp [hf, ha]),
            List.filter_cons_of_neg (by simp [ha])]
      | succ i =>
          have htail := ih (i := i) fun x hx => hi x hx
          rw [List.modify_succ_cons, List.filter_cons, List.filter_cons, htail]

/-- A change that neither the filter nor the reading of an element sees. -/
theorem filter_modify_map {β : Type} {g : α → β} (l : List α) (i : ℕ) (hf : ∀ x, p (f x) = p x)
    (hg : ∀ x, g (f x) = g x) : ((l.modify i f).filter p).map g = (l.filter p).map g := by
  induction l generalizing i with
  | nil => simp
  | cons a l ih =>
      cases i with
      | zero =>
          rw [List.modify_zero_cons, List.filter_cons, List.filter_cons, hf]
          split_ifs
          · rw [List.map_cons, List.map_cons, hg]
          · rfl
      | succ i =>
          rw [List.modify_succ_cons, List.filter_cons, List.filter_cons]
          split_ifs
          · rw [List.map_cons, List.map_cons, ih]
          · exact ih i

/-- Changing the only element that a filter keeps. -/
theorem filter_modify_of_pos {l : List α} {i : ℕ} {x y : α} (hf : ∀ x, p (f x) = p x)
    (hi : l[i]? = some x) (hx : p x = true) (honly : l.filter p = [y]) :
    x = y ∧ (l.modify i f).filter p = [f x] := by
  induction l generalizing i with
  | nil => cases hi
  | cons a l ih =>
      cases i with
      | zero =>
          cases hi
          rw [List.filter_cons_of_pos hx] at honly
          obtain ⟨rfl, hnone⟩ := List.cons.inj honly
          refine ⟨rfl, ?_⟩
          rw [List.modify_zero_cons, List.filter_cons_of_pos (by rw [hf, hx]), hnone]
      | succ i =>
          have hmem : x ∈ l.filter p := List.mem_filter.mpr ⟨List.mem_of_getElem? hi, hx⟩
          cases ha : p a with
          | true =>
              rw [List.filter_cons_of_pos ha] at honly
              obtain ⟨-, hnone⟩ := List.cons.inj honly
              rw [hnone] at hmem
              cases hmem
          | false =>
              rw [List.filter_cons_of_neg (by simp [ha])] at honly
              rw [List.modify_succ_cons, List.filter_cons_of_neg (by simp [ha])]
              exact ih hi honly

/-- Changing an element so that the filter drops it. -/
theorem filter_modify_sublist (l : List α) (i : ℕ) (hf : ∀ x, p (f x) = false) :
    ((l.modify i f).filter p).Sublist (l.filter p) := by
  induction l generalizing i with
  | nil => simp
  | cons a l ih =>
      cases i with
      | zero =>
          rw [List.modify_zero_cons, List.filter_cons_of_neg (by simp [hf])]
          exact (List.sublist_cons_self a l).filter p
      | succ i =>
          rw [List.modify_succ_cons, List.filter_cons, List.filter_cons]
          split_ifs
          · exact (ih i).cons_cons a
          · exact ih i

theorem find?_of_filter {l : List α} (h : l.filter q = [x]) (himp : ∀ y, p y = true → q y = true)
    (hx : p x = true) : l.find? p = some x := by
  have hmem : x ∈ l := List.mem_of_mem_filter (h ▸ List.mem_singleton_self x)
  cases hfind : l.find? p with
  | none => exact absurd hx (List.find?_eq_none.mp hfind x hmem)
  | some y =>
      have hy : y ∈ l.filter q :=
        List.mem_filter.mpr ⟨List.mem_of_find?_eq_some hfind, himp y (List.find?_some hfind)⟩
      rw [h] at hy
      rw [List.mem_singleton.mp hy]

/-- The only element that a filter keeps is found, and none is left once it has been changed so
that the filter drops it. -/
theorem findIdx?_of_filter {l : List α} (h : l.filter q = [x]) :
    ∃ i, l.findIdx? q = some i ∧ l[i]? = some x ∧
      ∀ f : α → α, q (f x) = false → (l.modify i f).filter q = [] := by
  induction l with
  | nil => cases h
  | cons a l ih =>
      cases ha : q a with
      | true =>
          rw [List.filter_cons_of_pos ha] at h
          obtain ⟨rfl, hnil⟩ := List.cons.inj h
          refine ⟨0, by rw [List.findIdx?_cons, if_pos ha], rfl, fun f hf => ?_⟩
          rw [List.modify_zero_cons, List.filter_cons_of_neg (by simp [hf]), hnil]
      | false =>
          rw [List.filter_cons_of_neg (by simp [ha])] at h
          obtain ⟨i, hidx, hget, hmodify⟩ := ih h
          refine ⟨i + 1, ?_, hget, fun f hf => ?_⟩
          · rw [List.findIdx?_cons, if_neg (by simp [ha]), hidx]
            rfl
          · rw [List.modify_succ_cons, List.filter_cons_of_neg (by simp [ha]), hmodify f hf]

end CiroFuel
