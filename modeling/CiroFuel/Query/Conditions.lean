import Mathlib.Data.List.AList
import Mathlib.Data.List.Sort

/-!
# Filter objects

A filter is an object: finitely many conditions on a document, at most one under
each name, all of which the document must meet. Assigning to a name that is
taken replaces what was there, and merging two objects keeps the second one's
condition wherever both have one. A name is a field or an operator; the
condition under a logical operator is built from further filters.
-/
namespace CiroFuel.Query

/-- What a condition is filed under. -/
inductive Name (F : Type) where
  | field (f : F)
  | and
  | or
  | operator (name : String)
deriving DecidableEq

/-- Conditions on documents of type `δ` with fields `F`. -/
def Conditions (F δ : Type) : Type := AList fun _ : Name F => δ → Bool

namespace Conditions
variable {F δ : Type}

def empty : Conditions F δ := (∅ : AList _)

/-- The document meets every condition. -/
def holds (p : Conditions F δ) (d : δ) : Bool := p.entries.all fun e => e.2 d

@[simp] theorem holds_empty (d : δ) : (empty : Conditions F δ).holds d = true := rfl

variable [DecidableEq F]

/-- The condition filed under a name. -/
def get (p : Conditions F δ) (n : Name F) : Option (δ → Bool) := AList.lookup n p

def set (p : Conditions F δ) (n : Name F) (c : δ → Bool) : Conditions F δ := AList.insert n c p

/-- The conditions of `q`, and those of `p` under other names. -/
def merge (p q : Conditions F δ) : Conditions F δ := AList.union q p

theorem holds_iff {p : Conditions F δ} {d : δ} :
    p.holds d = true ↔ ∀ n c, p.get n = some c → c d = true := by
  rw [holds, List.all_eq_true]
  constructor
  · intro h n c hn
    exact h ⟨n, c⟩ (AList.mem_lookup_iff.mp hn)
  · intro h e he
    exact h e.1 e.2 (AList.mem_lookup_iff.mpr he)

@[simp] theorem get_empty (n : Name F) : (empty : Conditions F δ).get n = none := rfl

@[simp] theorem get_set_self (p : Conditions F δ) (n : Name F) (c : δ → Bool) :
    (p.set n c).get n = some c := AList.lookup_insert _

theorem get_set_ne (p : Conditions F δ) {n n' : Name F} (c : δ → Bool) (h : n' ≠ n) :
    (p.set n c).get n' = p.get n' := AList.lookup_insert_ne h

theorem get_merge (p q : Conditions F δ) (n : Name F) :
    (p.merge q).get n = (q.get n).or (p.get n) := by
  by_cases hn : n ∈ (show AList _ from q)
  · have hq : (q.get n).isSome := AList.lookup_isSome.mpr hn
    obtain ⟨c, hc⟩ := Option.isSome_iff_exists.mp hq
    rw [hc]
    exact (AList.lookup_union_left hn).trans hc
  · have hq : q.get n = none := AList.lookup_eq_none.mpr hn
    rw [hq]
    exact AList.lookup_union_right hn

theorem merge_empty (p : Conditions F δ) : p.merge .empty = p := by
  apply AList.ext
  exact List.nil_kunion

/-- Merging adds the conditions of `q` and drops those it has replaced. -/
theorem holds_merge {p q : Conditions F δ} {d : δ} :
    (p.merge q).holds d = true ↔
      q.holds d = true ∧ ∀ n c, q.get n = none → p.get n = some c → c d = true := by
  simp only [holds_iff, get_merge]
  constructor
  · intro h
    refine ⟨fun n c hq => h n c (by rw [hq]; rfl), fun n c hq hp => h n c ?_⟩
    rw [hq, hp]
    rfl
  · rintro ⟨hq, hp⟩ n c hn
    cases hqn : q.get n with
    | some c' =>
        rw [hqn] at hn
        cases hn
        exact hq n c hqn
    | none =>
        rw [hqn] at hn
        exact hp n c hqn hn

/-- Merging loses nothing if `q` implies what it replaces. -/
theorem holds_merge_implied {p q : Conditions F δ} {d : δ}
    (h : ∀ n c, p.get n = some c → (q.get n).isSome → q.holds d = true → c d = true) :
    (p.merge q).holds d = (p.holds d && q.holds d) := by
  rw [Bool.eq_iff_iff, Bool.and_eq_true, holds_merge, holds_iff (p := p)]
  constructor
  · rintro ⟨hq, hp⟩
    refine ⟨fun n c hn => ?_, hq⟩
    cases hqn : q.get n with
    | none => exact hp n c hqn hn
    | some c' => exact h n c hn (by rw [hqn]; rfl) hq
  · rintro ⟨hp, hq⟩
    exact ⟨hq, fun n c _ hn => hp n c hn⟩

/-- Merging objects without a common name loses nothing. -/
theorem holds_merge_disjoint {p q : Conditions F δ} (h : ∀ n, (q.get n).isSome → p.get n = none)
    (d : δ) : (p.merge q).holds d = (p.holds d && q.holds d) := by
  refine holds_merge_implied fun n c hp hq _ => ?_
  rw [h n hq] at hp
  cases hp

theorem holds_set {p : Conditions F δ} {n : Name F} {c : δ → Bool} (h : p.get n = none) (d : δ) :
    (p.set n c).holds d = (c d && p.holds d) := by
  rw [Bool.eq_iff_iff, Bool.and_eq_true, holds_iff, holds_iff]
  constructor
  · intro hset
    refine ⟨hset n c (get_set_self _ _ _), fun n' c' hn' => hset n' c' ?_⟩
    have hne : n' ≠ n := by
      rintro rfl
      rw [h] at hn'
      cases hn'
    rw [get_set_ne _ _ hne]
    exact hn'
  · rintro ⟨hc, hp⟩ n' c' hn'
    by_cases hne : n' = n
    · subst hne
      rw [get_set_self] at hn'
      cases hn'
      exact hc
    · rw [get_set_ne _ _ hne] at hn'
      exact hp n' c' hn'

/-- The object with one condition. -/
def only (n : Name F) (c : δ → Bool) : Conditions F δ := empty.set n c

@[simp] theorem holds_only (n : Name F) (c : δ → Bool) (d : δ) :
    (only n c : Conditions F δ).holds d = c d := by
  rw [only, holds_set (get_empty n), holds_empty, Bool.and_true]

theorem get_only (n n' : Name F) (c : δ → Bool) :
    (only n c : Conditions F δ).get n' = if n' = n then some c else none := by
  split_ifs with h
  · subst h
    exact get_set_self _ _ _
  · exact get_set_ne _ _ h

/-! ### Objects written out -/

/-- Assigns one condition after another. -/
def assign (p : Conditions F δ) (l : List (Name F × (δ → Bool))) : Conditions F δ :=
  l.foldl (fun (q : Conditions F δ) e => q.set e.1 e.2) p

/-- The object literal with the given conditions. -/
def object (l : List (Name F × (δ → Bool))) : Conditions F δ := empty.assign l

theorem get_assign {p : Conditions F δ} {l : List (Name F × (δ → Bool))} {n : Name F}
    (h : n ∉ l.map Prod.fst) : (p.assign l).get n = p.get n := by
  induction l generalizing p with
  | nil => rfl
  | cons e l ih =>
      rw [List.map_cons, List.mem_cons, not_or] at h
      exact (ih h.2).trans (get_set_ne _ _ h.1)

theorem holds_assign {p : Conditions F δ} {l : List (Name F × (δ → Bool))}
    (hnodup : (l.map Prod.fst).Nodup) (hp : ∀ e ∈ l, p.get e.1 = none) (d : δ) :
    (p.assign l).holds d = true ↔ p.holds d = true ∧ ∀ e ∈ l, e.2 d = true := by
  induction l generalizing p with
  | nil => simp [assign]
  | cons e l ih =>
      obtain ⟨he, hl⟩ := List.nodup_cons.mp hnodup
      obtain ⟨hpe, hpl⟩ := List.forall_mem_cons.mp hp
      have hfresh : ∀ e' ∈ l, (p.set e.1 e.2).get e'.1 = none := by
        intro e' he'
        have hne : e'.1 ≠ e.1 := fun heq => he (List.mem_map.mpr ⟨e', he', heq⟩)
        rw [get_set_ne _ _ hne, hpl e' he']
      refine (ih hl hfresh).trans ?_
      rw [holds_set hpe, Bool.and_eq_true, List.forall_mem_cons]
      tauto

/-- Where equal names come with equal conditions, an object has all of them. -/
theorem get_assign_mem {p : Conditions F δ} {l : List (Name F × (δ → Bool))} {n : Name F}
    {c : δ → Bool} (hsame : ∀ e ∈ l, ∀ e' ∈ l, e.1 = e'.1 → e.2 = e'.2) (hmem : (n, c) ∈ l) :
    (p.assign l).get n = some c := by
  induction l generalizing p with
  | nil => cases hmem
  | cons e l ih =>
      by_cases hlater : n ∈ l.map Prod.fst
      · obtain ⟨e', he', hn⟩ := List.mem_map.mp hlater
        have hc : e'.2 = c := hsame e' (List.mem_cons_of_mem _ he') (n, c) hmem hn
        refine ih (fun e₁ h₁ e₂ h₂ => hsame e₁ (List.mem_cons_of_mem _ h₁) e₂
          (List.mem_cons_of_mem _ h₂)) ?_
        rw [← hn, ← hc]
        exact he'
      · rcases List.mem_cons.mp hmem with rfl | hin
        · exact (get_assign hlater).trans (get_set_self _ _ _)
        · exact absurd (List.mem_map.mpr ⟨_, hin, rfl⟩) hlater

theorem get_object {l : List (Name F × (δ → Bool))} {n : Name F} (h : n ∉ l.map Prod.fst) :
    (object l : Conditions F δ).get n = none := get_assign h

theorem holds_object {l : List (Name F × (δ → Bool))} (h : (l.map Prod.fst).Nodup) (d : δ) :
    (object l : Conditions F δ).holds d = l.all fun e => e.2 d := by
  rw [Bool.eq_iff_iff, object, holds_assign h fun e _ => get_empty e.1, List.all_eq_true]
  simp

theorem mem_of_get_object {l : List (Name F × (δ → Bool))} {n : Name F} {c : δ → Bool}
    (h : (object l : Conditions F δ).get n = some c) : (n, c) ∈ l := by
  have hassign : ∀ (l : List (Name F × (δ → Bool))) (p : Conditions F δ),
      (p.assign l).get n = some c → p.get n = some c ∨ (n, c) ∈ l := by
    intro l
    induction l with
    | nil => exact fun p hp => Or.inl hp
    | cons e l ih =>
        intro p hp
        rcases ih _ hp with hset | hmem
        · by_cases hn : n = e.1
          · subst hn
            rw [get_set_self] at hset
            cases hset
            exact Or.inr List.mem_cons_self
          · rw [get_set_ne _ _ hn] at hset
            exact Or.inl hset
        · exact Or.inr (List.mem_cons_of_mem _ hmem)
  rcases hassign l _ h with hempty | hmem
  · cases hempty
  · exact hmem

/-- `{ $and: [...] }` -/
def conj (ps : List (Conditions F δ)) : Conditions F δ := only .and fun d => ps.all fun p => p.holds d

/-- `{ $or: [...] }` -/
def disj (ps : List (Conditions F δ)) : Conditions F δ := only .or fun d => ps.any fun p => p.holds d

@[simp] theorem holds_conj (ps : List (Conditions F δ)) (d : δ) :
    (conj ps).holds d = ps.all fun p => p.holds d := holds_only _ _ _

@[simp] theorem holds_disj (ps : List (Conditions F δ)) (d : δ) :
    (disj ps).holds d = ps.any fun p => p.holds d := holds_only _ _ _

theorem get_conj_ne {ps : List (Conditions F δ)} {n : Name F} (h : n ≠ .and) :
    (conj ps).get n = none := by
  rw [conj, get_only, if_neg h]

/-- The conditions on documents seen through `f`. -/
def comap {δ' : Type} (f : δ → δ') (p : Conditions F δ') : Conditions F δ where
  entries := p.entries.map (.map id fun _ c => c ∘ f)
  nodupKeys := List.NodupKeys.map₂ _ _ p.nodupKeys

theorem get_comap {δ' : Type} (f : δ → δ') (p : Conditions F δ') (n : Name F) :
    (p.comap f).get n = (p.get n).map (· ∘ f) := List.dlookup_map₂ n

omit [DecidableEq F] in
@[simp] theorem holds_comap {δ' : Type} (f : δ → δ') (p : Conditions F δ') (d : δ) :
    (p.comap f).holds d = p.holds (f d) := by
  rw [holds, comap, List.all_map]
  rfl

/-! ### Changes that no condition sees -/

/-- No condition tells `f d` from `d`. -/
def Ignores (p : Conditions F δ) (f : δ → δ) : Prop :=
  ∀ n c, p.get n = some c → ∀ d, c (f d) = c d

section ignores
variable {p q : Conditions F δ} {f : δ → δ}

theorem Ignores.holds (h : p.Ignores f) (d : δ) : p.holds (f d) = p.holds d := by
  rw [Bool.eq_iff_iff, holds_iff, holds_iff]
  exact ⟨fun hall n c hn => h n c hn d ▸ hall n c hn, fun hall n c hn => (h n c hn d).trans (hall n c hn)⟩

theorem Ignores.merge (hp : p.Ignores f) (hq : q.Ignores f) : (p.merge q).Ignores f := by
  intro n c hn d
  rw [get_merge, Option.or_eq_some_iff] at hn
  rcases hn with hn | ⟨-, hn⟩
  · exact hq n c hn d
  · exact hp n c hn d

theorem ignores_empty : (empty : Conditions F δ).Ignores f := by
  rintro n c ⟨⟩

theorem ignores_only {n : Name F} {c : δ → Bool} (h : ∀ d, c (f d) = c d) :
    (only n c).Ignores f := by
  intro n' c' hn' d
  rw [get_only] at hn'
  split_ifs at hn'
  cases hn'
  exact h d

theorem ignores_conj {ps : List (Conditions F δ)} (h : ∀ p ∈ ps, p.Ignores f) :
    (conj ps).Ignores f :=
  ignores_only fun d => by
    rw [Bool.eq_iff_iff, List.all_eq_true, List.all_eq_true]
    exact ⟨fun hall p hp => (h p hp).holds d ▸ hall p hp, fun hall p hp => ((h p hp).holds d).trans (hall p hp)⟩

theorem ignores_object {l : List (Name F × (δ → Bool))} (h : ∀ e ∈ l, ∀ d, e.2 (f d) = e.2 d) :
    (object l : Conditions F δ).Ignores f :=
  fun n c hn => h (n, c) (mem_of_get_object hn)

theorem ignores_comap {δ' : Type} {g : δ → δ'} {p : Conditions F δ'} (h : ∀ d, g (f d) = g d) :
    (p.comap g).Ignores f := by
  intro n c hn d
  rw [get_comap] at hn
  obtain ⟨c', -, rfl⟩ := Option.map_eq_some_iff.mp hn
  exact congrArg c' (h d)

end ignores

end Conditions

/-! ### Filtering a sorted list -/

section sorting
variable {α : Type} {r : α → α → Prop} [DecidableRel r]

theorem filter_orderedInsert [IsTrans α r] (p : α → Bool) (a : α) {l : List α}
    (hl : l.Pairwise r) :
    (l.orderedInsert r a).filter p =
      if p a then (l.filter p).orderedInsert r a else l.filter p := by
  induction l with
  | nil => by_cases ha : p a = true <;> simp [ha]
  | cons b l ih =>
      obtain ⟨hb, hl'⟩ := List.pairwise_cons.mp hl
      by_cases hab : r a b
      · have hfront : ∀ c ∈ (b :: l).filter p, r a c := by
          intro c hc
          rcases List.mem_cons.mp (List.mem_filter.mp hc).1 with rfl | hc
          · exact hab
          · exact IsTrans.trans _ _ _ hab (hb c hc)
        have hinsert : ((b :: l).filter p).orderedInsert r a = a :: (b :: l).filter p := by
          cases hf : (b :: l).filter p with
          | nil => rfl
          | cons c t =>
              rw [hf] at hfront
              exact List.orderedInsert_cons_of_le _ _ (hfront c List.mem_cons_self)
        rw [List.orderedInsert_cons_of_le _ _ hab, hinsert, List.filter_cons]
      · rw [List.orderedInsert_cons, if_neg hab, List.filter_cons, ih hl', List.filter_cons]
        by_cases hpa : p a = true <;> by_cases hpb : p b = true <;>
          simp [hpa, hpb, hab, List.orderedInsert_cons]

/-- A stable sort and a filter may be done in either order. -/
theorem filter_insertionSort [Std.Total r] [IsTrans α r] (p : α → Bool) (l : List α) :
    (l.insertionSort r).filter p = (l.filter p).insertionSort r := by
  induction l with
  | nil => rfl
  | cons a l ih =>
      rw [List.insertionSort_cons, filter_orderedInsert p a (List.pairwise_insertionSort r l), ih,
        List.filter_cons]
      split_ifs <;> rfl

end sorting
end CiroFuel.Query
