import CiroFuel.Query.Conditions
import CiroFuel.Query.Keyset

/-!
# Lists of sort keys

A list of sort keys becomes the order of a query and, with a boundary, the filter for what
comes after the boundary. Nothing keeps the list from naming a field twice. A field that comes
again is not compared again: the sort keeps its first place, and a clause of the filter that
compares it leaves out that it is equal. Only the direction must be the same, as the sort takes
the last one and the filter takes both.
-/
namespace CiroFuel
open Query

section keys
variable {F δ : Type} {V : F → Type} [∀ f, LinearOrder (V f)]

/-- No field has two directions. -/
def OneDirection (keys : List (SortField F)) : Prop :=
  ∀ k ∈ keys, ∀ k' ∈ keys, k.field = k'.field → k.direction = k'.direction

theorem OneDirection.eq {keys : List (SortField F)} (h : OneDirection keys) {k k' : SortField F}
    (hk : k ∈ keys) (hk' : k' ∈ keys) (hfield : k.field = k'.field) : k = k' := by
  have hdirection := h k hk k' hk' hfield
  cases k
  cases k'
  cases hfield
  cases hdirection
  rfl

theorem OneDirection.sublist {keys keys' : List (SortField F)} (h : OneDirection keys)
    (hsub : keys' ⊆ keys) : OneDirection keys' :=
  fun k hk k' hk' => h k (hsub hk) k' (hsub hk')

variable [DecidableEq F]

instance (keys : List (SortField F)) : Decidable (OneDirection keys) :=
  inferInstanceAs (Decidable (∀ k ∈ keys, ∀ k' ∈ keys, k.field = k'.field →
    k.direction = k'.direction))

/-- A repeated name keeps its first place and takes its last value. -/
def assignEntry {α : Type} (entries : List (F × α)) (e : F × α) : List (F × α) :=
  if entries.any fun e' => decide (e'.1 = e.1) then
    entries.map fun e' => if e'.1 = e.1 then e else e'
  else entries ++ [e]

def fromEntries {α : Type} (entries : List (F × α)) : List (F × α) := entries.foldl assignEntry []

def buildSortSpec (keys : List (SortField F)) : List (SortField F) :=
  (fromEntries (keys.map fun k => (k.field, k.direction))).map fun e => ⟨e.1, e.2⟩

/-- The comparison with the boundary value: `$lt` for a descending field, `$gt` otherwise. -/
def keysetOp (pos : δ → Position V) (boundary : Position V) (k : SortField F) (d : δ) : Bool :=
  match k.direction with
  | .desc => decide (pos d k.field < boundary k.field)
  | .asc => decide (boundary k.field < pos d k.field)

/-- Assigns the boundary's value to every one of the fields. -/
def boundaryEqualities (pos : δ → Position V) (boundary : Position V)
    (earlier : List (SortField F)) : List (Name F × (δ → Bool)) :=
  earlier.map fun j => (.field j.field, fun d => decide (pos d j.field = boundary j.field))

/-- Equality on the earlier fields, then the comparison on this one. -/
def keysetClause (pos : δ → Position V) (boundary : Position V) (earlier : List (SortField F))
    (k : SortField F) : Conditions F δ :=
  (Conditions.object (boundaryEqualities pos boundary earlier)).set (.field k.field)
    (keysetOp pos boundary k)

def keysetClauses (pos : δ → Position V) (boundary : Position V) :
    List (SortField F) → List (SortField F) → List (Conditions F δ)
  | _, [] => []
  | earlier, k :: ks =>
      keysetClause pos boundary earlier k :: keysetClauses pos boundary (earlier ++ [k]) ks

def buildKeysetFilter (pos : δ → Position V) (keys : List (SortField F))
    (boundary : Position V) : Conditions F δ :=
  .disj (keysetClauses pos boundary [] keys)

variable {pos : δ → Position V} {boundary : Position V}
variable {earlier keys : List (SortField F)} {k : SortField F} {d : δ}

/-! ### The filter -/

omit [DecidableEq F] in
theorem keysetOp_iff {k : SortField F} {d : δ} :
    keysetOp pos boundary k d = true ↔ k.direction.before (boundary k.field) (pos d k.field) := by
  cases hk : k.direction <;> simp [keysetOp, hk, Direction.before]

theorem get_boundaryEqualities {j : SortField F} (hj : j ∈ earlier) :
    (Conditions.object (boundaryEqualities pos boundary earlier)).get (.field j.field) =
      some fun d => decide (pos d j.field = boundary j.field) := by
  refine Conditions.get_assign_mem (fun e he e' he' hname => ?_) (List.mem_map.mpr ⟨j, hj, rfl⟩)
  obtain ⟨j₁, -, rfl⟩ := List.mem_map.mp he
  obtain ⟨j₂, -, rfl⟩ := List.mem_map.mp he'
  rw [Name.field.inj hname]

/-- A clause compares its key, and asks for equality on the earlier ones of other fields. -/
theorem keysetClause_holds : (keysetClause pos boundary earlier k).holds d = true ↔
    k.direction.before (boundary k.field) (pos d k.field) ∧
      ∀ j ∈ earlier, j.field ≠ k.field → pos d j.field = boundary j.field := by
  rw [keysetClause, Conditions.holds_iff]
  constructor
  · intro h
    refine ⟨keysetOp_iff.mp (h _ _ (Conditions.get_set_self _ _ _)), fun j hj hne => ?_⟩
    have hname : Name.field j.field ≠ Name.field k.field := fun hname => hne (Name.field.inj hname)
    have hold : (Conditions.object (boundaryEqualities pos boundary earlier)).get
      (.field j.field) = _ := get_boundaryEqualities hj
    exact of_decide_eq_true (h _ _ ((Conditions.get_set_ne _ _ hname).trans hold))
  · rintro ⟨hbefore, hequal⟩ n c hget
    by_cases hn : n = .field k.field
    · subst hn
      rw [Conditions.get_set_self] at hget
      obtain rfl := Option.some.inj hget
      exact keysetOp_iff.mpr hbefore
    · rw [Conditions.get_set_ne _ _ hn] at hget
      by_cases hname : n ∈ (boundaryEqualities pos boundary earlier).map Prod.fst
      · obtain ⟨e, he, rfl⟩ := List.mem_map.mp hname
        obtain ⟨j, hj, rfl⟩ := List.mem_map.mp he
        obtain rfl := Option.some.inj ((get_boundaryEqualities hj).symm.trans hget)
        exact decide_eq_true (hequal j hj fun hfield => hn (congrArg _ hfield))
      · rw [Conditions.get_object hname] at hget
        cases hget

omit [DecidableEq F] in
/-- What a clause admits comes after the boundary: an earlier key agrees, or is the same. -/
theorem precedes_of_clause (h : OneDirection (earlier ++ k :: keys)) {a b : Position V}
    (hbefore : k.direction.before (a k.field) (b k.field))
    (hequal : ∀ j ∈ earlier, j.field ≠ k.field → b j.field = a j.field) :
    Precedes (earlier ++ k :: keys) a b := by
  induction earlier with
  | nil => exact Or.inl hbefore
  | cons j earlier ih =>
      rw [List.cons_append, Precedes]
      by_cases hfield : j.field = k.field
      · have hmem : k ∈ j :: earlier ++ k :: keys :=
          List.mem_append_right _ List.mem_cons_self
        obtain rfl := h.eq List.mem_cons_self hmem hfield
        exact Or.inl hbefore
      · refine Or.inr ⟨(hequal j List.mem_cons_self hfield).symm, ih ?_ fun j' hj' => ?_⟩
        · exact h.sublist (List.subset_cons_self _ _)
        · exact hequal j' (List.mem_cons_of_mem _ hj')

/-- The disjunction of the clauses is the order of the keys. -/
theorem keysetClauses_precedes (h : OneDirection (earlier ++ keys))
    (hclauses : ((keysetClauses pos boundary earlier keys).any fun p => p.holds d) = true) :
    Precedes (earlier ++ keys) boundary (pos d) := by
  induction keys generalizing earlier with
  | nil => cases hclauses
  | cons k keys ih =>
      rw [keysetClauses, List.any_cons, Bool.or_eq_true] at hclauses
      rcases hclauses with hclause | hlater
      · obtain ⟨hbefore, hequal⟩ := keysetClause_holds.mp hclause
        exact precedes_of_clause h hbefore hequal
      · rw [List.append_cons] at h ⊢
        exact ih h hlater

theorem keysetClauses_of_precedes (hearlier : ∀ j ∈ earlier, pos d j.field = boundary j.field)
    (h : Precedes keys boundary (pos d)) :
    ((keysetClauses pos boundary earlier keys).any fun p => p.holds d) = true := by
  induction keys generalizing earlier with
  | nil => exact h.elim
  | cons k keys ih =>
      rw [keysetClauses, List.any_cons, Bool.or_eq_true]
      rcases h with hbefore | ⟨heq, hrest⟩
      · exact Or.inl (keysetClause_holds.mpr ⟨hbefore, fun j hj _ => hearlier j hj⟩)
      · refine Or.inr (ih (fun j hj => ?_) hrest)
        rcases List.mem_append.mp hj with hold | hnew
        · exact hearlier j hold
        · obtain rfl := List.mem_singleton.mp hnew
          exact heq.symm

theorem buildKeysetFilter_holds (h : OneDirection keys) (d : δ) :
    (buildKeysetFilter pos keys boundary).holds d = true ↔ Precedes keys boundary (pos d) := by
  have hall : OneDirection ([] ++ keys) := h
  rw [buildKeysetFilter, Conditions.holds_disj]
  constructor
  · exact keysetClauses_precedes hall
  · exact keysetClauses_of_precedes fun _ hmem => absurd hmem List.not_mem_nil

/-! ### The sort -/

omit [∀ f, LinearOrder (V f)] in
theorem assignEntry_new {α : Type} {entries : List (F × α)} {e : F × α}
    (h : e.1 ∉ entries.map Prod.fst) : assignEntry entries e = entries ++ [e] := by
  have hnone : (entries.any fun e' => decide (e'.1 = e.1)) = false := by
    rw [List.any_eq_false]
    intro e' he'
    have hne : e'.1 ≠ e.1 := fun heq => h (List.mem_map.mpr ⟨e', he', heq⟩)
    simpa using hne
  simp [assignEntry, hnone]

theorem foldl_assignEntry {α : Type} {done todo : List (F × α)}
    (h : ((done ++ todo).map Prod.fst).Nodup) :
    todo.foldl assignEntry done = done ++ todo := by
  induction todo generalizing done with
  | nil => simp
  | cons e todo ih =>
      have hnew : e.1 ∉ done.map Prod.fst := by
        rw [List.map_append, List.nodup_append] at h
        exact fun hmem => h.2.2 _ hmem _ (by simp) rfl
      rw [List.foldl_cons, assignEntry_new hnew, ih (by simpa using h)]
      simp

omit [∀ f, LinearOrder (V f)] in
/-- A field that comes again in its direction changes nothing. -/
theorem assignEntry_mem {entries : List (F × Direction)} {e : F × Direction} (hmem : e ∈ entries)
    (hsame : ∀ e' ∈ entries, e'.1 = e.1 → e' = e) : assignEntry entries e = entries := by
  have hany : (entries.any fun e' => decide (e'.1 = e.1)) = true :=
    List.any_eq_true.mpr ⟨e, hmem, decide_eq_true rfl⟩
  rw [assignEntry, if_pos hany]
  refine (List.map_congr_left fun e' he' => ?_).trans (List.map_id _)
  split_ifs with hname
  · exact (hsame e' he' hname).symm
  · rfl

/-- The keys of the sort order documents as the list does. -/
theorem precedes_foldl {done todo : List (SortField F)} (h : OneDirection (done ++ todo))
    (a b : Position V) :
    Precedes (((todo.map fun k => (k.field, k.direction)).foldl assignEntry
      (done.map fun k => (k.field, k.direction))).map fun e => ⟨e.1, e.2⟩) a b ↔
        Precedes (done ++ todo) a b := by
  induction todo generalizing done with
  | nil => simp [Function.comp_def]
  | cons k todo ih =>
      have hk : k ∈ done ++ k :: todo := List.mem_append_right _ List.mem_cons_self
      have hdone : ∀ j ∈ done, j.field = k.field → j = k := fun j hj =>
        h.eq (List.mem_append_left _ hj) hk
      rw [List.map_cons, List.foldl_cons]
      by_cases hmem : k ∈ done
      · have hsame : assignEntry (done.map fun k => (k.field, k.direction))
            (k.field, k.direction) = done.map fun k => (k.field, k.direction) := by
          refine assignEntry_mem (List.mem_map.mpr ⟨k, hmem, rfl⟩) fun e he hname => ?_
          obtain ⟨j, hj, rfl⟩ := List.mem_map.mp he
          rw [hdone j hj hname]
        rw [hsame, ih (h.sublist fun j hj => ?_), precedes_repeated hmem]
        rcases List.mem_append.mp hj with hold | hnew
        · exact List.mem_append_left _ hold
        · exact List.mem_append_right _ (List.mem_cons_of_mem _ hnew)
      · have hnew : assignEntry (done.map fun k => (k.field, k.direction)) (k.field, k.direction) =
            (done ++ [k]).map fun k => (k.field, k.direction) := by
          rw [List.map_append]
          refine assignEntry_new fun hname => hmem ?_
          obtain ⟨e, he, hfield⟩ := List.mem_map.mp hname
          obtain ⟨j, hj, rfl⟩ := List.mem_map.mp he
          exact hdone j hj hfield ▸ hj
        rw [List.append_cons] at h ⊢
        rw [hnew]
        exact ih h

theorem buildSortSpec_precedes (h : OneDirection keys) (a b : Position V) :
    Precedes (buildSortSpec keys) a b ↔ Precedes keys a b := by
  have hall : OneDirection ([] ++ keys) := h
  exact precedes_foldl hall a b

/-- The filter admits what comes strictly after the boundary in the order of the sort, if no field
has two directions. -/
theorem keyset_filter_order (keys : List (SortField F)) (h : OneDirection keys)
    (pos : δ → Position V) (boundary : Position V) (d : δ) :
    (buildKeysetFilter pos keys boundary).holds d = true ↔
      Precedes (buildSortSpec keys) boundary (pos d) := by
  rw [buildSortSpec_precedes h]
  exact buildKeysetFilter_holds h d

end keys

namespace SortKeysSample

/-- One field in both directions. -/
def keys : List (SortField Unit) := [⟨(), .asc⟩, ⟨(), .desc⟩]

def stations : List (SortField Bool) := [⟨true, .desc⟩, ⟨false, .asc⟩, ⟨true, .desc⟩]

end SortKeysSample

theorem keyset_filter_order_repeated : OneDirection SortKeysSample.stations ∧
    ((buildKeysetFilter (fun d : Bool → ℕ => d) SortKeysSample.stations fun _ => 5).holds
      (fun f => if f then 5 else 6) = true ↔
        Precedes (V := fun _ => ℕ) (buildSortSpec SortKeysSample.stations) (fun _ => 5)
          fun f => if f then 5 else 6) := by
  have h : OneDirection SortKeysSample.stations := by
    simp [OneDirection, SortKeysSample.stations]
  exact ⟨h, keyset_filter_order SortKeysSample.stations h _ _ _⟩

/-- The filter admits what comes after the boundary in either direction. -/
theorem two_directions : ¬ ∀ (F δ : Type) (_ : DecidableEq F) (V : F → Type)
    (_ : ∀ f, LinearOrder (V f)) (keys : List (SortField F)) (pos : δ → Position V)
    (boundary : Position V) (d : δ), keys ≠ [] →
      ((buildKeysetFilter pos keys boundary).holds d = true ↔
        Precedes (buildSortSpec keys) boundary (pos d)) := by
  intro hall
  have h := hall Unit ℕ inferInstance (fun _ => ℕ) inferInstance SortKeysSample.keys
    (fun d _ => d) (fun _ => 5) 6 nofun
  revert h
  decide

end CiroFuel
