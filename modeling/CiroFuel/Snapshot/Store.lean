import Mathlib.Data.List.AList

/-!
# Versioned documents under unique indexes

A store keeps at most one document under each key and counts the commits that
wrote it. The type of a document depends on its key, so that one store holds
every collection of a database and one transaction may write several of them.

A document contributes finitely many entries to the unique indexes. The store
carries the proof that no entry is contributed twice; a commit that would break
it, or that overwrites a version it has not seen, does not exist.
-/
namespace CiroFuel.Snapshot

/-- The unique-index entries contributed by the document under a key. -/
class Indexed {K : Type} (D : K → Type) (X : outParam Type) where
  entries : (k : K) → D k → List X

/-- The committed or provisional contents of a store. -/
abbrev Docs {K : Type} (D : K → Type) := AList D

section
variable {K X : Type} [DecidableEq K] [DecidableEq X] {D : K → Type} [Indexed D X]

/-- No document under another key already contributes one of the entries of `x`. -/
def Docs.fits (d : Docs D) (k : K) (x : D k) : Bool :=
  (Indexed.entries k x).all fun i =>
    d.entries.all fun e => decide (e.1 = k) || !(Indexed.entries e.1 e.2).contains i

/-- Every index entry belongs to one key. -/
def Docs.Unique (d : Docs D) : Prop :=
  ∀ (k k' : K) (x : D k) (x' : D k') (i : X), d.lookup k = some x → d.lookup k' = some x' →
    i ∈ Indexed.entries k x → i ∈ Indexed.entries k' x' → k = k'

theorem Docs.fits_sound {d : Docs D} {k k' : K} {x : D k} {x' : D k'} {i : X}
    (hfit : d.fits k x = true) (hk' : d.lookup k' = some x')
    (hi : i ∈ Indexed.entries k x) (hi' : i ∈ Indexed.entries k' x') : k = k' := by
  have hmem : (⟨k', x'⟩ : Sigma D) ∈ d.entries := AList.mem_lookup_iff.mp hk'
  have hentry := List.all_eq_true.mp (List.all_eq_true.mp hfit i hi) _ hmem
  by_contra hne
  have hkk : ¬ k' = k := fun h => hne h.symm
  simp [hkk, hi'] at hentry

theorem Docs.fits_complete {d : Docs D} {k : K} {x : D k}
    (h : ∀ (k' : K) (x' : D k') (i : X), d.lookup k' = some x' → i ∈ Indexed.entries k x →
      i ∈ Indexed.entries k' x' → k' = k) : d.fits k x = true := by
  refine List.all_eq_true.mpr fun i hi => List.all_eq_true.mpr fun e he => ?_
  by_cases hek : e.1 = k
  · simp [hek]
  · have hnot : i ∉ Indexed.entries e.1 e.2 := fun hi' =>
      hek (h e.1 e.2 i (AList.mem_lookup_iff.mpr he) hi hi')
    simp [hnot]

/-- Writing back what is stored breaks no index. -/
theorem Docs.fits_stored {d : Docs D} (hd : d.Unique) {k : K} {x : D k}
    (hx : d.lookup k = some x) : d.fits k x = true :=
  Docs.fits_complete fun k' x' i hx' hi hi' => hd k' k x' x i hx' hx hi' hi

omit [DecidableEq X] in
@[simp] theorem Docs.unique_empty : Docs.Unique (∅ : Docs D) := by
  intro k k' x x' i hk
  simp at hk

/-- The stored documents with the written ones in their places, or before them if new. -/
def Docs.overwrite (w d : Docs D) : Docs D where
  entries := (w.entries.filter fun e => !decide (e.1 ∈ d.keys)) ++
    d.entries.map fun e => ⟨e.1, (w.lookup e.1).getD e.2⟩
  nodupKeys := by
    rw [List.NodupKeys, List.keys, List.map_append, List.map_map]
    refine List.Nodup.append ?_ d.nodupKeys fun k hnew hold => ?_
    · exact List.Nodup.sublist (List.filter_sublist.map _) w.nodupKeys
    · obtain ⟨e, he, rfl⟩ := List.mem_map.mp hnew
      have hnot : e.1 ∉ d.keys := by
        simpa only [Bool.not_eq_true', decide_eq_false_iff_not] using (List.mem_filter.mp he).2
      exact hnot hold

section overwrite
omit [DecidableEq X] [Indexed D X]
variable {w d : Docs D} {k : K}

/-- What is stored keeps its order; what is new comes before it. -/
theorem Docs.keys_overwrite (w d : Docs D) : d.keys <:+ (w.overwrite d).keys := by
  refine ⟨(w.entries.filter fun e => !decide (e.1 ∈ d.keys)).map Sigma.fst, ?_⟩
  change _ = ((w.overwrite d).entries.map Sigma.fst)
  rw [Docs.overwrite, List.map_append, List.map_map]
  rfl

theorem Docs.mem_overwrite {x : D k} : (⟨k, x⟩ : Sigma D) ∈ (w.overwrite d).entries ↔
    w.lookup k = some x ∨ w.lookup k = none ∧ d.lookup k = some x := by
  rw [Docs.overwrite, List.mem_append, List.mem_filter, List.mem_map]
  constructor
  · rintro (⟨hw, -⟩ | ⟨⟨k', y⟩, hd, heq⟩)
    · exact Or.inl (AList.mem_lookup_iff.mpr hw)
    · obtain ⟨rfl, hx⟩ := Sigma.mk.inj_iff.mp heq
      cases eq_of_heq hx
      dsimp only
      cases hw : w.lookup k' with
      | none => exact Or.inr ⟨rfl, AList.mem_lookup_iff.mpr hd⟩
      | some x => exact Or.inl rfl
  · rintro (hw | ⟨hw, hd⟩)
    · by_cases hk : k ∈ d.keys
      · obtain ⟨y, hy⟩ := Option.isSome_iff_exists.mp (AList.lookup_isSome.mpr (AList.mem_keys.mpr hk))
        refine Or.inr ⟨⟨k, y⟩, AList.mem_lookup_iff.mp hy, ?_⟩
        rw [hw, Option.getD_some]
      · exact Or.inl ⟨AList.mem_lookup_iff.mp hw, by simpa only [Bool.not_eq_true',
          decide_eq_false_iff_not] using hk⟩
    · refine Or.inr ⟨⟨k, x⟩, AList.mem_lookup_iff.mp hd, ?_⟩
      rw [hw, Option.getD_none]

theorem Docs.lookup_overwrite_left (hk : k ∈ w) : (w.overwrite d).lookup k = w.lookup k := by
  obtain ⟨x, hx⟩ := Option.isSome_iff_exists.mp (AList.lookup_isSome.mpr hk)
  rw [hx]
  exact AList.mem_lookup_iff.mpr (Docs.mem_overwrite.mpr (Or.inl hx))

theorem Docs.lookup_overwrite_right (hk : k ∉ w) : (w.overwrite d).lookup k = d.lookup k := by
  have hw : w.lookup k = none := AList.lookup_eq_none.mpr hk
  apply Option.ext
  intro x
  constructor
  · intro hx
    rcases Docs.mem_overwrite.mp (AList.mem_lookup_iff.mp hx) with hsome | ⟨-, hd⟩
    · exact absurd (hw.symm.trans hsome) (by simp)
    · exact hd
  · intro hd
    exact AList.mem_lookup_iff.mpr (Docs.mem_overwrite.mpr (Or.inr ⟨hw, hd⟩))

end overwrite

/-- One document is stored, in its place if there was one under its key. -/
def Docs.put (d : Docs D) (k : K) (x : D k) : Docs D := Docs.overwrite (AList.singleton k x) d

section put
omit [DecidableEq X] [Indexed D X]
variable {d : Docs D} {k k' : K} {x : D k}

@[simp] theorem Docs.lookup_put : (d.put k x).lookup k = some x := by
  have hmem : k ∈ (AList.singleton k x : Docs D) := (AList.mem_insert ∅).mpr (Or.inl rfl)
  exact (Docs.lookup_overwrite_left hmem).trans (AList.lookup_insert ∅)

theorem Docs.lookup_put_ne (h : k' ≠ k) : (d.put k x).lookup k' = d.lookup k' := by
  apply Docs.lookup_overwrite_right
  exact fun hk' => ((AList.mem_insert ∅).mp hk').elim h (AList.notMem_empty k')

/-- What stands in the place of a stored document. -/
theorem Docs.lookup_singleton (h : k' ≠ k) :
    (AList.singleton k x : Docs D).lookup k' = none :=
  (AList.lookup_insert_ne h).trans (AList.lookup_empty k')

/-- The stored documents but the one under the key stay as they are. -/
theorem Docs.filter_put {p : Sigma D → Bool} (hp : ∀ y : D k, p ⟨k, y⟩ = false) :
    (d.put k x).entries.filter p = d.entries.filter p := by
  have hnew : (List.filter (fun e : Sigma D => !decide (e.1 ∈ d.keys)) [⟨k, x⟩]).filter p = [] := by
    refine List.filter_eq_nil_iff.mpr fun e he => ?_
    cases List.mem_singleton.mp (List.mem_of_mem_filter he)
    simp [hp]
  change (_ ++ List.map _ d.entries).filter p = _
  rw [List.filter_append, AList.singleton_entries, hnew, List.nil_append]
  induction d.entries with
  | nil => rfl
  | cons e l ih =>
      obtain ⟨k', y⟩ := e
      rw [List.map_cons, List.filter_cons, List.filter_cons, ih]
      by_cases he : k' = k
      · subst he
        simp only [hp, Bool.false_eq_true, if_false]
      · simp only [Docs.lookup_singleton he, Option.getD_none]

/-- Storing what is stored changes nothing. -/
theorem Docs.entries_put_stored (hx : d.lookup k = some x) : (d.put k x).entries = d.entries := by
  have hold : k ∈ d.keys := AList.mem_keys.mp (AList.lookup_isSome.mp (by rw [hx]; rfl))
  change List.filter _ (AList.singleton k x : Docs D).entries ++ List.map _ d.entries = _
  rw [AList.singleton_entries, List.filter_cons_of_neg (by simpa using hold), List.filter_nil,
    List.nil_append]
  refine (List.map_congr_left fun e he => ?_).trans (List.map_id _)
  obtain ⟨k', y⟩ := e
  by_cases hk : k' = k
  · subst hk
    cases hx.symm.trans (AList.mem_lookup_iff.mpr he)
    rw [show (AList.singleton k' y : Docs D).lookup k' = some y from AList.lookup_insert ∅]
    rfl
  · simp only [Docs.lookup_singleton hk, Option.getD_none]
    rfl

end put

theorem Docs.Unique.put {d : Docs D} (hd : d.Unique) {k : K} {x : D k}
    (hfit : d.fits k x = true) : Docs.Unique (d.put k x) := by
  have other : ∀ {k' : K} {x' : D k'} {i : X}, k' ≠ k → (d.put k x).lookup k' = some x' →
      i ∈ Indexed.entries k x → i ∈ Indexed.entries k' x' → k = k' := by
    intro k' x' i hne hx' hi hi'
    rw [Docs.lookup_put_ne hne] at hx'
    exact Docs.fits_sound hfit hx' hi hi'
  intro k₁ k₂ x₁ x₂ i hx₁ hx₂ hi₁ hi₂
  by_cases h₁ : k₁ = k <;> by_cases h₂ : k₂ = k
  · rw [h₁, h₂]
  · subst h₁
    rw [Docs.lookup_put] at hx₁
    cases hx₁
    exact other h₂ hx₂ hi₁ hi₂
  · subst h₂
    rw [Docs.lookup_put] at hx₂
    cases hx₂
    exact (other h₁ hx₁ hi₂ hi₁).symm
  · rw [Docs.lookup_put_ne h₁] at hx₁
    rw [Docs.lookup_put_ne h₂] at hx₂
    exact hd k₁ k₂ x₁ x₂ i hx₁ hx₂ hi₁ hi₂

theorem Docs.Unique.overwrite {w d : Docs D} (hd : d.Unique)
    (hw : ∀ e ∈ w.entries, Docs.fits (w.overwrite d) e.1 e.2 = true) :
    Docs.Unique (w.overwrite d) := by
  have written : ∀ {k : K} {x : D k}, k ∈ w → (w.overwrite d).lookup k = some x →
      Docs.fits (w.overwrite d) k x = true := by
    intro k x hk hx
    rw [Docs.lookup_overwrite_left hk] at hx
    exact hw ⟨k, x⟩ (AList.mem_lookup_iff.mp hx)
  intro k k' x x' i hx hx' hi hi'
  by_cases hk : k ∈ w
  · exact Docs.fits_sound (written hk hx) hx' hi hi'
  by_cases hk' : k' ∈ w
  · exact (Docs.fits_sound (written hk' hx') hx hi' hi).symm
  · rw [Docs.lookup_overwrite_right hk] at hx
    rw [Docs.lookup_overwrite_right hk'] at hx'
    exact hd k k' x x' i hx hx' hi hi'

end

/-- Committed documents, the number of commits that wrote each key, and the
proof that the unique indexes hold. -/
structure Store {K X : Type} [DecidableEq K] [DecidableEq X] (D : K → Type) [Indexed D X] where
  docs : Docs D
  version : K → ℕ
  unique : docs.Unique

namespace Store
variable {K X : Type} [DecidableEq K] [DecidableEq X] {D : K → Type} [Indexed D X]

def empty : Store D := ⟨∅, fun _ => 0, Docs.unique_empty⟩

instance : Inhabited (Store D) := ⟨empty⟩

/-- The store holding `d`, each document committed once. -/
def load (d : Docs D) (h : ∀ e ∈ d.entries, d.fits e.1 e.2 = true) : Store D where
  docs := d
  version := fun k => if k ∈ d.keys then 1 else 0
  unique := by
    intro k k' x x' i hx hx' hi hi'
    exact Docs.fits_sound (h ⟨k, x⟩ (AList.mem_lookup_iff.mp hx)) hx' hi hi'

/-- The committed document under a key. -/
def find (s : Store D) (k : K) : Option (D k) := s.docs.lookup k

@[simp] theorem find_empty (k : K) : (empty : Store D).find k = none := rfl

/-- Commits `writes`, prepared on `base`, on top of `now`. There is no result
when a written key has been committed since `base`, or when an index entry is
already taken. -/
def commit (base now : Store D) (writes : Docs D) : Option (Store D) :=
  if h : (∀ k ∈ writes.keys, base.version k = now.version k) ∧
      ∀ e ∈ writes.entries, Docs.fits (writes.overwrite now.docs) e.1 e.2 = true then
    some ⟨writes.overwrite now.docs,
      fun k => if k ∈ writes.keys then now.version k + 1 else now.version k,
      now.unique.overwrite h.2⟩
  else none

section commit
variable {base now after : Store D} {writes : Docs D}

theorem commit_seen (h : commit base now writes = some after) {k : K} (hk : k ∈ writes) :
    base.version k = now.version k := by
  unfold commit at h
  split_ifs at h with hok
  exact hok.1 k hk

theorem commit_find_of_mem (h : commit base now writes = some after) {k : K}
    (hk : k ∈ writes) : after.find k = writes.lookup k := by
  unfold commit at h
  split_ifs at h with hok
  cases h
  exact Docs.lookup_overwrite_left hk

theorem commit_find_of_notMem (h : commit base now writes = some after) {k : K}
    (hk : k ∉ writes) : after.find k = now.find k := by
  unfold commit at h
  split_ifs at h with hok
  cases h
  exact Docs.lookup_overwrite_right hk

theorem commit_version (h : commit base now writes = some after) (k : K) :
    after.version k = if k ∈ writes then now.version k + 1 else now.version k := by
  unfold commit at h
  split_ifs at h with hok
  cases h
  simp only [AList.mem_keys]

theorem commit_keys (h : commit base now writes = some after) :
    now.docs.keys <:+ after.docs.keys := by
  unfold commit at h
  split_ifs at h with hok
  cases h
  exact Docs.keys_overwrite _ _

end commit

/-- `a` is an earlier state of `b`: versions only grow, and a key with an
unchanged version still holds the same document. -/
def Older (a b : Store D) : Prop :=
  ∀ k, a.version k ≤ b.version k ∧ (a.version k = b.version k → a.find k = b.find k)

theorem Older.refl (a : Store D) : Older a a := fun _ => ⟨le_rfl, fun _ => rfl⟩

theorem Older.trans {a b c : Store D} (hab : Older a b) (hbc : Older b c) : Older a c := by
  intro k
  obtain ⟨hab₁, hab₂⟩ := hab k
  obtain ⟨hbc₁, hbc₂⟩ := hbc k
  refine ⟨le_trans hab₁ hbc₁, fun h => ?_⟩
  rw [hab₂ (by omega), hbc₂ (by omega)]

theorem commit_older {base now after : Store D} {writes : Docs D}
    (h : commit base now writes = some after) : Older now after := by
  intro k
  rw [commit_version h k]
  split_ifs with hk
  · exact ⟨Nat.le_succ _, fun heq => by omega⟩
  · exact ⟨le_rfl, fun _ => (commit_find_of_notMem h hk).symm⟩

end Store
end CiroFuel.Snapshot
