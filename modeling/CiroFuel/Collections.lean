import Mathlib.Data.List.Nodup
import Mathlib.Data.Fintype.EquivFin

/-!
# Collections of documents

Documents in the order in which they were inserted, no two under one key. An
insert adds one at the end; an update may change every document and no key.
-/
namespace CiroFuel

structure Collection (κ α : Type) where
  docs : List (κ × α) := []
  nodup : (docs.map Prod.fst).Nodup := by decide

namespace Collection
variable {κ α : Type} {c : Collection κ α} {k k' : κ} {a : α} {p : κ → α → Bool}

def keys (c : Collection κ α) : List κ := c.docs.map Prod.fst

/-- `find` -/
def find (c : Collection κ α) (p : κ → α → Bool) : List (κ × α) :=
  c.docs.filter fun d => p d.1 d.2

/-- `findOne` -/
def findOne (c : Collection κ α) (p : κ → α → Bool) : Option (κ × α) :=
  c.docs.find? fun d => p d.1 d.2

/-- `updateMany`; a document that is not to be updated keeps its value. -/
def update (c : Collection κ α) (f : κ → α → α) : Collection κ α where
  docs := c.docs.map fun d => (d.1, f d.1 d.2)
  nodup := by
    rw [List.map_map]
    exact c.nodup

variable [DecidableEq κ]

/-- `insertOne`; a key that is taken is not given again. -/
def insert (c : Collection κ α) (k : κ) (a : α) : Collection κ α :=
  if h : k ∈ c.keys then c
  else
    { docs := c.docs ++ [(k, a)]
      nodup := by
        rw [List.map_append]
        exact List.Nodup.append c.nodup (List.nodup_singleton k) (List.disjoint_singleton.2 h) }

/-- `updateOne` by key -/
def updateOne (c : Collection κ α) (k : κ) (f : α → α) : Collection κ α :=
  c.update fun k' a => if k' = k then f a else a

omit [DecidableEq κ] in
theorem mem_keys {d : κ × α} (h : d ∈ c.docs) : d.1 ∈ c.keys := List.mem_map_of_mem h

omit [DecidableEq κ] in
/-- One document a key. -/
theorem eq_of_mem (h : (k, a) ∈ c.docs) {b : α} (h' : (k, b) ∈ c.docs) : a = b :=
  congrArg Prod.snd (List.inj_on_of_nodup_map c.nodup h h' rfl)

theorem docs_insert (h : k ∉ c.keys) : (c.insert k a).docs = c.docs ++ [(k, a)] := by
  rw [insert, dif_neg h]

theorem find_insert (h : k ∉ c.keys) :
    (c.insert k a).find p = c.find p ++ if p k a then [(k, a)] else [] := by
  rw [find, docs_insert h, List.filter_append, List.filter_singleton, Bool.cond_eq_ite]
  rfl

theorem findOne_insert (h : k ∉ c.keys) :
    (c.insert k a).findOne p = (c.findOne p).or (if p k a then some (k, a) else none) := by
  rw [findOne, docs_insert h, List.find?_append, List.find?_singleton]
  rfl

theorem findOne_insert_isSome (h : (c.findOne p).isSome) : ((c.insert k a).findOne p).isSome := by
  by_cases hk : k ∈ c.keys
  · rwa [insert, dif_pos hk]
  · rw [findOne_insert hk, Option.isSome_or, h, Bool.true_or]

theorem mem_keys_insert : k' ∈ (c.insert k a).keys ↔ k' ∈ c.keys ∨ k' = k := by
  by_cases h : k ∈ c.keys
  · rw [insert, dif_pos h]
    constructor
    · exact Or.inl
    · rintro (h' | rfl)
      · exact h'
      · exact h
  · rw [keys, docs_insert h, List.map_append, List.mem_append, List.map_singleton,
      List.mem_singleton]
    rfl

omit [DecidableEq κ] in
@[simp] theorem keys_update (f : κ → α → α) : (c.update f).keys = c.keys := by
  rw [keys, update, List.map_map]
  rfl

omit [DecidableEq κ] in
theorem mem_update {f : κ → α → α} :
    (k, a) ∈ (c.update f).docs ↔ ∃ b, (k, b) ∈ c.docs ∧ a = f k b := by
  constructor
  · intro h
    obtain ⟨⟨k', b⟩, hmem, heq⟩ := List.mem_map.1 h
    cases heq
    exact ⟨b, hmem, rfl⟩
  · rintro ⟨b, hmem, rfl⟩
    exact List.mem_map.2 ⟨(k, b), hmem, rfl⟩

omit [DecidableEq κ] in
theorem ext {c c' : Collection κ α} (h : c.docs = c'.docs) : c = c' := by
  obtain ⟨docs, nodup⟩ := c
  obtain ⟨docs', nodup'⟩ := c'
  cases h
  rfl

omit [DecidableEq κ] in
theorem update_congr {f g : κ → α → α} (h : ∀ d ∈ c.docs, f d.1 d.2 = g d.1 d.2) :
    c.update f = c.update g := by
  refine ext (List.map_congr_left fun d hd => ?_)
  rw [h d hd]

omit [DecidableEq κ] in
/-- An update that changes nothing. -/
theorem update_eq_self {f : κ → α → α} (h : ∀ d ∈ c.docs, f d.1 d.2 = d.2) : c.update f = c := by
  have hsame : c.update f = c.update fun _ a => a := update_congr h
  exact hsame.trans (ext (List.map_id c.docs))

omit [DecidableEq κ] in
/-- An update that leaves the condition as it was leaves nothing to be found where there was
nothing. -/
theorem find_update_eq_nil {f : κ → α → α} (hp : ∀ d ∈ c.docs, p d.1 (f d.1 d.2) = p d.1 d.2) :
    (c.update f).find p = [] ↔ c.find p = [] := by
  simp only [find, update, List.filter_eq_nil_iff, List.forall_mem_map]
  exact forall₂_congr fun d hd => by rw [hp d hd]

/-- The first document found, once it is updated, is found no more. -/
theorem find_updateOne {f : α → α} {b : α} {xs : List (κ × α)} (h : c.find p = (k, b) :: xs)
    (hp : p k (f b) = false) : (c.updateOne k f).find p = xs := by
  obtain ⟨l₁, l₂, hdocs, hl₁, hb, hl₂⟩ := List.filter_eq_cons_iff.1 h
  have hnodup := c.nodup
  rw [hdocs, List.map_append, List.map_cons, List.nodup_append, List.nodup_cons] at hnodup
  have hsame : ∀ d : κ × α, d.1 ≠ k → (d.1, if d.1 = k then f d.2 else d.2) = d := by
    intro d hd
    rw [if_neg hd]
  have hmap₁ : l₁.map (fun d => (d.1, if d.1 = k then f d.2 else d.2)) = l₁ := by
    conv_rhs => rw [← List.map_id l₁]
    refine List.map_congr_left fun d hd => hsame d ?_
    exact hnodup.2.2 d.1 (List.mem_map_of_mem hd) k List.mem_cons_self
  have hmap₂ : l₂.map (fun d => (d.1, if d.1 = k then f d.2 else d.2)) = l₂ := by
    conv_rhs => rw [← List.map_id l₂]
    refine List.map_congr_left fun d hd => hsame d fun heq => ?_
    exact hnodup.2.1.1 (List.mem_map.2 ⟨d, hd, heq⟩)
  have hupdate : (c.updateOne k f).docs = l₁ ++ (k, f b) :: l₂ := by
    change c.docs.map (fun d => (d.1, if d.1 = k then f d.2 else d.2)) = _
    rw [hdocs, List.map_append, List.map_cons, hmap₁, hmap₂, if_pos rfl]
  rw [find, hupdate, List.filter_append, List.filter_cons_of_neg (by simp [hp]), hl₂,
    List.filter_eq_nil_iff.2 hl₁, List.nil_append]

/-! ### Values that are missing -/

section gaps
variable {β : Type} {lacks : α → Bool} {value : α → Option β} {set : β → α → α}

/-- The documents that lack a value, with the value each is to be given. -/
def gaps (c : Collection κ α) (lacks : α → Bool) (value : α → Option β) : List (κ × β) :=
  (c.find fun _ a => lacks a).filterMap fun d => (value d.2).map fun v => (d.1, v)

/-- All of them are given their value. -/
def filled (c : Collection κ α) (lacks : α → Bool) (value : α → Option β) (set : β → α → α) :
    Collection κ α :=
  c.update fun _ a => if lacks a then (value a).elim a fun v => set v a else a

/-- A document that is given its value lacks none, and the others are as before. -/
theorem filter_set (hset : ∀ v a, lacks (set v a) = false) {v : β} (l : List (κ × α)) :
    (l.map fun d => (d.1, if d.1 = k then set v d.2 else d.2)).filter (fun d => lacks d.2) =
      (l.filter fun d => lacks d.2).filter fun d => decide (d.1 ≠ k) := by
  induction l with
  | nil => rfl
  | cons d l ih =>
    by_cases hdk : d.1 = k
    · by_cases hlacks : lacks d.2 = true <;> simp [hdk, hset, hlacks, ih]
    · by_cases hlacks : lacks d.2 = true <;> simp [hdk, hlacks, ih]

theorem gaps_updateOne (hset : ∀ v a, lacks (set v a) = false) {v : β} {rest : List (κ × β)}
    (h : c.gaps lacks value = (k, v) :: rest) :
    (c.updateOne k (set v)).gaps lacks value = rest := by
  obtain ⟨l₁, d, l₂, hfind, hnone, hd, hrest⟩ := List.filterMap_eq_cons_iff.1 h
  obtain ⟨v', hv', heq⟩ := Option.map_eq_some_iff.1 hd
  obtain ⟨hk, rfl⟩ := Prod.mk.inj heq
  obtain ⟨j, b⟩ := d
  obtain rfl : j = k := hk
  have hnodup : ((l₁ ++ (j, b) :: l₂).map Prod.fst).Nodup := by
    rw [← hfind]
    exact c.nodup.sublist (List.filter_sublist.map _)
  rw [List.map_append, List.map_cons, List.nodup_append, List.nodup_cons] at hnodup
  have hkept : ∀ l : List (κ × α), j ∉ l.map Prod.fst →
      l.filter (fun d => decide (d.1 ≠ j)) = l := by
    intro l hl
    refine List.filter_eq_self.2 fun d hd => decide_eq_true fun hdj => hl ?_
    rw [← hdj]
    exact List.mem_map_of_mem hd
  have hleft : (c.updateOne j (set v')).find (fun _ a => lacks a) = l₁ ++ l₂ := by
    refine (filter_set hset c.docs).trans ?_
    have hfound : c.docs.filter (fun d => lacks d.2) = l₁ ++ (j, b) :: l₂ := hfind
    rw [hfound, List.filter_append, List.filter_cons_of_neg (by simp),
      hkept l₁ fun hmem => hnodup.2.2 j hmem j List.mem_cons_self rfl, hkept l₂ hnodup.2.1.1]
  rw [gaps, hleft, List.filterMap_append, List.filterMap_eq_nil_iff.2 hnone, List.nil_append, hrest]

omit [DecidableEq κ] in
theorem filled_of_gaps_nil (h : c.gaps lacks value = []) : c.filled lacks value set = c := by
  refine update_eq_self fun d hd => ?_
  split_ifs with hlacks
  · have hmem : d ∈ c.find fun _ a => lacks a := List.mem_filter.2 ⟨hd, hlacks⟩
    have hnone := List.filterMap_eq_nil_iff.1 h d hmem
    rw [Option.map_eq_none_iff.1 hnone]
    rfl
  · rfl

/-- One after another they come to the same. -/
theorem foldl_gaps (hset : ∀ v a, lacks (set v a) = false) :
    (c.gaps lacks value).foldl (fun c g => c.updateOne g.1 (set g.2)) c =
      c.filled lacks value set := by
  generalize hgaps : c.gaps lacks value = gaps
  induction gaps generalizing c with
  | nil => exact (filled_of_gaps_nil hgaps).symm
  | cons g gaps ih =>
    obtain ⟨k, v⟩ := g
    rw [List.foldl_cons, ih (gaps_updateOne hset hgaps)]
    obtain ⟨d, hd, hval⟩ := List.mem_filterMap.1 (hgaps ▸ List.mem_cons_self)
    obtain ⟨v', hv', heq⟩ := Option.map_eq_some_iff.1 hval
    cases heq
    obtain ⟨hmem, hlacks⟩ := List.mem_filter.1 hd
    refine ext ?_
    simp only [filled, updateOne, update, List.map_map]
    refine List.map_congr_left fun e he => ?_
    by_cases hek : e.1 = d.1
    · obtain rfl := List.inj_on_of_nodup_map c.nodup he hmem hek
      simp [hset, hv', hlacks]
    · simp [hek]

end gaps

end Collection
end CiroFuel
