import Mathlib.Order.Basic
import Mathlib.Order.Defs.LinearOrder
import Mathlib.Data.List.Sort
import Mathlib.Data.List.Chain

/-!
# Walks by position

Documents are listed in the lexicographic order of several fields, each
ascending or descending. A walk fetches one page after another; each page shows
what lies between the position where the last one ended and the position where
it ends itself, in whatever the collection then is. A record that moves while
the walk is under way may be passed over or met again. It is met once for each
time it is found ahead, so the two are counted together.
-/
namespace CiroFuel.Query

inductive Direction where
  | asc | desc
deriving DecidableEq, Repr

/-- Whether `a` comes strictly before `b`. -/
def Direction.before {α : Type} [LinearOrder α] : Direction → α → α → Prop
  | .asc, a, b => a < b
  | .desc, a, b => b < a

instance {α : Type} [LinearOrder α] (dir : Direction) (a b : α) : Decidable (dir.before a b) := by
  cases dir <;> exact inferInstanceAs (Decidable (_ < _))

structure SortField (F : Type) where
  field : F
  direction : Direction

section order
variable {F : Type} {V : F → Type} [∀ f, LinearOrder (V f)]

/-- The values a document is sorted by. -/
abbrev Position (V : F → Type) : Type := (f : F) → V f

/-- `a` comes strictly before `b` in the order of `keys`. -/
def Precedes : List (SortField F) → Position V → Position V → Prop
  | [], _, _ => False
  | k :: ks, a, b =>
      k.direction.before (a k.field) (b k.field) ∨ a k.field = b k.field ∧ Precedes ks a b

instance decidablePrecedes : (keys : List (SortField F)) → (a b : Position V) →
    Decidable (Precedes keys a b)
  | [], _, _ => .isFalse id
  | _ :: ks, a, b =>
      have := decidablePrecedes ks a b
      inferInstanceAs (Decidable (_ ∨ _ ∧ _))

theorem Direction.before_irrefl {α : Type} [LinearOrder α] (dir : Direction) (a : α) :
    ¬ dir.before a a := by
  cases dir <;> exact lt_irrefl a

theorem Direction.before_trans {α : Type} [LinearOrder α] {dir : Direction} {a b c : α}
    (hab : dir.before a b) (hbc : dir.before b c) : dir.before a c := by
  cases dir
  · exact lt_trans hab hbc
  · exact lt_trans hbc hab

theorem Direction.before_total {α : Type} [LinearOrder α] (dir : Direction) (a b : α) :
    dir.before a b ∨ a = b ∨ dir.before b a := by
  cases dir
  · exact lt_trichotomy a b
  · rcases lt_trichotomy a b with h | h | h
    · exact Or.inr (Or.inr h)
    · exact Or.inr (Or.inl h)
    · exact Or.inl h

variable {keys : List (SortField F)} {a b c : Position V}

theorem precedes_irrefl (keys : List (SortField F)) (a : Position V) : ¬ Precedes keys a a := by
  induction keys with
  | nil => exact id
  | cons k ks ih =>
      rintro (hlt | ⟨-, hrest⟩)
      · exact k.direction.before_irrefl _ hlt
      · exact ih hrest

theorem Precedes.trans (hab : Precedes keys a b) (hbc : Precedes keys b c) :
    Precedes keys a c := by
  induction keys with
  | nil => exact hab
  | cons k ks ih =>
      rcases hab with hab | ⟨hab, hab'⟩ <;> rcases hbc with hbc | ⟨hbc, hbc'⟩
      · exact Or.inl (Direction.before_trans hab hbc)
      · exact Or.inl (hbc ▸ hab)
      · exact Or.inl (hab ▸ hbc)
      · exact Or.inr ⟨hab.trans hbc, ih hab' hbc'⟩

theorem Precedes.asymm (hab : Precedes keys a b) : ¬ Precedes keys b a :=
  fun hba => precedes_irrefl keys a (hab.trans hba)

/-- Two positions that are not ordered agree on every sort key. -/
theorem precedes_total (keys : List (SortField F)) (a b : Position V) :
    Precedes keys a b ∨ Precedes keys b a ∨ ∀ k ∈ keys, a k.field = b k.field := by
  induction keys with
  | nil => exact Or.inr (Or.inr fun k hk => by cases hk)
  | cons k ks ih =>
      rcases k.direction.before_total (a k.field) (b k.field) with hlt | heq | hgt
      · exact Or.inl (Or.inl hlt)
      · rcases ih with h | h | h
        · exact Or.inl (Or.inr ⟨heq, h⟩)
        · exact Or.inr (Or.inl (Or.inr ⟨heq.symm, h⟩))
        · exact Or.inr (Or.inr (List.forall_mem_cons.mpr ⟨heq, h⟩))
      · exact Or.inr (Or.inl (Or.inl hgt))

/-- Only the values of the sort keys matter. -/
theorem precedes_congr {a' b' : Position V} (ha : ∀ k ∈ keys, a k.field = a' k.field)
    (hb : ∀ k ∈ keys, b k.field = b' k.field) : Precedes keys a b ↔ Precedes keys a' b' := by
  induction keys with
  | nil => exact Iff.rfl
  | cons k ks ih =>
      obtain ⟨ha₁, ha₂⟩ := List.forall_mem_cons.mp ha
      obtain ⟨hb₁, hb₂⟩ := List.forall_mem_cons.mp hb
      rw [Precedes, Precedes, ha₁, hb₁, ih ha₂ hb₂]

/-- A key on which the positions agree decides nothing. -/
theorem precedes_drop {pre post : List (SortField F)} {k : SortField F}
    (heq : a k.field = b k.field) :
    Precedes (pre ++ k :: post) a b ↔ Precedes (pre ++ post) a b := by
  induction pre with
  | nil =>
      constructor
      · rintro (hlt | ⟨-, hpost⟩)
        · rw [heq] at hlt
          exact absurd hlt (k.direction.before_irrefl _)
        · exact hpost
      · exact fun hpost => Or.inr ⟨heq, hpost⟩
  | cons k' pre ih =>
      rw [List.cons_append, List.cons_append, Precedes, Precedes, ih]

/-- A key that has come before decides nothing. -/
theorem precedes_repeated {pre post : List (SortField F)} {k : SortField F} (hk : k ∈ pre) :
    Precedes (pre ++ k :: post) a b ↔ Precedes (pre ++ post) a b := by
  induction pre with
  | nil => cases hk
  | cons k' pre ih =>
      rw [List.cons_append, List.cons_append, Precedes, Precedes]
      rcases List.mem_cons.mp hk with rfl | hlater
      · refine or_congr_right (and_congr_right fun heq => ?_)
        exact precedes_drop heq
      · rw [ih hlater]

/-- Where one position precedes another, every third one lies on one side. -/
theorem Precedes.split (hab : Precedes keys a b) (c : Position V) :
    Precedes keys a c ∨ Precedes keys c b := by
  rcases precedes_total keys a c with h | h | h
  · exact Or.inl h
  · exact Or.inr (h.trans hab)
  · exact Or.inr ((precedes_congr h fun _ _ => rfl).mp hab)

end order

/-! ### Pages -/

section walk
variable {F δ ι : Type} {V : F → Type} [∀ f, LinearOrder (V f)]

/-- What remains to be shown when the walk stands at `cursor`. -/
def After (keys : List (SortField F)) (cursor : Option (Position V)) (x : Position V) : Prop :=
  ∀ b, cursor = some b → Precedes keys b x

/-- What a page that ends at `next` leaves for later ones. -/
def Beyond (keys : List (SortField F)) (next : Option (Position V)) (x : Position V) : Prop :=
  ∃ b, next = some b ∧ Precedes keys b x

@[simp] theorem after_none (keys : List (SortField F)) (x : Position V) : After keys none x := by
  rintro b ⟨⟩

@[simp] theorem after_some {keys : List (SortField F)} {b x : Position V} :
    After keys (some b) x ↔ Precedes keys b x := by
  simp [After]

@[simp] theorem beyond_none {keys : List (SortField F)} {x : Position V} :
    ¬ Beyond keys none x := by
  rintro ⟨b, ⟨⟩, -⟩

@[simp] theorem beyond_some {keys : List (SortField F)} {b x : Position V} :
    Beyond keys (some b) x ↔ Precedes keys b x := by
  simp [Beyond]

instance (keys : List (SortField F)) (c : Option (Position V)) (x : Position V) :
    Decidable (After keys c x) := by
  cases c with
  | none => exact .isTrue (after_none _ _)
  | some b => exact decidable_of_iff _ after_some.symm

instance (keys : List (SortField F)) (n : Option (Position V)) (x : Position V) :
    Decidable (Beyond keys n x) := by
  cases n with
  | none => exact .isFalse beyond_none
  | some b => exact decidable_of_iff _ beyond_some.symm

/-- One fetch: what matched at that moment, what was shown of it and where the
page ended. -/
structure Fetch (δ : Type) (V : F → Type) where
  matching : List δ
  items : List δ
  next : Option (Position V)

variable {keys : List (SortField F)} {pos : δ → Position V}

/-- The page shows, in order, what matches between `cursor` and its end. -/
structure Turn (keys : List (SortField F)) (pos : δ → Position V) (cursor : Option (Position V))
    (f : Fetch δ V) : Prop where
  sorted : f.items.Pairwise fun x y => Precedes keys (pos x) (pos y)
  mem : ∀ x, x ∈ f.items ↔
    x ∈ f.matching ∧ After keys cursor (pos x) ∧ ¬ Beyond keys f.next (pos x)
  onward : ∀ b, f.next = some b → After keys cursor b

/-- Pages fetched from `cursor` on, and where the last of them ended. -/
inductive Walk (keys : List (SortField F)) (pos : δ → Position V) :
    Option (Position V) → List (Fetch δ V) → Option (Position V) → Prop where
  | page {cursor f} (h : Turn keys pos cursor f) : Walk keys pos cursor [f] f.next
  | more {cursor f b fs last} (h : Turn keys pos cursor f) (hnext : f.next = some b)
      (rest : Walk keys pos (some b) fs last) : Walk keys pos cursor (f :: fs) last

/-- Everything the pages showed, in the order they showed it. -/
def shown (fs : List (Fetch δ V)) : List δ := fs.flatMap fun f => f.items

theorem Turn.nodup {cursor : Option (Position V)} {f : Fetch δ V} (h : Turn keys pos cursor f) :
    f.items.Nodup := by
  refine h.sorted.imp ?_
  rintro x y hxy rfl
  exact precedes_irrefl keys _ hxy

/-- What lies beyond a page lay ahead of it. -/
theorem Turn.beyond_after {cursor : Option (Position V)} {f : Fetch δ V}
    (h : Turn keys pos cursor f) {x : Position V} (hx : Beyond keys f.next x) :
    After keys cursor x := by
  obtain ⟨b, hb, hbx⟩ := hx
  intro c hc
  exact Precedes.trans (h.onward b hb c hc) hbx

theorem Walk.nonempty {cursor last : Option (Position V)} {fs : List (Fetch δ V)}
    (h : Walk keys pos cursor fs last) : fs ≠ [] := by
  cases h <;> simp

/-- Whatever a walk shows matched at the fetch that showed it. -/
theorem Walk.mem_shown {cursor last : Option (Position V)} {fs : List (Fetch δ V)}
    (h : Walk keys pos cursor fs last) {x : δ} (hx : x ∈ shown fs) :
    ∃ f ∈ fs, x ∈ f.matching := by
  induction h with
  | @page cursor f hturn =>
      have hitems : x ∈ f.items := by simpa [shown] using hx
      exact ⟨f, List.mem_cons_self, ((hturn.mem x).mp hitems).1⟩
  | @more cursor f b fs last hturn _ _ ih =>
      rw [shown, List.flatMap_cons, List.mem_append] at hx
      rcases hx with hx | hx
      · exact ⟨f, List.mem_cons_self, ((hturn.mem x).mp hx).1⟩
      · obtain ⟨g, hg, hxg⟩ := ih hx
        exact ⟨g, List.mem_cons_of_mem _ hg, hxg⟩

theorem Walk.beyond_after {cursor last : Option (Position V)} {fs : List (Fetch δ V)}
    (h : Walk keys pos cursor fs last) {x : Position V} (hx : Beyond keys last x) :
    After keys cursor x := by
  induction h with
  | page hturn => exact hturn.beyond_after hx
  | more hturn hnext _ ih => exact hturn.beyond_after ⟨_, hnext, after_some.mp (ih hx)⟩

/-! ### How often a record is met -/

variable [DecidableEq ι] {ident : δ → ι}

/-- How often the record `v` stands among `items`. -/
def times (ident : δ → ι) (v : ι) (items : List δ) : ℕ := (items.map ident).count v

@[simp] theorem times_append (v : ι) (l m : List δ) :
    times ident v (l ++ m) = times ident v l + times ident v m := by
  simp [times]

/-- No two matching documents are the same record. -/
def Fetch.Distinct (ident : δ → ι) (f : Fetch δ V) : Prop :=
  ∀ x ∈ f.matching, ∀ y ∈ f.matching, ident x = ident y → x = y

theorem times_eq_zero {v : ι} {items : List δ} (h : ∀ x ∈ items, ident x ≠ v) :
    times ident v items = 0 := by
  rw [times, List.count_eq_zero, List.mem_map]
  rintro ⟨x, hx, rfl⟩
  exact h x hx rfl

theorem times_eq_one {items : List δ} {x : δ} (hnodup : items.Nodup) (hx : x ∈ items)
    (honly : ∀ y ∈ items, ident y = ident x → y = x) : times ident (ident x) items = 1 := by
  obtain ⟨l, m, rfl⟩ := List.append_of_mem hx
  have hsplit := List.nodup_append.mp hnodup
  have hl : times ident (ident x) l = 0 := by
    refine times_eq_zero fun y hy heq => ?_
    have hyx : y = x := honly y (List.mem_append_left _ hy) heq
    exact hsplit.2.2 y hy x List.mem_cons_self hyx
  have hm : times ident (ident x) m = 0 := by
    refine times_eq_zero fun y hy heq => ?_
    have hyx : y = x := honly y (by simp [hy]) heq
    exact (List.nodup_cons.mp hsplit.2.1).1 (hyx ▸ hy)
  have hone : times ident (ident x) [x] = 1 := by simp [times]
  calc times ident (ident x) (l ++ x :: m)
      = times ident (ident x) l + (times ident (ident x) [x] + times ident (ident x) m) := by
        rw [← times_append, ← times_append]
        rfl
    _ = 1 := by rw [hl, hm, hone]

/-- A page shows a record once if it lies between the page's ends, and otherwise not. -/
theorem Turn.times_eq {cursor : Option (Position V)} {f : Fetch δ V}
    (h : Turn keys pos cursor f) (hd : f.Distinct ident) {x : δ} (hx : x ∈ f.matching) :
    times ident (ident x) f.items =
      if After keys cursor (pos x) ∧ ¬ Beyond keys f.next (pos x) then 1 else 0 := by
  split_ifs with hin
  · refine times_eq_one h.nodup ((h.mem x).mpr ⟨hx, hin⟩) fun y hy heq => ?_
    exact hd y ((h.mem y).mp hy).1 x hx heq
  · refine times_eq_zero fun y hy heq => hin ?_
    obtain ⟨hmem, hrange⟩ := (h.mem y).mp hy
    rwa [hd y hmem x hx heq] at hrange

/-- How many neighbours in the list are related. -/
def crossings {α : Type} (R : α → α → Prop) [DecidableRel R] : List α → ℕ
  | a :: b :: t => (if R a b then 1 else 0) + crossings R (b :: t)
  | _ => 0

theorem crossings_eq_zero {α : Type} {R : α → α → Prop} [DecidableRel R] {l : List α} :
    crossings R l = 0 ↔ l.IsChain fun a b => ¬ R a b := by
  induction l with
  | nil => simp [crossings]
  | cons a t ih =>
      cases t with
      | nil => simp [crossings]
      | cons b t =>
          rw [crossings, List.isChain_cons_cons, ← ih]
          split_ifs with hR <;> simp [hR]

/-- Between two fetches the record `v` moves from ahead of the walk to behind it. -/
def Skipped (keys : List (SortField F)) (pos : δ → Position V) (ident : δ → ι) (v : ι)
    (f g : Fetch δ V) : Prop :=
  ∃ x ∈ f.matching, ∃ y ∈ g.matching, ident x = v ∧ ident y = v ∧
    Beyond keys f.next (pos x) ∧ ¬ Beyond keys f.next (pos y)

/-- Between two fetches the record `v` moves from behind the walk to ahead of it. -/
def Revisited (keys : List (SortField F)) (pos : δ → Position V) (ident : δ → ι) (v : ι)
    (f g : Fetch δ V) : Prop :=
  ∃ x ∈ f.matching, ∃ y ∈ g.matching, ident x = v ∧ ident y = v ∧
    ¬ Beyond keys f.next (pos x) ∧ Beyond keys f.next (pos y)

/-- The record `v` matches at every fetch. -/
def Throughout (ident : δ → ι) (v : ι) (fs : List (Fetch δ V)) : Prop :=
  ∀ f ∈ fs, ∃ x ∈ f.matching, ident x = v

omit [DecidableEq ι] in
theorem skipped_iff {f g : Fetch δ V} (hf : f.Distinct ident) (hg : g.Distinct ident) {x y : δ}
    (hx : x ∈ f.matching) (hy : y ∈ g.matching) (hxy : ident y = ident x) :
    Skipped keys pos ident (ident x) f g ↔
      Beyond keys f.next (pos x) ∧ ¬ Beyond keys f.next (pos y) := by
  constructor
  · rintro ⟨x', hx', y', hy', hvx, hvy, h⟩
    rwa [hf x' hx' x hx hvx, hg y' hy' y hy (hvy.trans hxy.symm)] at h
  · exact fun h => ⟨x, hx, y, hy, rfl, hxy, h⟩

omit [DecidableEq ι] in
theorem revisited_iff {f g : Fetch δ V} (hf : f.Distinct ident) (hg : g.Distinct ident) {x y : δ}
    (hx : x ∈ f.matching) (hy : y ∈ g.matching) (hxy : ident y = ident x) :
    Revisited keys pos ident (ident x) f g ↔
      ¬ Beyond keys f.next (pos x) ∧ Beyond keys f.next (pos y) := by
  constructor
  · rintro ⟨x', hx', y', hy', hvx, hvy, h⟩
    rwa [hf x' hx' x hx hvx, hg y' hy' y hy (hvy.trans hxy.symm)] at h
  · exact fun h => ⟨x, hx, y, hy, rfl, hxy, h⟩

open Classical in
/-- A record that matches throughout is met once for being ahead of the walk at
its start and once more for every time it gets back there, except where it
leaves unmet: by moving behind the walk, or because the walk stops short of it. -/
theorem Walk.times_balance {cursor last : Option (Position V)} {fs : List (Fetch δ V)}
    (h : Walk keys pos cursor fs last) (hd : ∀ f ∈ fs, f.Distinct ident) {v : ι}
    (hv : Throughout ident v fs) :
    ∃ x ∈ (fs.head h.nonempty).matching, ident x = v ∧
    ∃ z ∈ (fs.getLast h.nonempty).matching, ident z = v ∧
      times ident v (shown fs) + crossings (Skipped keys pos ident v) fs +
          (if Beyond keys last (pos z) then 1 else 0) =
        (if After keys cursor (pos x) then 1 else 0) +
          crossings (Revisited keys pos ident v) fs := by
  induction h with
  | @page cursor f hturn =>
      obtain ⟨x, hx, rfl⟩ := hv f List.mem_cons_self
      refine ⟨x, hx, rfl, x, hx, rfl, ?_⟩
      have hcount := hturn.times_eq (hd f List.mem_cons_self) hx
      have hahead : Beyond keys f.next (pos x) → After keys cursor (pos x) := hturn.beyond_after
      simp only [shown, List.flatMap_singleton, crossings, hcount]
      by_cases hb : Beyond keys f.next (pos x)
      · simp [hb, hahead hb]
      · simp [hb]
  | @more cursor f b fs last hturn hnext rest ih =>
      obtain ⟨y, hy, hyv, z, hz, hzv, hbalance⟩ :=
        ih (fun g hg => hd g (List.mem_cons_of_mem _ hg))
          (fun g hg => hv g (List.mem_cons_of_mem _ hg))
      obtain ⟨x, hx, rfl⟩ := hv f List.mem_cons_self
      refine ⟨x, hx, rfl, z, by rwa [List.getLast_cons rest.nonempty], hzv, ?_⟩
      obtain ⟨g, gs, rfl⟩ := List.exists_cons_of_ne_nil rest.nonempty
      have hgd : g.Distinct ident := hd g (by simp)
      have hfd : f.Distinct ident := hd f List.mem_cons_self
      have hahead : Beyond keys f.next (pos x) → After keys cursor (pos x) := hturn.beyond_after
      have hshown : times ident (ident x) (shown (f :: g :: gs)) =
          times ident (ident x) f.items + times ident (ident x) (shown (g :: gs)) :=
        times_append _ _ _
      rw [hshown, hturn.times_eq hfd hx, crossings, crossings]
      simp only [skipped_iff hfd hgd hx hy hyv, revisited_iff hfd hgd hx hy hyv]
      have hcross : After keys (some b) (pos y) ↔ Beyond keys f.next (pos y) := by
        rw [hnext, after_some, beyond_some]
      simp only [hcross] at hbalance
      by_cases hbx : Beyond keys f.next (pos x) <;> by_cases hby : Beyond keys f.next (pos y) <;>
        simp only [hbx, hby, hahead, if_true, if_false, and_true, and_false, not_true,
          not_false_eq_true] at hbalance ⊢ <;> omega

open Classical in
/-- On a walk over the whole list, what is met beyond the first time is what was passed again. -/
theorem Walk.times_complete {fs : List (Fetch δ V)} (h : Walk keys pos none fs none)
    (hd : ∀ f ∈ fs, f.Distinct ident) {v : ι} (hv : Throughout ident v fs) :
    times ident v (shown fs) + crossings (Skipped keys pos ident v) fs =
      1 + crossings (Revisited keys pos ident v) fs := by
  obtain ⟨x, -, -, z, -, -, hbalance⟩ := h.times_balance hd hv
  simpa using hbalance

/-- Where nothing gets back ahead of the walk, a record is met once exactly when
it is never passed over. -/
theorem Walk.once_iff_not_skipped {fs : List (Fetch δ V)} (h : Walk keys pos none fs none)
    (hd : ∀ f ∈ fs, f.Distinct ident) {v : ι} (hv : Throughout ident v fs)
    (hback : fs.IsChain fun f g => ¬ Revisited keys pos ident v f g) :
    times ident v (shown fs) = 1 ↔ fs.IsChain fun f g => ¬ Skipped keys pos ident v f g := by
  classical
  have hbalance := h.times_complete hd hv
  rw [crossings_eq_zero.mpr hback] at hbalance
  rw [← crossings_eq_zero]
  omega

/-- Where nothing is passed over, a record is met once exactly when it never gets
back ahead of the walk. -/
theorem Walk.once_iff_not_revisited {fs : List (Fetch δ V)} (h : Walk keys pos none fs none)
    (hd : ∀ f ∈ fs, f.Distinct ident) {v : ι} (hv : Throughout ident v fs)
    (hskip : fs.IsChain fun f g => ¬ Skipped keys pos ident v f g) :
    times ident v (shown fs) = 1 ↔ fs.IsChain fun f g => ¬ Revisited keys pos ident v f g := by
  classical
  have hbalance := h.times_complete hd hv
  rw [crossings_eq_zero.mpr hskip] at hbalance
  rw [← crossings_eq_zero]
  omega

/-! ### Records that only move one way -/

/-- Every record of the first collection is in the second, at a position related to its own. -/
def Drifts (rel : Position V → Position V → Prop) (pos : δ → Position V) (ident : δ → ι)
    (docs docs' : List δ) : Prop :=
  ∀ x ∈ docs, ∃ y ∈ docs', ident y = ident x ∧ rel (pos x) (pos y)

/-- The second position is not after the first. -/
def NotLater (keys : List (SortField F)) (a b : Position V) : Prop := ¬ Precedes keys a b

/-- The second position is not before the first. -/
def NotEarlier (keys : List (SortField F)) (a b : Position V) : Prop := ¬ Precedes keys b a

theorem NotLater.trans {a b c : Position V} (hab : NotLater keys a b) (hbc : NotLater keys b c) :
    NotLater keys a c := fun hac => (hac.split b).elim hab hbc

theorem NotEarlier.trans {a b c : Position V} (hab : NotEarlier keys a b)
    (hbc : NotEarlier keys b c) : NotEarlier keys a c := fun hca => (hca.split b).elim hbc hab

section drifts
omit [∀ f, LinearOrder (V f)] [DecidableEq ι]

theorem Drifts.refl {rel : Position V → Position V → Prop} (hrel : ∀ a, rel a a) (docs : List δ) :
    Drifts rel pos ident docs docs := fun x hx => ⟨x, hx, rfl, hrel _⟩

theorem Drifts.trans {rel : Position V → Position V → Prop}
    (hrel : ∀ a b c, rel a b → rel b c → rel a c) {docs docs' docs'' : List δ}
    (h : Drifts rel pos ident docs docs') (h' : Drifts rel pos ident docs' docs'') :
    Drifts rel pos ident docs docs'' := by
  intro x hx
  obtain ⟨y, hy, hyx, hxy⟩ := h x hx
  obtain ⟨z, hz, hzy, hyz⟩ := h' y hy
  exact ⟨z, hz, hzy.trans hyx, hrel _ _ _ hxy hyz⟩

/-- Where identifiers are unique, the record meant is the one found. -/
theorem Drifts.related {rel : Position V → Position V → Prop} {docs docs' : List δ}
    (h : Drifts rel pos ident docs docs') (hunique : (docs'.map ident).Nodup) {x y : δ}
    (hx : x ∈ docs) (hy : y ∈ docs') (hxy : ident y = ident x) : rel (pos x) (pos y) := by
  obtain ⟨z, hz, hzx, hrel⟩ := h x hx
  rwa [List.inj_on_of_nodup_map hunique hy hz (hxy.trans hzx.symm)]

end drifts

omit [DecidableEq ι] in
theorem not_revisited_of_notLater {v : ι} {f g : Fetch δ V}
    (h : ∀ x ∈ f.matching, ∀ y ∈ g.matching, ident y = ident x → NotLater keys (pos x) (pos y)) :
    ¬ Revisited keys pos ident v f g := by
  rintro ⟨x, hx, y, hy, hxv, hyv, hnot, b, hb, hby⟩
  rcases hby.split (pos x) with hbx | hxy
  · exact hnot ⟨b, hb, hbx⟩
  · exact h x hx y hy (hyv.trans hxv.symm) hxy

omit [DecidableEq ι] in
theorem not_skipped_of_notEarlier {v : ι} {f g : Fetch δ V}
    (h : ∀ x ∈ f.matching, ∀ y ∈ g.matching, ident y = ident x → NotEarlier keys (pos x) (pos y)) :
    ¬ Skipped keys pos ident v f g := by
  rintro ⟨x, hx, y, hy, hxv, hyv, ⟨b, hb, hbx⟩, hnot⟩
  rcases hbx.split (pos y) with hby | hyx
  · exact hnot ⟨b, hb, hby⟩
  · exact h x hx y hy (hyv.trans hxv.symm) hyx

/-! ### Records that stay -/

/-- Wherever the record `v` is found, it stands at `p`. -/
def Settled (keys : List (SortField F)) (pos : δ → Position V) (ident : δ → ι) (v : ι)
    (p : Position V) (fs : List (Fetch δ V)) : Prop :=
  ∀ f ∈ fs, ∀ x ∈ f.matching, ident x = v → ∀ k ∈ keys, pos x k.field = p k.field

omit [DecidableEq ι] in
theorem beyond_congr {n : Option (Position V)} {x y : Position V}
    (h : ∀ k ∈ keys, x k.field = y k.field) : Beyond keys n x ↔ Beyond keys n y := by
  cases n with
  | none => simp
  | some b => simpa using precedes_congr (fun _ _ => rfl) h

omit [DecidableEq ι] in
/-- A record that stays where it is crosses nothing. -/
theorem Settled.steady {v : ι} {p : Position V} {fs : List (Fetch δ V)}
    (h : Settled keys pos ident v p fs) :
    (fs.IsChain fun f g => ¬ Skipped keys pos ident v f g) ∧
      fs.IsChain fun f g => ¬ Revisited keys pos ident v f g := by
  have hsame : ∀ {f g : Fetch δ V} {x y : δ}, f ∈ fs → g ∈ fs → x ∈ f.matching →
      y ∈ g.matching → ident x = v → ident y = v →
      (Beyond keys f.next (pos x) ↔ Beyond keys f.next (pos y)) := by
    intro f g x y hf hg hx hy hxv hyv
    exact beyond_congr fun k hk => (h f hf x hx hxv k hk).trans (h g hg y hy hyv k hk).symm
  have hchain : ∀ R : Fetch δ V → Fetch δ V → Prop, (∀ f ∈ fs, ∀ g ∈ fs, R f g) →
      fs.IsChain R := by
    intro R hR
    exact (List.pairwise_of_forall_mem_list hR).isChain
  constructor
  · refine hchain _ fun f hf g hg => ?_
    rintro ⟨x, hx, y, hy, hxv, hyv, hb, hnb⟩
    exact hnb ((hsame hf hg hx hy hxv hyv).mp hb)
  · refine hchain _ fun f hf g hg => ?_
    rintro ⟨x, hx, y, hy, hxv, hyv, hnb, hb⟩
    exact hnb ((hsame hf hg hx hy hxv hyv).mpr hb)

/-- A record that stays where it is and matches throughout is met once. -/
theorem Walk.once_of_settled {fs : List (Fetch δ V)} (h : Walk keys pos none fs none)
    (hd : ∀ f ∈ fs, f.Distinct ident) {v : ι} {p : Position V} (hv : Throughout ident v fs)
    (hp : Settled keys pos ident v p fs) : times ident v (shown fs) = 1 :=
  (h.once_iff_not_skipped hd hv hp.steady.2).mpr hp.steady.1

theorem Turn.times_le_one {cursor : Option (Position V)} {f : Fetch δ V}
    (h : Turn keys pos cursor f) (hd : f.Distinct ident) (v : ι) :
    times ident v f.items ≤ 1 := by
  by_cases hx : ∃ x ∈ f.matching, ident x = v
  · obtain ⟨x, hx, rfl⟩ := hx
    rw [h.times_eq hd hx]
    split_ifs <;> omega
  · have hzero : times ident v f.items = 0 :=
      times_eq_zero fun x hx' hxv => hx ⟨x, ((h.mem x).mp hx').1, hxv⟩
    omega

/-- A record that stays where it is is met at most once, matching throughout or not. -/
theorem Walk.at_most_once {cursor last : Option (Position V)} {fs : List (Fetch δ V)}
    (h : Walk keys pos cursor fs last) (hd : ∀ f ∈ fs, f.Distinct ident) {v : ι}
    {p : Position V} (hp : Settled keys pos ident v p fs) :
    times ident v (shown fs) ≤ 1 ∧ (¬ After keys cursor p → times ident v (shown fs) = 0) := by
  have hmiss : ∀ {cursor : Option (Position V)} {f : Fetch δ V}, Turn keys pos cursor f →
      Settled keys pos ident v p [f] → ¬ After keys cursor p → times ident v f.items = 0 := by
    intro cursor f hturn hsettled hafter
    refine times_eq_zero fun x hx hxv => hafter ?_
    obtain ⟨hmem, hrange, -⟩ := (hturn.mem x).mp hx
    have hagree := hsettled f List.mem_cons_self x hmem hxv
    intro b hb
    exact (precedes_congr (fun _ _ => rfl) hagree).mp (hrange b hb)
  induction h with
  | @page cursor f hturn =>
      simp only [shown, List.flatMap_singleton]
      exact ⟨hturn.times_le_one (hd f List.mem_cons_self) v, hmiss hturn hp⟩
  | @more cursor f b fs last hturn hnext rest ih =>
      have hpf : Settled keys pos ident v p [f] := fun g hg => hp g (by simp_all)
      obtain ⟨hle, hzero⟩ := ih (fun g hg => hd g (List.mem_cons_of_mem _ hg))
        fun g hg => hp g (List.mem_cons_of_mem _ hg)
      have hshown : times ident v (shown (f :: fs)) =
          times ident v f.items + times ident v (shown fs) := times_append _ _ _
      rw [hshown]
      constructor
      · by_cases hb : Precedes keys b p
        · have hnone : times ident v f.items = 0 := by
            refine times_eq_zero fun x hx hxv => ?_
            obtain ⟨hmem, -, hrange⟩ := (hturn.mem x).mp hx
            have hagree := hpf f List.mem_cons_self x hmem hxv
            exact hrange ((beyond_congr hagree).mpr ⟨b, hnext, hb⟩)
          omega
        · have hone := hturn.times_le_one (hd f List.mem_cons_self) v
          have hrest : times ident v (shown fs) = 0 := hzero fun hafter => hb (after_some.mp hafter)
          omega
      · intro hafter
        have hrest : times ident v (shown fs) = 0 := by
          refine hzero fun hb => hafter fun c hc => ?_
          exact (hturn.onward b hnext c hc).trans (after_some.mp hb)
        rw [hmiss hturn hpf hafter, hrest]

/-- If all records stay where they are, none is met twice. -/
theorem Walk.times_le_one {cursor last : Option (Position V)} {fs : List (Fetch δ V)}
    (h : Walk keys pos cursor fs last) (hd : ∀ f ∈ fs, f.Distinct ident)
    (hp : ∀ f ∈ fs, ∀ x ∈ f.matching, Settled keys pos ident (ident x) (pos x) fs) (v : ι) :
    times ident v (shown fs) ≤ 1 := by
  by_cases hseen : ∃ x ∈ shown fs, ident x = v
  · obtain ⟨x, hx, rfl⟩ := hseen
    obtain ⟨f, hf, hmatching⟩ := h.mem_shown hx
    exact (h.at_most_once hd (hp f hf x hmatching)).1
  · have hzero : times ident v (shown fs) = 0 :=
      times_eq_zero fun x hx hxv => hseen ⟨x, hx, hxv⟩
    omega

/-! ### Collections that stay as they are -/

omit [DecidableEq ι] in
/-- Over an unchanging collection the walk shows, in order, what matches ahead of its start. -/
theorem Walk.shown_sorted {l : List δ} {cursor last : Option (Position V)}
    {fs : List (Fetch δ V)} (h : Walk keys pos cursor fs last)
    (hl : ∀ f ∈ fs, f.matching = l) :
    (shown fs).Pairwise (fun x y => Precedes keys (pos x) (pos y)) ∧
      ∀ x, x ∈ shown fs ↔ x ∈ l ∧ After keys cursor (pos x) ∧ ¬ Beyond keys last (pos x) := by
  induction h with
  | @page cursor f hturn =>
      simp only [shown, List.flatMap_singleton]
      refine ⟨hturn.sorted, fun x => ?_⟩
      rw [hturn.mem x, hl f List.mem_cons_self]
  | @more cursor f b fs last hturn hnext rest ih =>
      obtain ⟨hsorted, hmem⟩ := ih fun g hg => hl g (List.mem_cons_of_mem _ hg)
      have hfl : f.matching = l := hl f List.mem_cons_self
      have hshown : shown (f :: fs) = f.items ++ shown fs := rfl
      have hbeyond : ∀ x, Beyond keys f.next x ↔ Precedes keys b x := by
        intro x
        rw [hnext, beyond_some]
      have hlast : ∀ x, Beyond keys last x → Precedes keys b x := by
        intro x hx
        exact after_some.mp (rest.beyond_after hx)
      rw [hshown]
      constructor
      · rw [List.pairwise_append]
        refine ⟨hturn.sorted, hsorted, fun x hx y hy => ?_⟩
        obtain ⟨-, hafter, hnot⟩ := (hturn.mem x).mp hx
        have hby : Precedes keys b (pos y) := after_some.mp ((hmem y).mp hy).2.1
        rcases hby.split (pos x) with h' | h'
        · exact absurd ((hbeyond _).mpr h') hnot
        · exact h'
      · intro x
        rw [List.mem_append, hturn.mem x, hmem x, hfl, hbeyond, after_some]
        constructor
        · rintro (⟨hx, hafter, hnot⟩ | ⟨hx, hb, hnot⟩)
          · exact ⟨hx, hafter, fun hlx => hnot (hlast _ hlx)⟩
          · exact ⟨hx, hturn.beyond_after ((hbeyond _).mpr hb), hnot⟩
        · rintro ⟨hx, hafter, hnot⟩
          by_cases hb : Precedes keys b (pos x)
          · exact Or.inr ⟨hx, hb, hnot⟩
          · exact Or.inl ⟨hx, hafter, hb⟩

end walk
end CiroFuel.Query
