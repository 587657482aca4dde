import CiroFuel.SortKeys

/-!
# Cursor pagination

One page of a list: everything after the cursor that passes the filter, sorted,
one more than a page holds; the extra row tells whether there is a next page, and
the cursor of the next page carries the sort values of the last row kept. A
cursor travels as the values it encodes.
-/
namespace CiroFuel
open Query

section paginate
variable {F δ : Type} [DecidableEq F] {V : F → Type} [∀ f, LinearOrder (V f)]

structure PaginatedResponse (δ : Type) (V : F → Type) where
  items : List δ
  nextCursor : Option (Position V)

def effectiveFilter (pos : δ → Position V) (filter : Conditions F δ) (keys : List (SortField F)) :
    Option (Position V) → Conditions F δ
  | none => filter
  | some boundary => .conj [filter, buildKeysetFilter pos keys boundary]

/-- `find(filter).sort(spec).limit(limit)` -/
def find (pos : δ → Position V) (docs : List δ) (filter : Conditions F δ)
    (spec : List (SortField F)) (limit : ℕ) : List δ :=
  ((docs.filter filter.holds).insertionSort
    fun x y => ¬ Precedes spec (pos y) (pos x)).take limit

/-- One page; `scope` is what a plugin merges into the filter before the query runs. -/
def paginate (pos : δ → Position V) (scope : Conditions F δ) (docs : List δ) (filter : Conditions F δ)
    (keys : List (SortField F)) (cursor : Option (Position V)) (pageSize : ℕ) :
    PaginatedResponse δ V :=
  let found := find pos docs ((effectiveFilter pos filter keys cursor).merge scope)
    (buildSortSpec keys) (pageSize + 1)
  let hasMore := decide (pageSize < found.length)
  let items := if hasMore then found.take pageSize else found
  { items := items
    nextCursor := if hasMore then items.getLast?.map pos else none }

/-! ### One page -/

variable {pos : δ → Position V} {boundary : Position V}

theorem effectiveFilter_holds {filter : Conditions F δ} {keys : List (SortField F)}
    (hkeys : OneDirection keys) (cursor : Option (Position V)) (d : δ) :
    (effectiveFilter pos filter keys cursor).holds d = true ↔
      filter.holds d = true ∧ After keys cursor (pos d) := by
  cases cursor with
  | none => simp [effectiveFilter]
  | some boundary => simp [effectiveFilter, buildKeysetFilter_holds hkeys]

/-- On these documents the scope takes nothing out of the filter. -/
structure Separate (filter scope : Conditions F δ) (docs : List δ) : Prop where
  merge : ∀ d ∈ docs, (filter.merge scope).holds d = (filter.holds d && scope.holds d)
  and : scope.get .and = none

theorem separate_empty (filter : Conditions F δ) (docs : List δ) :
    Separate filter .empty docs where
  merge d _ := by rw [Conditions.merge_empty, Conditions.holds_empty, Bool.and_true]
  and := rfl

theorem Separate.effectiveFilter_holds {filter scope : Conditions F δ} {docs : List δ}
    (h : Separate filter scope docs) {keys : List (SortField F)}
    (hkeys : OneDirection keys) {cursor : Option (Position V)} {d : δ} (hd : d ∈ docs) :
    ((effectiveFilter pos filter keys cursor).merge scope).holds d = true ↔
      (filter.holds d && scope.holds d) = true ∧ After keys cursor (pos d) := by
  cases cursor with
  | none => simp [effectiveFilter, h.merge d hd]
  | some boundary =>
      have hnames : ∀ n, (scope.get n).isSome → (effectiveFilter pos filter keys
          (some boundary)).get n = none := by
        intro n hn
        refine Conditions.get_conj_ne ?_
        rintro rfl
        rw [h.and] at hn
        cases hn
      rw [Conditions.holds_merge_disjoint hnames, Bool.and_eq_true, Bool.and_eq_true,
        CiroFuel.effectiveFilter_holds hkeys]
      tauto

omit [DecidableEq F] in
/-- No two documents stand at the same position. -/
def Placed (keys : List (SortField F)) (pos : δ → Position V) (docs : List δ) : Prop :=
  docs.Nodup ∧ ∀ x ∈ docs, ∀ y ∈ docs, (∀ k ∈ keys, pos x k.field = pos y k.field) → x = y

omit [DecidableEq F] in
/-- Sorting documents of different positions puts them in strict order. -/
theorem sorted_placed {keys : List (SortField F)} {docs : List δ} (h : Placed keys pos docs) :
    (docs.insertionSort fun x y => ¬ Precedes keys (pos y) (pos x)).Pairwise
      fun x y => Precedes keys (pos x) (pos y) := by
  let r : δ → δ → Prop := fun x y => ¬ Precedes keys (pos y) (pos x)
  have htotal : Std.Total r := ⟨fun x y => by
    by_cases hyx : Precedes keys (pos y) (pos x)
    · exact Or.inr hyx.asymm
    · exact Or.inl hyx⟩
  have htrans : IsTrans δ r := ⟨fun x y z hxy hyz hzx => by
    rcases hzx.split (pos y) with hzy | hyx
    · exact hyz hzy
    · exact hxy hyx⟩
  have hsorted : (docs.insertionSort r).Pairwise r := List.pairwise_insertionSort r docs
  have hnodup : (docs.insertionSort r).Nodup := (List.perm_insertionSort r docs).nodup_iff.mpr h.1
  refine (hsorted.and hnodup).imp_of_mem ?_
  rintro x y hx hy ⟨hnot, hne⟩
  rw [List.mem_insertionSort] at hx hy
  rcases precedes_total keys (pos x) (pos y) with hlt | hgt | heq
  · exact hlt
  · exact absurd hgt hnot
  · exact absurd (h.2 x hx y hy heq) hne

omit [DecidableEq F] in
theorem find_sorted {keys : List (SortField F)} {docs : List δ} (h : Placed keys pos docs)
    (filter : Conditions F δ) (limit : ℕ) :
    ∃ l : List δ, find pos docs filter keys limit = l.take limit ∧
      l.Pairwise (fun x y => Precedes keys (pos x) (pos y)) ∧
      ∀ x, x ∈ l ↔ x ∈ docs ∧ filter.holds x = true := by
  have hsub : Placed keys pos (docs.filter filter.holds) :=
    ⟨h.1.filter _, fun x hx y hy => h.2 x (List.mem_filter.mp hx).1 y (List.mem_filter.mp hy).1⟩
  refine ⟨_, rfl, sorted_placed hsub, fun x => ?_⟩
  rw [List.mem_insertionSort, List.mem_filter]

/-- The sort by the spec is the sort by the keys. -/
theorem find_buildSortSpec {keys : List (SortField F)} (hkeys : OneDirection keys) (docs : List δ)
    (filter : Conditions F δ) (limit : ℕ) :
    find pos docs filter (buildSortSpec keys) limit = find pos docs filter keys limit := by
  simp only [find, buildSortSpec_precedes hkeys]

omit [DecidableEq F] in
/-- Of a sorted list, the first rows are those up to the last of them. -/
theorem mem_take_sorted {keys : List (SortField F)} {l : List δ}
    (h : l.Pairwise fun x y => Precedes keys (pos x) (pos y)) {n : ℕ} {last : δ}
    (hlast : (l.take n).getLast? = some last) (x : δ) :
    x ∈ l.take n ↔ x ∈ l ∧ ¬ Precedes keys (pos last) (pos x) := by
  have hsplit : (l.take n ++ l.drop n).Pairwise fun x y => Precedes keys (pos x) (pos y) := by
    rwa [List.take_append_drop]
  obtain ⟨hfirst, -, hacross⟩ := List.pairwise_append.mp hsplit
  obtain ⟨init, hinit⟩ := List.getLast?_eq_some_iff.mp hlast
  constructor
  · intro hx
    refine ⟨List.mem_of_mem_take hx, fun hlt => ?_⟩
    rw [hinit, List.mem_append, List.mem_singleton] at hx
    rcases hx with hx | rfl
    · rw [hinit] at hfirst
      have hgt := (List.pairwise_append.mp hfirst).2.2 x hx last (List.mem_singleton_self _)
      exact hgt.asymm hlt
    · exact precedes_irrefl keys _ hlt
  · rintro ⟨hx, hnot⟩
    rw [← List.take_append_drop n l, List.mem_append] at hx
    rcases hx with hx | hx
    · exact hx
    · refine absurd (hacross last ?_ x hx) hnot
      rw [hinit]
      simp

/-- What a page is: everything that matches between the cursor it was given and
the cursor it returns, in order. -/
theorem paginate_turn {keys : List (SortField F)} {docs : List δ} {filter scope : Conditions F δ}
    {cursor : Option (Position V)} {pageSize : ℕ} (hkeys : OneDirection keys)
    (hdocs : Placed keys pos docs) (hsize : 1 ≤ pageSize) (hscope : Separate filter scope docs) :
    Turn keys pos cursor
      { matching := docs.filter fun d => filter.holds d && scope.holds d
        items := (paginate pos scope docs filter keys cursor pageSize).items
        next := (paginate pos scope docs filter keys cursor pageSize).nextCursor } := by
  obtain ⟨l, hfind, hsorted, hmem⟩ :=
    find_sorted hdocs ((effectiveFilter pos filter keys cursor).merge scope) (pageSize + 1)
  have hl : ∀ x, x ∈ l ↔ x ∈ docs.filter (fun d => filter.holds d && scope.holds d) ∧
      After keys cursor (pos x) := by
    intro x
    rw [hmem, List.mem_filter]
    constructor
    · rintro ⟨hx, hholds⟩
      rw [hscope.effectiveFilter_holds hkeys hx] at hholds
      tauto
    · rintro ⟨⟨hx, hholds⟩, hafter⟩
      exact ⟨hx, (hscope.effectiveFilter_holds hkeys hx).mpr ⟨hholds, hafter⟩⟩
  simp only [paginate, find_buildSortSpec hkeys, hfind]
  by_cases hmore : pageSize < (l.take (pageSize + 1)).length
  · have hlen : pageSize < l.length := by
      rw [List.length_take] at hmore
      omega
    have htake : (l.take (pageSize + 1)).take pageSize = l.take pageSize := by
      rw [List.take_take]
      congr 1
      omega
    have hne : l.take pageSize ≠ [] := by
      rw [← List.length_pos_iff, List.length_take]
      omega
    obtain ⟨last, hlast⟩ : ∃ last, (l.take pageSize).getLast? = some last :=
      ⟨_, List.getLast?_eq_some_getLast hne⟩
    simp only [hmore, decide_true, if_true, htake, hlast, Option.map_some]
    have hlastMem : last ∈ l := List.mem_of_mem_take (List.mem_of_getLast? hlast)
    refine ⟨hsorted.sublist (List.take_sublist _ _), fun x => ?_, ?_⟩
    · rw [mem_take_sorted hsorted hlast, hl, beyond_some]
      tauto
    · rintro b ⟨⟩
      exact ((hl last).mp hlastMem).2
  · have htake : l.take (pageSize + 1) = l := by
      apply List.take_of_length_le
      rw [List.length_take] at hmore
      omega
    rw [htake] at hmore ⊢
    simp only [hmore, decide_false]
    refine ⟨hsorted, fun x => ?_, ?_⟩
    · simp [hl]
    · rintro b ⟨⟩

theorem paginate_items_nonempty {keys : List (SortField F)} {docs : List δ}
    {filter scope : Conditions F δ} {cursor : Option (Position V)} {pageSize : ℕ}
    {b : Position V}
    (h : (paginate pos scope docs filter keys cursor pageSize).nextCursor = some b) :
    ∃ x ∈ (paginate pos scope docs filter keys cursor pageSize).items, pos x = b := by
  simp only [paginate] at h ⊢
  split_ifs at h with hmore
  · rw [if_pos hmore]
    obtain ⟨x, hx, rfl⟩ := Option.map_eq_some_iff.mp h
    exact ⟨x, List.mem_of_getLast? hx, rfl⟩

/-! ### Documents changed in what the query does not read -/

omit [DecidableEq F] in
theorem find_map {docs : List δ} {p : Conditions F δ} {f : δ → δ} (hpos : ∀ d, pos (f d) = pos d)
    (hp : ∀ d, p.holds (f d) = p.holds d) (spec : List (SortField F)) (limit : ℕ) :
    find pos (docs.map f) p spec limit = (find pos docs p spec limit).map f := by
  have hfilter : (docs.map f).filter p.holds = (docs.filter p.holds).map f := by
    rw [List.filter_map]
    exact congrArg (List.map f) (List.filter_congr fun d _ => hp d)
  have hsort : (((docs.filter p.holds).map f).insertionSort
      fun x y => ¬ Precedes spec (pos y) (pos x)) =
      ((docs.filter p.holds).insertionSort fun x y => ¬ Precedes spec (pos y) (pos x)).map f := by
    refine (List.map_insertionSort _ _ f _ fun x _ y _ => ?_).symm
    rw [hpos, hpos]
  rw [find, find, hfilter, hsort, List.map_take]

theorem paginate_map_of_holds {docs : List δ} {filter scope : Conditions F δ} {f : δ → δ}
    {keys : List (SortField F)} {cursor : Option (Position V)} {pageSize : ℕ}
    (hpos : ∀ d, pos (f d) = pos d)
    (hholds : ∀ d, ((effectiveFilter pos filter keys cursor).merge scope).holds (f d) =
      ((effectiveFilter pos filter keys cursor).merge scope).holds d) :
    paginate pos scope (docs.map f) filter keys cursor pageSize =
      { items := (paginate pos scope docs filter keys cursor pageSize).items.map f
        nextCursor := (paginate pos scope docs filter keys cursor pageSize).nextCursor } := by
  simp only [paginate, find_map hpos hholds, List.length_map]
  by_cases hmore : pageSize < (find pos docs ((effectiveFilter pos filter keys cursor).merge scope)
      (buildSortSpec keys) (pageSize + 1)).length
  · simp only [hmore, decide_true, if_true, ← List.map_take, List.getLast?_map, Option.map_map]
    congr 2
    funext d
    exact hpos d
  · simp [hmore]

/-- A page of documents that differ in nothing the query reads is the same page of them. -/
theorem paginate_map {docs : List δ} {filter scope : Conditions F δ} {f : δ → δ}
    {keys : List (SortField F)} {cursor : Option (Position V)} {pageSize : ℕ}
    (hpos : ∀ d, pos (f d) = pos d) (hfilter : filter.Ignores f) (hscope : scope.Ignores f)
    (hkeys : OneDirection keys) :
    paginate pos scope (docs.map f) filter keys cursor pageSize =
      { items := (paginate pos scope docs filter keys cursor pageSize).items.map f
        nextCursor := (paginate pos scope docs filter keys cursor pageSize).nextCursor } := by
  have heffective : (effectiveFilter pos filter keys cursor).Ignores f := by
    cases cursor with
    | none => exact hfilter
    | some boundary =>
        refine Conditions.ignores_conj fun p hp => ?_
        rcases List.mem_cons.mp hp with rfl | hp
        · exact hfilter
        · obtain rfl := List.mem_singleton.mp hp
          refine Conditions.ignores_only fun d => ?_
          have hkeyset : ∀ d, ((keysetClauses pos boundary [] keys).any fun p => p.holds d) = true ↔
              Precedes keys boundary (pos d) := by
            intro d
            rw [← Conditions.holds_disj]
            exact buildKeysetFilter_holds hkeys d
          rw [Bool.eq_iff_iff, hkeyset, hkeyset, hpos]
  exact paginate_map_of_holds hpos (heffective.merge hscope).holds

/-- What a page holds is in the collection. -/
theorem mem_of_mem_page {docs : List δ} {filter scope : Conditions F δ} {keys : List (SortField F)}
    {cursor : Option (Position V)} {pageSize : ℕ} {x : δ}
    (h : x ∈ (paginate pos scope docs filter keys cursor pageSize).items) : x ∈ docs := by
  have hfound : x ∈ find pos docs ((effectiveFilter pos filter keys cursor).merge scope)
      (buildSortSpec keys) (pageSize + 1) := by
    simp only [paginate] at h
    split_ifs at h
    · exact List.mem_of_mem_take h
    · exact h
  have hsorted := List.mem_of_mem_take hfound
  rw [List.mem_insertionSort] at hsorted
  exact (List.mem_filter.mp hsorted).1

/-! ### Following the cursor -/

/-- A client follows `nextCursor` from `cursor` on; the collection is what it is at each
fetch, and `fetch` says which page that gives. -/
inductive Follows (fetch : Option (Position V) → List δ → PaginatedResponse δ V → Prop) :
    Option (Position V) → List (List δ) → List (PaginatedResponse δ V) →
    Option (Position V) → Prop where
  | page {cursor docs page} (h : fetch cursor docs page) :
      Follows fetch cursor [docs] [page] page.nextCursor
  | more {cursor docs page b snapshots pages last} (h : fetch cursor docs page)
      (hnext : page.nextCursor = some b) (rest : Follows fetch (some b) snapshots pages last) :
      Follows fetch cursor (docs :: snapshots) (page :: pages) last

/-- The fetches of a walk. -/
def fetches (p : δ → Bool) (snapshots : List (List δ)) (pages : List (PaginatedResponse δ V)) :
    List (Fetch δ V) :=
  snapshots.zipWith (fun docs page =>
    { matching := docs.filter p, items := page.items, next := page.nextCursor }) pages

section follows
variable {fetch : Option (Position V) → List δ → PaginatedResponse δ V → Prop}
  {cursor last : Option (Position V)} {snapshots : List (List δ)}
  {pages : List (PaginatedResponse δ V)} {p : δ → Bool} {keys : List (SortField F)}

omit [DecidableEq F] in
theorem Follows.walk (h : Follows fetch cursor snapshots pages last)
    (hturn : ∀ cursor page, ∀ docs ∈ snapshots, fetch cursor docs page → Turn keys pos cursor
      { matching := docs.filter p, items := page.items, next := page.nextCursor }) :
    Walk keys pos cursor (fetches p snapshots pages) last := by
  induction h with
  | page hpage => exact .page (hturn _ _ _ List.mem_cons_self hpage)
  | more hpage hnext _ ih =>
      refine .more (hturn _ _ _ List.mem_cons_self hpage) hnext (ih fun cursor page docs hdocs => ?_)
      exact hturn cursor page docs (List.mem_cons_of_mem _ hdocs)

omit [DecidableEq F] [∀ f, LinearOrder (V f)] in
theorem Follows.shown_eq (h : Follows fetch cursor snapshots pages last) :
    shown (fetches p snapshots pages) = pages.flatMap fun page => page.items := by
  induction h with
  | page _ => rfl
  | more _ _ _ ih => exact congrArg _ ih

omit [DecidableEq F] [∀ f, LinearOrder (V f)] in
theorem Follows.mono {fetch' : Option (Position V) → List δ → PaginatedResponse δ V → Prop}
    (h : Follows fetch cursor snapshots pages last)
    (hfetch : ∀ cursor docs page, fetch cursor docs page → fetch' cursor docs page) :
    Follows fetch' cursor snapshots pages last := by
  induction h with
  | page hpage => exact .page (hfetch _ _ _ hpage)
  | more hpage hnext _ ih => exact .more (hfetch _ _ _ hpage) hnext ih

omit [DecidableEq F] [∀ f, LinearOrder (V f)] in
theorem Follows.nonempty (h : Follows fetch cursor snapshots pages last) :
    ∃ docs, docs ∈ snapshots := by
  cases h <;> exact ⟨_, List.mem_cons_self⟩

omit [DecidableEq F] [∀ f, LinearOrder (V f)] in
theorem mem_fetches {f : Fetch δ V} (h : f ∈ fetches p snapshots pages) :
    ∃ docs ∈ snapshots, f.matching = docs.filter p := by
  obtain ⟨i, hi, rfl⟩ := List.mem_iff_getElem.mp h
  simp only [fetches, List.length_zipWith, lt_inf_iff] at hi
  refine ⟨snapshots[i], List.getElem_mem _, ?_⟩
  simp [fetches]

omit [DecidableEq F] [∀ f, LinearOrder (V f)] in
/-- What holds between successive collections holds between successive fetches. -/
theorem fetches_chain {R : List δ → List δ → Prop} {S : Fetch δ V → Fetch δ V → Prop}
    (hS : ∀ docs ∈ snapshots, ∀ docs' ∈ snapshots, R docs docs' →
      ∀ items next items' next', S ⟨docs.filter p, items, next⟩ ⟨docs'.filter p, items', next'⟩)
    (h : snapshots.IsChain R) : (fetches p snapshots pages).IsChain S := by
  induction snapshots generalizing pages with
  | nil => exact List.isChain_nil
  | cons docs rest ih =>
      cases pages with
      | nil => exact List.isChain_nil
      | cons page pages =>
          have htail : (fetches p rest pages).IsChain S := by
            refine ih (fun d hd d' hd' => ?_) (List.IsChain.tail h)
            exact hS d (List.mem_cons_of_mem _ hd) d' (List.mem_cons_of_mem _ hd')
          cases rest with
          | nil => exact List.isChain_singleton _
          | cons docs' rest =>
              cases pages with
              | nil => exact List.isChain_singleton _
              | cons page' pages =>
                  refine List.isChain_cons_cons.mpr ⟨?_, htail⟩
                  exact hS _ List.mem_cons_self _ (List.mem_cons_of_mem _ List.mem_cons_self)
                    (List.isChain_cons_cons.mp h).1 _ _ _ _

end follows

/-- Follows the cursor through the given collections. -/
def follow (fetch : Option (Position V) → List δ → Option (PaginatedResponse δ V)) :
    Option (Position V) → List (List δ) →
      Option (List (PaginatedResponse δ V) × Option (Position V))
  | _, [] => none
  | cursor, [docs] => (fetch cursor docs).map fun page => ([page], page.nextCursor)
  | cursor, docs :: docs' :: rest => do
      let page ← fetch cursor docs
      let b ← page.nextCursor
      let (pages, last) ← follow fetch (some b) (docs' :: rest)
      return (page :: pages, last)

omit [DecidableEq F] [∀ f, LinearOrder (V f)] in
theorem follow_spec {fetch : Option (Position V) → List δ → Option (PaginatedResponse δ V)}
    {cursor last : Option (Position V)} {snapshots : List (List δ)}
    {pages : List (PaginatedResponse δ V)} (h : follow fetch cursor snapshots = some (pages, last)) :
    Follows (fun cursor docs page => fetch cursor docs = some page) cursor snapshots pages last := by
  induction snapshots generalizing cursor pages with
  | nil => cases h
  | cons docs rest ih =>
      cases rest with
      | nil =>
          obtain ⟨page, hpage, heq⟩ := Option.map_eq_some_iff.mp h
          cases heq
          exact .page hpage
      | cons docs' rest =>
          rw [follow] at h
          obtain ⟨page, hpage, h⟩ := Option.bind_eq_some_iff.mp h
          obtain ⟨b, hb, h⟩ := Option.bind_eq_some_iff.mp h
          obtain ⟨⟨pages', last'⟩, hrest, heq⟩ := Option.bind_eq_some_iff.mp h
          cases heq
          exact .more hpage hb (ih hrest)

/-! ### A walk over one list -/

variable {filter : Conditions F δ} {keys : List (SortField F)} {pageSize : ℕ}

/-- `paginate` with no plugin in between. -/
def Paginates (pos : δ → Position V) (filter : Conditions F δ) (keys : List (SortField F))
    (pageSize : ℕ) (cursor : Option (Position V)) (docs : List δ)
    (page : PaginatedResponse δ V) : Prop :=
  paginate pos .empty docs filter keys cursor pageSize = page

theorem Paginates.turn {cursor : Option (Position V)} {docs : List δ}
    {page : PaginatedResponse δ V} (h : Paginates pos filter keys pageSize cursor docs page)
    (hkeys : OneDirection keys) (hdocs : Placed keys pos docs) (hsize : 1 ≤ pageSize) :
    Turn keys pos cursor
      { matching := docs.filter filter.holds, items := page.items, next := page.nextCursor } := by
  obtain rfl := h
  have hturn : Turn keys pos cursor
      { matching := docs.filter fun d => filter.holds d && Conditions.empty.holds d
        items := (paginate pos .empty docs filter keys cursor pageSize).items
        next := (paginate pos .empty docs filter keys cursor pageSize).nextCursor } :=
    paginate_turn hkeys hdocs hsize (separate_empty filter docs)
  simpa using hturn

/-- No two documents of a collection share the value of the field. -/
def UniqueBy (pos : δ → Position V) (k : SortField F) (docs : List δ) : Prop :=
  docs.Nodup ∧ ∀ x ∈ docs, ∀ y ∈ docs, pos x k.field = pos y k.field → x = y

/-- Documents that agree on the field agree on every sort key, whenever they are read. -/
def KeysNeverChange (pos : δ → Position V) (keys : List (SortField F)) (k : SortField F)
    (snapshots : List (List δ)) : Prop :=
  ∀ docs ∈ snapshots, ∀ docs' ∈ snapshots, ∀ x ∈ docs, ∀ y ∈ docs',
    pos x k.field = pos y k.field → ∀ j ∈ keys, pos x j.field = pos y j.field

omit [DecidableEq F] [∀ f, LinearOrder (V f)] in
theorem UniqueBy.placed {k : SortField F} {docs : List δ} (h : UniqueBy pos k docs)
    (hk : k ∈ keys) : Placed keys pos docs :=
  ⟨h.1, fun x hx y hy hall => h.2 x hx y hy (hall k hk)⟩

/-- The matching documents that the walk has not reached. -/
def remaining (pos : δ → Position V) (filter : Conditions F δ) (keys : List (SortField F))
    (cursor : Option (Position V)) (docs : List δ) : List δ :=
  (docs.filter filter.holds).filter fun d => decide (After keys cursor (pos d))

omit [DecidableEq F] in
theorem remaining_lt {cursor : Option (Position V)} {docs : List δ} {x : δ}
    (hx : x ∈ remaining pos filter keys cursor docs) :
    (remaining pos filter keys (some (pos x)) docs).length <
      (remaining pos filter keys cursor docs).length := by
  have hxafter : After keys cursor (pos x) := by simpa using (List.mem_filter.mp hx).2
  have hsub : remaining pos filter keys (some (pos x)) docs =
      (remaining pos filter keys cursor docs).filter
        fun d => decide (After keys (some (pos x)) (pos d)) := by
    rw [remaining, remaining]
    conv_rhs => rw [List.filter_filter]
    congr 1
    funext d
    by_cases hd : After keys (some (pos x)) (pos d)
    · have hcursor : After keys cursor (pos d) := by
        intro c hc
        exact (hxafter c hc).trans (after_some.mp hd)
      simp [hd, hcursor]
    · simp [hd]
  rw [hsub, List.length_filter_lt_length_iff_exists]
  refine ⟨x, hx, ?_⟩
  simp [precedes_irrefl]

/-- Over an unchanging collection the walk comes to an end. -/
theorem exists_follows (hkeys : OneDirection keys) (hsize : 1 ≤ pageSize)
    {docs : List δ} (hplaced : Placed keys pos docs) (cursor : Option (Position V)) :
    ∃ pages, Follows (Paginates pos filter keys pageSize) cursor (List.replicate pages.length docs) pages
      none := by
  induction hn : (remaining pos filter keys cursor docs).length
    using Nat.strong_induction_on generalizing cursor with
  | _ n ih =>
      have hturn : Turn keys pos cursor
          { matching := docs.filter filter.holds
            items := (paginate pos .empty docs filter keys cursor pageSize).items
            next := (paginate pos .empty docs filter keys cursor pageSize).nextCursor } :=
        Paginates.turn rfl hkeys hplaced hsize
      have hpage : Follows (Paginates pos filter keys pageSize) cursor [docs]
          [paginate pos .empty docs filter keys cursor pageSize]
          (paginate pos .empty docs filter keys cursor pageSize).nextCursor := .page rfl
      cases hnext : (paginate pos .empty docs filter keys cursor pageSize).nextCursor with
      | none =>
          rw [hnext] at hpage
          exact ⟨[_], hpage⟩
      | some b =>
          obtain ⟨x, hx, rfl⟩ := paginate_items_nonempty hnext
          obtain ⟨hxmem, hxafter, -⟩ := (hturn.mem x).mp hx
          have hxleft : x ∈ remaining pos filter keys cursor docs :=
            List.mem_filter.mpr ⟨hxmem, by simpa using hxafter⟩
          obtain ⟨pages, hpages⟩ := ih _ (hn ▸ remaining_lt hxleft) (some (pos x)) rfl
          exact ⟨_ :: pages, .more rfl hnext hpages⟩

/-- Following the cursor to its end over an unchanging collection gives the
matching documents, each once, in order; and while documents come, go and change
in anything but their sort keys, none is given twice, and a walk that has ended
has given every document that matched at each of its fetches. -/
theorem pagination_walk (pos : δ → Position V) (filter : Conditions F δ)
    (keys : List (SortField F)) (pageSize : ℕ) (k : SortField F) (hk : keys.getLast? = some k)
    (hkeys : OneDirection keys) (hsize : 1 ≤ pageSize) :
    (∀ docs : List δ, UniqueBy pos k docs →
      ∃ pages, Follows (Paginates pos filter keys pageSize) none
          (List.replicate pages.length docs) pages none ∧
        (pages.flatMap fun page => page.items).Perm (docs.filter filter.holds) ∧
        (pages.flatMap fun page => page.items).Pairwise
          fun x y => Precedes keys (pos x) (pos y)) ∧
    ∀ snapshots pages next, Follows (Paginates pos filter keys pageSize) none snapshots pages next →
      (∀ docs ∈ snapshots, UniqueBy pos k docs) → KeysNeverChange pos keys k snapshots →
      ∀ v : V k.field,
        times (fun d => pos d k.field) v (pages.flatMap fun page => page.items) ≤ 1 ∧
        (next = none →
          (∀ docs ∈ snapshots, ∃ x ∈ docs, filter.holds x = true ∧ pos x k.field = v) →
          times (fun d => pos d k.field) v (pages.flatMap fun page => page.items) = 1) := by
  have hkmem : k ∈ keys := List.mem_of_getLast? hk
  constructor
  · intro docs hdocs
    have hplaced := hdocs.placed hkmem
    obtain ⟨pages, hpages⟩ : ∃ pages, Follows (Paginates pos filter keys pageSize) none
        (List.replicate pages.length docs) pages none := exists_follows hkeys hsize hplaced none
    refine ⟨pages, hpages, ?_⟩
    have hwalk : Walk keys pos none
        (fetches filter.holds (List.replicate pages.length docs) pages) none :=
      hpages.walk fun _ _ d hd hpage =>
        hpage.turn hkeys ((List.eq_of_mem_replicate hd) ▸ hplaced) hsize
    have hsame : ∀ f ∈ fetches filter.holds (List.replicate pages.length docs) pages,
        f.matching = docs.filter filter.holds := by
      intro f hf
      obtain ⟨d, hd, hmatching⟩ := mem_fetches hf
      rw [hmatching, List.eq_of_mem_replicate hd]
    obtain ⟨hsorted, hmem⟩ := hwalk.shown_sorted hsame
    rw [hpages.shown_eq] at hsorted hmem
    have hnodup : (pages.flatMap fun page => page.items).Nodup := by
      refine hsorted.imp ?_
      rintro x y hxy rfl
      exact precedes_irrefl keys _ hxy
    refine ⟨(List.perm_ext_iff_of_nodup hnodup (hdocs.1.filter _)).mpr fun x => ?_, hsorted⟩
    simpa using hmem x
  · intro snapshots pages next hfollows hunique hkept v
    have hwalk : Walk keys pos none (fetches filter.holds snapshots pages) next :=
      hfollows.walk fun _ _ d hd hpage => hpage.turn hkeys ((hunique d hd).placed hkmem) hsize
    have hdistinct : ∀ f ∈ fetches filter.holds snapshots pages,
        f.Distinct fun d => pos d k.field := by
      intro f hf x hx y hy heq
      obtain ⟨docs, hdocs, hmatching⟩ := mem_fetches hf
      rw [hmatching] at hx hy
      exact (hunique docs hdocs).2 x (List.mem_filter.mp hx).1 y (List.mem_filter.mp hy).1 heq
    have hsettled : ∀ docs ∈ snapshots, ∀ x ∈ docs,
        Settled keys pos (fun d => pos d k.field) (pos x k.field) (pos x)
          (fetches filter.holds snapshots pages) := by
      intro docs hdocs x hx f hf y hy hyv
      obtain ⟨docs', hdocs', hmatching⟩ := mem_fetches hf
      rw [hmatching] at hy
      exact hkept docs' hdocs' docs hdocs y (List.mem_filter.mp hy).1 x hx hyv
    rw [← hfollows.shown_eq (p := filter.holds)]
    constructor
    · refine hwalk.times_le_one hdistinct (fun f hf x hx => ?_) v
      obtain ⟨docs, hdocs, hmatching⟩ := mem_fetches hf
      rw [hmatching] at hx
      exact hsettled docs hdocs x (List.mem_filter.mp hx).1
    · rintro rfl hthroughout
      obtain ⟨docs, hdocs⟩ := hfollows.nonempty
      obtain ⟨x, hx, -, rfl⟩ := hthroughout docs hdocs
      refine hwalk.once_of_settled hdistinct ?_ (hsettled docs hdocs x hx)
      intro f hf
      obtain ⟨docs', hdocs', hmatching⟩ := mem_fetches hf
      obtain ⟨y, hy, hyholds, hyv⟩ := hthroughout docs' hdocs'
      exact ⟨y, hmatching ▸ List.mem_filter.mpr ⟨hy, hyholds⟩, hyv⟩

end paginate

/-! ### Newest first -/

/-- What most lists are sorted by. -/
inductive TimelineField where
  | createdAt | id
deriving DecidableEq, Repr

/-- A row of such a list: when it was created, and its identifier. -/
abbrev TimelineRow : Type := ℕ × ℕ

def TimelineRow.position (row : TimelineRow) : Position fun _ : TimelineField => ℕ
  | .createdAt => row.1
  | .id => row.2

def newestFirst : List (SortField TimelineField) := [⟨.createdAt, .desc⟩, ⟨.id, .desc⟩]

theorem pagination_walk_newestFirst :
    ∃ pages, Follows (Paginates TimelineRow.position .empty newestFirst 2) none
        (List.replicate pages.length [(1, 1), (3, 2), (3, 3)]) pages none ∧
      (pages.flatMap fun page => page.items).Perm
        (List.filter (Conditions.holds (F := TimelineField) .empty) [(1, 1), (3, 2), (3, 3)]) ∧
      (pages.flatMap fun page => page.items).Pairwise
        fun x y => Precedes newestFirst x.position y.position :=
  (pagination_walk TimelineRow.position .empty newestFirst 2 ⟨.id, .desc⟩ rfl (by decide)
    (by decide)).1 [(1, 1), (3, 2), (3, 3)] ⟨by decide, by decide⟩

/-- Two sort keys that name one field: the later replaces the earlier in the sort,
the keyset disjunction asks for either side of the cursor, and the walk goes
back to the rows it has shown. -/
theorem pagination_repeats :
    UniqueBy TimelineRow.position ⟨.id, .desc⟩ [(1, 1), (1, 2), (1, 3)] ∧
    ∃ pages next, Follows (Paginates TimelineRow.position .empty [⟨.id, .asc⟩, ⟨.id, .desc⟩] 1)
        none [[(1, 1), (1, 2), (1, 3)], [(1, 1), (1, 2), (1, 3)], [(1, 1), (1, 2), (1, 3)]]
        pages next ∧
      times (fun d => TimelineRow.position d .id) 3 (pages.flatMap fun page => page.items) = 2 := by
  refine ⟨⟨by decide, by decide⟩, _, _, .more rfl rfl (.more rfl rfl (.page rfl)), ?_⟩
  decide

end CiroFuel
