import Mathlib.Data.List.TakeWhile
import Mathlib.Tactic.SplitIfs

/-!
# Paths

The path functions of a POSIX system on texts. A path is taken apart at the slashes; an
empty part or a dot says nothing, and two dots take back the part before them. What is
left of an absolute path is a list of proper names, which no longer leads anywhere but
down.
-/
namespace CiroFuel.Encoding.Paths

/-! ### Pieces of a text -/

/-- The pieces between the separators, with what has been read of the first. -/
def splitFrom (sep : Char) (piece : List Char) : List Char → List (List Char)
  | [] => [piece]
  | c :: cs => if c = sep then piece :: splitFrom sep [] cs else splitFrom sep (piece ++ [c]) cs

def split (sep : Char) (cs : List Char) : List (List Char) := splitFrom sep [] cs

def join (sep : Char) : List (List Char) → List Char
  | [] => []
  | [p] => p
  | p :: q :: ps => p ++ sep :: join sep (q :: ps)

section pieces
variable {sep : Char} {p cs cs' : List Char} {ps qs : List (List Char)}

theorem splitFrom_append (h : sep ∉ p) (piece cs : List Char) :
    splitFrom sep piece (p ++ cs) = splitFrom sep (piece ++ p) cs := by
  induction p generalizing piece with
  | nil => simp
  | cons c p ih =>
      rw [List.mem_cons, not_or] at h
      rw [List.cons_append, splitFrom, if_neg (Ne.symm h.1), ih h.2, List.append_assoc,
        List.singleton_append]

theorem splitFrom_sep (piece cs : List Char) :
    splitFrom sep piece (sep :: cs) = piece :: split sep cs := by
  rw [splitFrom, if_pos rfl, split]

theorem split_piece (h : sep ∉ p) : split sep p = [p] := by
  have hsplit := splitFrom_append h [] []
  rw [List.append_nil] at hsplit
  rw [split, hsplit]
  rfl

theorem split_cons (h : sep ∉ p) (cs : List Char) :
    split sep (p ++ sep :: cs) = p :: split sep cs := by
  rw [split, splitFrom_append h, List.nil_append, splitFrom_sep]

theorem splitFrom_append_sep (piece cs cs' : List Char) :
    splitFrom sep piece (cs ++ sep :: cs') = splitFrom sep piece cs ++ split sep cs' := by
  induction cs generalizing piece with
  | nil => rw [List.nil_append, splitFrom_sep]; rfl
  | cons c cs ih =>
      rw [List.cons_append, splitFrom, splitFrom]
      split_ifs
      · rw [ih, List.cons_append]
      · rw [ih]

theorem split_append (cs cs' : List Char) :
    split sep (cs ++ sep :: cs') = split sep cs ++ split sep cs' :=
  splitFrom_append_sep [] cs cs'

/-- Pieces without separators are what their text is split into. -/
theorem split_join (h : ∀ p ∈ ps, sep ∉ p) (hne : ps ≠ []) : split sep (join sep ps) = ps := by
  induction ps with
  | nil => exact absurd rfl hne
  | cons p ps ih =>
      have hp := h p List.mem_cons_self
      cases ps with
      | nil => exact split_piece hp
      | cons q ps =>
          rw [join, split_cons hp, ih (fun p hp => h p (List.mem_cons_of_mem _ hp)) (by simp)]

theorem sep_notMem_splitFrom {piece : List Char} (h : sep ∉ piece) :
    ∀ p ∈ splitFrom sep piece cs, sep ∉ p := by
  induction cs generalizing piece with
  | nil =>
      intro p hp
      obtain rfl := List.mem_singleton.mp hp
      exact h
  | cons c cs ih =>
      rw [splitFrom]
      split_ifs with hc
      · intro p hp
        rcases List.mem_cons.mp hp with rfl | hp
        · exact h
        · exact ih List.not_mem_nil p hp
      · refine ih ?_
        rw [List.mem_append, List.mem_singleton, not_or]
        exact ⟨h, Ne.symm hc⟩

theorem sep_notMem_split : ∀ p ∈ split sep cs, sep ∉ p := sep_notMem_splitFrom List.not_mem_nil

theorem split_ne_nil (cs : List Char) : split sep cs ≠ [] := by
  have hfrom : ∀ piece : List Char, splitFrom sep piece cs ≠ [] := by
    induction cs with
    | nil => exact fun piece => List.cons_ne_nil _ _
    | cons c cs ih =>
        intro piece
        rw [splitFrom]
        split_ifs
        · exact List.cons_ne_nil _ _
        · exact ih _
  exact hfrom []

theorem join_cons (hne : ps ≠ []) : join sep (p :: ps) = p ++ sep :: join sep ps := by
  cases ps with
  | nil => exact absurd rfl hne
  | cons q ps => rfl

theorem join_append (hps : ps ≠ []) (hqs : qs ≠ []) :
    join sep (ps ++ qs) = join sep ps ++ sep :: join sep qs := by
  induction ps with
  | nil => exact absurd rfl hps
  | cons p ps ih =>
      cases ps with
      | nil => rw [List.singleton_append, join_cons hqs]; rfl
      | cons q ps =>
          have hne : q :: ps ≠ [] := List.cons_ne_nil _ _
          have hne' : q :: ps ++ qs ≠ [] := List.cons_ne_nil _ _
          rw [List.cons_append, join_cons hne', ih hne, join_cons hne, List.append_assoc,
            List.cons_append]

end pieces

/-! ### Names -/

def dot : List Char := ['.']

def dots : List Char := ['.', '.']

/-- What stands between the slashes, other than the dots. -/
structure Proper (s : List Char) : Prop where
  nonempty : s ≠ []
  noSlash : '/' ∉ s
  notDot : s ≠ dot
  notDots : s ≠ dots

abbrev Segment := {s : List Char // Proper s}

/-- An absolute path with nothing left to take back. -/
structure Absolute where
  segments : List Segment

def Absolute.text (a : Absolute) : List Char := '/' :: join '/' (a.segments.map Subtype.val)

/-- What lies below a path. -/
def Absolute.append (a : Absolute) (below : List Segment) : Absolute := ⟨a.segments ++ below⟩

/-! ### Taking back -/

/-- One part after those that are kept; `above` says whether two dots may lead out. -/
def push (above : Bool) (stack : List (List Char)) (s : List Char) : List (List Char) :=
  if s = [] ∨ s = dot then stack
  else if s = dots then
    match stack.getLast? with
    | some last => if last = dots then (if above then stack ++ [dots] else stack) else stack.dropLast
    | none => if above then [dots] else []
  else stack ++ [s]

def normalizeString (above : Bool) (path : List Char) : List Char :=
  join '/' ((split '/' path).foldl (push above) [])

def isAbsolute (path : List Char) : Bool := path.head? = some '/'

def normalize (path : List Char) : List Char :=
  if path = [] then dot
  else
    let trailing := path.getLast? = some '/'
    let kept := normalizeString (!isAbsolute path) path
    if kept = [] then if isAbsolute path then ['/'] else if trailing then dot ++ ['/'] else dot
    else
      let kept := if trailing then kept ++ ['/'] else kept
      if isAbsolute path then '/' :: kept else kept

/-- `join(...paths)` -/
def joinPaths (paths : List (List Char)) : List Char :=
  let given := paths.filter (· ≠ [])
  if given = [] then dot else normalize (join '/' given)

/-- Puts paths in front, the last of them first, until one is absolute. -/
def prepend : List (List Char) → List Char → List Char
  | [], resolved => resolved
  | p :: ps, resolved =>
      if p = [] then prepend ps resolved
      else if isAbsolute p then p ++ '/' :: resolved
      else prepend ps (p ++ '/' :: resolved)

/-- `resolve(...paths)`, with the directory that the process runs in. -/
def resolve (cwd : List Char) (paths : List (List Char)) : List Char :=
  let resolved := prepend (paths.reverse ++ [cwd]) []
  let kept := normalizeString (!isAbsolute resolved) resolved
  if isAbsolute resolved then '/' :: kept else if kept = [] then dot else kept

/-- The last part of a path, without the slashes behind it. -/
def basename (path : List Char) : List Char :=
  ((path.reverse.dropWhile (· = '/')).takeWhile (· ≠ '/')).reverse

/-- The last part from its last dot on, unless nothing or a single dot comes before that. -/
def extname (path : List Char) : List Char :=
  let base := basename path
  if base = dots then []
  else
    match base.reverse.dropWhile (· ≠ '.') with
    | '.' :: _ :: _ => (base.reverse.takeWhile (· ≠ '.') ++ ['.']).reverse
    | _ => []

/-! ### Proper names stay -/

section normal
variable {above : Bool} {path s : List Char} {stack ps : List (List Char)} {a : Absolute}
  {names : List Segment}

theorem push_proper (h : Proper s) (stack : List (List Char)) :
    push above stack s = stack ++ [s] := by
  rw [push, if_neg (by simp [h.nonempty, h.notDot]), if_neg h.notDots]

theorem push_nil (above : Bool) (stack : List (List Char)) : push above stack [] = stack := by
  rw [push, if_pos (.inl rfl)]

theorem foldl_push (h : ∀ p ∈ ps, Proper p) (stack : List (List Char)) :
    ps.foldl (push above) stack = stack ++ ps := by
  induction ps generalizing stack with
  | nil => simp
  | cons p ps ih =>
      rw [List.foldl_cons, push_proper (h p List.mem_cons_self),
        ih fun p hp => h p (List.mem_cons_of_mem _ hp), List.append_assoc, List.singleton_append]

/-- Where two dots cannot lead out, only proper names are kept. -/
theorem proper_push (hstack : ∀ p ∈ stack, Proper p) (hs : '/' ∉ s) :
    ∀ p ∈ push false stack s, Proper p := by
  by_cases hskip : s = [] ∨ s = dot
  · rw [push, if_pos hskip]
    exact hstack
  by_cases hdots : s = dots
  · rw [push, if_neg hskip, if_pos hdots]
    cases hlast : stack.getLast? with
    | none => exact fun p hp => absurd hp List.not_mem_nil
    | some last =>
        have hproper : last ≠ dots := (hstack last (List.mem_of_getLast? hlast)).notDots
        simp only [if_neg hproper]
        exact fun p hp => hstack p ((List.dropLast_sublist _).subset hp)
  · rw [push, if_neg hskip, if_neg hdots]
    rw [not_or] at hskip
    intro p hp
    rcases List.mem_append.mp hp with hp | hp
    · exact hstack p hp
    · obtain rfl := List.mem_singleton.mp hp
      exact ⟨hskip.1, hs, hskip.2, hdots⟩

theorem proper_foldl (hstack : ∀ p ∈ stack, Proper p) (hps : ∀ p ∈ ps, '/' ∉ p) :
    ∀ p ∈ ps.foldl (push false) stack, Proper p := by
  induction ps generalizing stack with
  | nil => exact hstack
  | cons p ps ih =>
      exact ih (proper_push hstack (hps p List.mem_cons_self))
        fun p hp => hps p (List.mem_cons_of_mem _ hp)

/-- The names of proper parts. -/
theorem exists_segments (h : ∀ p ∈ ps, Proper p) : ∃ names : List Segment, names.map Subtype.val = ps :=
  ⟨ps.attach.map fun p => ⟨p.1, h p.1 p.2⟩, by simp [Function.comp_def]⟩

theorem proper_names (names : List Segment) : ∀ p ∈ names.map Subtype.val, Proper p := by
  intro p hp
  obtain ⟨s, -, rfl⟩ := List.mem_map.mp hp
  exact s.2

theorem isAbsolute_cons (cs : List Char) : isAbsolute ('/' :: cs) = true := by
  simp [isAbsolute]

theorem isAbsolute_prepend (h : isAbsolute s = true) (paths : List (List Char))
    (resolved : List Char) : isAbsolute (prepend (paths ++ [s]) resolved) = true := by
  have happend : ∀ {p : List Char}, isAbsolute p = true → ∀ cs, isAbsolute (p ++ cs) = true := by
    intro p hp cs
    cases p with
    | nil => cases hp
    | cons c p => exact hp
  have hne : s ≠ [] := by
    rintro rfl
    cases h
  induction paths generalizing resolved with
  | nil =>
      rw [List.nil_append, prepend, if_neg hne, if_pos h]
      exact happend h _
  | cons p ps ih =>
      rw [List.cons_append, prepend]
      split_ifs with hnil habsolute
      · exact ih resolved
      · exact happend habsolute _
      · exact ih _

/-- A path resolved from an absolute directory has nothing left to take back. -/
theorem resolve_absolute {cwd : List Char} (h : isAbsolute cwd = true) (paths : List (List Char)) :
    ∃ a : Absolute, resolve cwd paths = a.text := by
  have habsolute := isAbsolute_prepend h paths.reverse []
  have hproper : ∀ p ∈ (split '/' (prepend (paths.reverse ++ [cwd]) [])).foldl (push false) [],
      Proper p := proper_foldl (fun p hp => absurd hp List.not_mem_nil) sep_notMem_split
  obtain ⟨names, hnames⟩ := exists_segments hproper
  refine ⟨⟨names⟩, ?_⟩
  simp only [resolve, habsolute, if_true, Bool.not_true, normalizeString, Absolute.text, hnames]

/-! ### Reading an absolute path -/

theorem split_text (a : Absolute) : split '/' a.text =
    [] :: if a.segments = [] then [[]] else a.segments.map Subtype.val := by
  have hfirst : split '/' a.text = [] :: split '/' (join '/' (a.segments.map Subtype.val)) :=
    splitFrom_sep [] _
  rw [hfirst]
  split_ifs with hnil
  · rw [hnil]
    rfl
  · rw [split_join (fun p hp => (proper_names a.segments p hp).noSlash) (mt List.map_eq_nil_iff.mp hnil)]

theorem map_val_injective {names names' : List Segment}
    (h : names.map Subtype.val = names'.map Subtype.val) : names = names' :=
  (List.map_inj_right fun _ _ => Subtype.ext).mp h

theorem Absolute.text_injective {b : Absolute} (h : a.text = b.text) :
    a.segments = b.segments := by
  have hsplit := congrArg (split '/') h
  rw [split_text, split_text, List.cons.injEq] at hsplit
  have hnil : ∀ names : List Segment, names ≠ [] → names.map Subtype.val ≠ [[]] := by
    intro names _ heq
    exact (proper_names names [] (heq ▸ List.mem_singleton_self [])).nonempty rfl
  split_ifs at hsplit with has hbs hbs
  · rw [has, hbs]
  · exact absurd hsplit.2.symm (hnil _ hbs)
  · exact absurd hsplit.2 (hnil _ has)
  · exact map_val_injective hsplit.2

/-- A path that starts with the text of another and a slash lies below it. -/
theorem below_of_prefix {b : Absolute} (h : a.text ++ ['/'] <+: b.text) :
    ∃ below, b = a.append below := by
  obtain ⟨rest, hrest⟩ := h
  have hsplit : split '/' b.text = split '/' a.text ++ split '/' rest := by
    rw [← hrest, List.append_assoc, List.singleton_append, split_append]
  obtain ⟨as⟩ := a
  obtain ⟨bs⟩ := b
  by_cases has : as = []
  · subst has
    exact ⟨bs, rfl⟩
  · rw [split_text, split_text, if_neg has, List.cons_append, List.cons.injEq] at hsplit
    by_cases hbs : bs = []
    · rw [if_pos hbs] at hsplit
      have hlength := congrArg List.length hsplit.2
      obtain ⟨s, as, rfl⟩ := List.exists_cons_of_ne_nil has
      have hpos : 0 < (split '/' rest).length := List.length_pos_iff.mpr (split_ne_nil rest)
      simp only [List.length_append, List.length_map, List.length_cons, List.length_nil] at hlength
      omega
    · rw [if_neg hbs] at hsplit
      have hproper : ∀ p ∈ (bs.map Subtype.val).drop as.length, Proper p :=
        fun p hp => proper_names bs p (List.mem_of_mem_drop hp)
      obtain ⟨below, hbelow⟩ := exists_segments hproper
      refine ⟨below, congrArg Absolute.mk (map_val_injective ?_)⟩
      rw [List.map_append, hbelow, hsplit.2, List.drop_left' (by rw [List.length_map])]

theorem join_ne_nil {p : List Char} (hp : p ≠ []) (ps : List (List Char)) :
    join '/' (p :: ps) ≠ [] := by
  cases ps with
  | nil => exact hp
  | cons q ps => exact List.append_ne_nil_of_right_ne_nil _ (List.cons_ne_nil _ _)

theorem isAbsolute_names (names : List Segment) :
    isAbsolute (join '/' (names.map Subtype.val)) = false := by
  cases names with
  | nil => rfl
  | cons s names =>
      obtain ⟨c, cs, hs⟩ := List.exists_cons_of_ne_nil s.2.nonempty
      have hc : c ≠ '/' := by
        rintro rfl
        exact s.2.noSlash (hs ▸ List.mem_cons_self)
      cases names with
      | nil => simpa [join, isAbsolute, hs] using hc
      | cons t names => simpa [join, isAbsolute, hs] using hc

theorem foldl_text (a : Absolute) : (split '/' a.text).foldl (push above) [] =
    a.segments.map Subtype.val := by
  rw [split_text, List.foldl_cons, push_nil]
  split_ifs with hnil
  · rw [hnil, List.foldl_cons, push_nil]
    rfl
  · rw [foldl_push (proper_names a.segments), List.nil_append]

/-- What a directory is joined with lies below it. -/
theorem resolve_below (cwd : List Char) (a : Absolute) (hne : names ≠ []) :
    resolve cwd [a.text, join '/' (names.map Subtype.val)] = (a.append names).text := by
  have hpath : join '/' (names.map Subtype.val) ≠ [] := by
    obtain ⟨s, names, rfl⟩ := List.exists_cons_of_ne_nil hne
    exact join_ne_nil s.2.nonempty _
  have hprepend : prepend ([a.text, join '/' (names.map Subtype.val)].reverse ++ [cwd]) [] =
      a.text ++ '/' :: (join '/' (names.map Subtype.val) ++ ['/']) := by
    have htext : a.text ≠ [] := List.cons_ne_nil _ _
    have habsolute : isAbsolute a.text = true := isAbsolute_cons _
    simp only [List.reverse_cons, List.reverse_nil, List.nil_append, List.cons_append, prepend,
      if_neg hpath, isAbsolute_names, Bool.false_eq_true, if_false, if_neg htext, habsolute, if_true]
  have hsplit : split '/' (a.text ++ '/' :: (join '/' (names.map Subtype.val) ++ ['/'])) =
      split '/' a.text ++ (names.map Subtype.val ++ [[]]) := by
    rw [split_append, split_append,
      split_join (fun p hp => (proper_names names p hp).noSlash) (mt List.map_eq_nil_iff.mp hne)]
    rfl
  have hkept : normalizeString false (a.text ++ '/' :: (join '/' (names.map Subtype.val) ++ ['/'])) =
      join '/' ((a.segments ++ names).map Subtype.val) := by
    rw [normalizeString, hsplit, List.foldl_append, foldl_text, List.foldl_append,
      foldl_push (proper_names names), List.foldl_cons, push_nil, List.foldl_nil, List.map_append]
  have habsolute : isAbsolute (a.text ++ '/' :: (join '/' (names.map Subtype.val) ++ ['/'])) = true :=
    isAbsolute_cons _
  simp only [resolve, hprepend, habsolute, if_true, Bool.not_true, hkept]
  rfl

theorem getLast?_names (hne : names ≠ []) :
    (join '/' (names.map Subtype.val)).getLast? ≠ some '/' := by
  have hone : ∀ s : Segment, s.1.getLast? ≠ some '/' := fun s hs =>
    s.2.noSlash (List.mem_of_getLast? hs)
  induction names with
  | nil => exact absurd rfl hne
  | cons s names ih =>
      cases names with
      | nil => exact hone s
      | cons t names =>
          have hrest := ih (List.cons_ne_nil _ _)
          have hjoin : join '/' ((t :: names).map Subtype.val) ≠ [] := join_ne_nil t.2.nonempty _
          have htail : (t :: names).map Subtype.val ≠ [] := List.cons_ne_nil _ _
          rw [List.map_cons, join_cons htail, List.getLast?_append,
            List.getLast?_cons_of_ne_nil hjoin, List.getLast?_eq_some_getLast hjoin, Option.some_or,
            ← List.getLast?_eq_some_getLast hjoin]
          exact hrest

/-- A relative path of proper names is normal. -/
theorem normalize_names (hne : names ≠ []) :
    normalize (join '/' (names.map Subtype.val)) = join '/' (names.map Subtype.val) := by
  have hpath : join '/' (names.map Subtype.val) ≠ [] := by
    obtain ⟨s, names, rfl⟩ := List.exists_cons_of_ne_nil hne
    exact join_ne_nil s.2.nonempty _
  have hkept : normalizeString true (join '/' (names.map Subtype.val)) =
      join '/' (names.map Subtype.val) := by
    rw [normalizeString,
      split_join (fun p hp => (proper_names names p hp).noSlash) (mt List.map_eq_nil_iff.mp hne),
      foldl_push (proper_names names), List.nil_append]
  simp only [normalize, if_neg hpath, isAbsolute_names, Bool.not_false, hkept,
    if_neg (getLast?_names hne), Bool.false_eq_true, if_false]

end normal

/-! ### Extensions -/

/-- An extension is empty or a dot and what follows the last dot of the last name. -/
theorem slash_notMem_extname (path : List Char) : '/' ∉ extname path := by
  have hbase : ∀ c ∈ (basename path).reverse, c ≠ '/' := by
    intro c hc
    rw [basename, List.reverse_reverse] at hc
    simpa using List.mem_takeWhile_imp hc
  unfold extname
  dsimp only
  split_ifs
  · exact List.not_mem_nil
  · split
    · rw [List.mem_reverse, List.mem_append, not_or]
      refine ⟨fun hmem => ?_, by decide⟩
      exact hbase '/' ((List.takeWhile_sublist _).subset hmem) rfl
    · exact List.not_mem_nil

end CiroFuel.Encoding.Paths
