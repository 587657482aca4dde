import CiroFuel.Encoding.Paths
import CiroFuel.Numerals
import CiroFuel.Schemas

/-!
# Where a file lies

The key of a file is made by the server: the directory of the storage, the company, and a
random name with the extension that the client's own name had. Before a key becomes a
path, what leads out of the root is taken off its front, and what still leads out is
refused.
-/
namespace CiroFuel.Storage
open Encoding.Paths Numerals

def STORAGE_DIR : List Char := ['s', 'y', 's', '_', 's', 't', 'o', 'r', 'g', 'e']

/-- `randomUUID()`: thirty-six hexadecimal digits and hyphens. -/
structure Uuid where
  text : List Char
  length : text.length = 36
  plain (c : Char) : c ∈ text → c ≠ '/' ∧ c ≠ '.'

/-- `String(id)` -/
def idText (id : Id) : List Char := digitsText (digits 16 24 id)

def filename (uuid : Uuid) (originalName : List Char) : List Char :=
  uuid.text ++ extname originalName

def buildStorageKey (storageDir companyId filename : List Char) : List Char :=
  joinPaths [storageDir, companyId, filename]

/-- The key of an upload. -/
def storageKey (companyId : Id) (uuid : Uuid) (originalName : List Char) : List Char :=
  buildStorageKey STORAGE_DIR (idText companyId) (filename uuid originalName)

/-- Where the process runs, and the directory it is configured with. -/
structure Config where
  cwd : List Char
  dir : List Char
  absolute : isAbsolute cwd = true

def Config.root (cfg : Config) : List Char := resolve cfg.cwd [cfg.dir]

/-- `replace(/^(\.\.(\/|\\|$))+/, '')` -/
def stripAbove : List Char → List Char
  | ['.', '.'] => []
  | '.' :: '.' :: '/' :: cs => stripAbove cs
  | '.' :: '.' :: '\\' :: cs => stripAbove cs
  | cs => cs

def absolutePathFor (cfg : Config) (key : List Char) : Except String (List Char) :=
  let absolute := resolve cfg.cwd [cfg.root, stripAbove (normalize key)]
  if absolute ≠ cfg.root ∧ ¬cfg.root ++ ['/'] <+: absolute then .error "Invalid storage key"
  else .ok absolute

/-! ### Nothing leads out of the root -/

/-- The root as a path. -/
structure Rooted (cfg : Config) where
  root : Absolute
  text : cfg.root = root.text

/-- Whatever the key, a path that is given lies below the root. -/
theorem absolutePathFor_below {cfg : Config} (r : Rooted cfg) {key path : List Char}
    (h : absolutePathFor cfg key = .ok path) : ∃ below, path = (r.root.append below).text := by
  obtain ⟨b, hb⟩ := resolve_absolute cfg.absolute [cfg.root, stripAbove (normalize key)]
  simp only [absolutePathFor] at h
  split_ifs at h with houtside
  obtain rfl := Except.ok.inj h
  rw [not_and_or, not_not, not_not, hb, r.text] at houtside
  rw [hb]
  rcases houtside with heq | hprefix
  · refine ⟨[], ?_⟩
    rw [heq, Absolute.append, List.append_nil]
  · obtain ⟨below, rfl⟩ := below_of_prefix hprefix
    exact ⟨below, rfl⟩

/-! ### The key of an upload -/

theorem proper_of_plain {s : List Char} (hne : s ≠ []) (h : ∀ c ∈ s, c ≠ '/' ∧ c ≠ '.') :
    Proper s where
  nonempty := hne
  noSlash hmem := (h '/' hmem).1 rfl
  notDot := by
    rintro rfl
    exact (h '.' (by decide)).2 rfl
  notDots := by
    rintro rfl
    exact (h '.' (by decide)).2 rfl

theorem digitChar_plain : ∀ d < 16, Nat.digitChar d ≠ '/' ∧ Nat.digitChar d ≠ '.' := by decide

theorem proper_idText (id : Id) : Proper (idText id) := by
  refine proper_of_plain ?_ fun c hc => ?_
  · rw [idText, digitsText, ne_eq, List.map_eq_nil_iff, ← List.length_eq_zero_iff, length_digits]
    decide
  · obtain ⟨d, hd, rfl⟩ := List.mem_map.mp hc
    exact digitChar_plain d (digits_lt (by decide) hd)

theorem proper_filename (uuid : Uuid) (originalName : List Char) :
    Proper (filename uuid originalName) := by
  have hlength : 36 ≤ (filename uuid originalName).length := by
    rw [filename, List.length_append, uuid.length]
    omega
  have hshort : ∀ s : List Char, s.length < 36 → filename uuid originalName ≠ s := by
    rintro s hs rfl
    omega
  refine ⟨hshort [] (by decide), fun hmem => ?_, hshort dot (by decide), hshort dots (by decide)⟩
  rcases List.mem_append.mp hmem with hmem | hmem
  · exact (uuid.plain '/' hmem).1 rfl
  · exact slash_notMem_extname originalName hmem

/-- The names on the way from the root to an upload. -/
def uploadNames (companyId : Id) (uuid : Uuid) (originalName : List Char) : List Segment :=
  [⟨STORAGE_DIR, by constructor <;> decide⟩, ⟨idText companyId, proper_idText companyId⟩,
    ⟨filename uuid originalName, proper_filename uuid originalName⟩]

theorem uploadNames_val (companyId : Id) (uuid : Uuid) (originalName : List Char) :
    (uploadNames companyId uuid originalName).map Subtype.val =
      [STORAGE_DIR, idText companyId, filename uuid originalName] := by
  simp only [uploadNames, List.map_cons, List.map_nil]

theorem storageKey_eq (companyId : Id) (uuid : Uuid) (originalName : List Char) :
    storageKey companyId uuid originalName =
      join '/' ((uploadNames companyId uuid originalName).map Subtype.val) := by
  have hgiven : [STORAGE_DIR, idText companyId, filename uuid originalName].filter (· ≠ []) =
      [STORAGE_DIR, idText companyId, filename uuid originalName] := by
    refine List.filter_eq_self.mpr fun p hp => ?_
    rw [← uploadNames_val] at hp
    have hproper := proper_names (uploadNames companyId uuid originalName) p hp
    simpa using hproper.nonempty
  have hne : [STORAGE_DIR, idText companyId, filename uuid originalName] ≠ [] :=
    List.cons_ne_nil _ _
  rw [storageKey, buildStorageKey, joinPaths, hgiven]
  simp only [if_neg hne]
  rw [← uploadNames_val]
  exact normalize_names (List.cons_ne_nil _ _)

theorem stripAbove_storageKey (companyId : Id) (uuid : Uuid) (originalName : List Char) :
    stripAbove (storageKey companyId uuid originalName) = storageKey companyId uuid originalName := by
  obtain ⟨cs, hcs⟩ : ∃ cs, storageKey companyId uuid originalName = 's' :: cs := by
    rw [storageKey_eq]
    exact ⟨_, rfl⟩
  rw [hcs, stripAbove] <;> simp

theorem prefix_append {root : Absolute} {below : List Segment} (hroot : root.segments ≠ [])
    (hbelow : below ≠ []) : root.text ++ ['/'] <+: (root.append below).text := by
  refine ⟨join '/' (below.map Subtype.val), ?_⟩
  rw [Absolute.text, Absolute.text, Absolute.append, List.map_append,
    join_append (mt List.map_eq_nil_iff.mp hroot) (mt List.map_eq_nil_iff.mp hbelow)]
  simp

theorem resolve_storageKey {cfg : Config} (r : Rooted cfg) (companyId : Id) (uuid : Uuid)
    (originalName : List Char) :
    resolve cfg.cwd [cfg.root, stripAbove (normalize (storageKey companyId uuid originalName))] =
      (r.root.append (uploadNames companyId uuid originalName)).text := by
  have hne : uploadNames companyId uuid originalName ≠ [] := List.cons_ne_nil _ _
  have hnormal : normalize (storageKey companyId uuid originalName) =
      storageKey companyId uuid originalName := by
    rw [storageKey_eq, normalize_names hne]
  rw [hnormal, stripAbove_storageKey, storageKey_eq, r.text, resolve_below cfg.cwd r.root hne]

/-- Every upload has a path below the root, whatever name the client gave it. -/
theorem absolutePathFor_storageKey {cfg : Config} (r : Rooted cfg) (hroot : r.root.segments ≠ [])
    (companyId : Id) (uuid : Uuid) (originalName : List Char) :
    absolutePathFor cfg (storageKey companyId uuid originalName) =
      .ok (r.root.append (uploadNames companyId uuid originalName)).text := by
  simp only [absolutePathFor, resolve_storageKey r]
  rw [if_neg]
  rintro ⟨-, hprefix⟩
  rw [r.text] at hprefix
  exact hprefix (prefix_append hroot (List.cons_ne_nil _ _))

/-- The top directory is followed by two separators in the check, and no path has those. -/
theorem absolutePathFor_top {cfg : Config} (r : Rooted cfg) (hroot : r.root.segments = [])
    (companyId : Id) (uuid : Uuid) (originalName : List Char) :
    absolutePathFor cfg (storageKey companyId uuid originalName) = .error "Invalid storage key" := by
  have htop : cfg.root = ['/'] := by rw [r.text, Absolute.text, hroot, List.map_nil, join]
  obtain ⟨cs, hcs⟩ : ∃ cs, (r.root.append (uploadNames companyId uuid originalName)).text =
      '/' :: 's' :: cs := by
    rw [Absolute.text, Absolute.append, hroot, List.nil_append]
    exact ⟨_, rfl⟩
  simp only [absolutePathFor, resolve_storageKey r]
  rw [htop, hcs, if_pos]
  refine ⟨by simp, ?_⟩
  rintro ⟨t, ht⟩
  simp at ht

/-- Uploads with different random names have different paths. -/
theorem path_injective {root : Absolute} {companyId companyId' : Id} {uuid uuid' : Uuid}
    {originalName originalName' : List Char}
    (h : (root.append (uploadNames companyId uuid originalName)).text =
      (root.append (uploadNames companyId' uuid' originalName')).text) : uuid.text = uuid'.text := by
  have hsegments := congrArg (·.map Subtype.val) (Absolute.text_injective h)
  simp only [Absolute.append, List.map_append, List.append_cancel_left_eq, uploadNames_val,
    List.cons.injEq, and_true, true_and] at hsegments
  have htake := congrArg (List.take 36) hsegments.2
  rwa [filename, filename, List.take_left' uuid.length, List.take_left' uuid'.length] at htake

/-- No key leads out of the root, no name of a client keeps an upload out of the directory of
its company, and no upload takes the path of another; under the top directory itself nothing
can be stored. -/
theorem keys_confined (cfg : Config) (r : Rooted cfg) :
    (∀ key path, absolutePathFor cfg key = .ok path →
      ∃ below, path = (r.root.append below).text) ∧
    (r.root.segments = [] → ∀ companyId uuid originalName,
      absolutePathFor cfg (storageKey companyId uuid originalName) = .error "Invalid storage key") ∧
    (r.root.segments ≠ [] → ∀ companyId uuid originalName, ∃ path,
      absolutePathFor cfg (storageKey companyId uuid originalName) = .ok path ∧
      (∃ below : List Segment, path = (r.root.append below).text ∧
        below.map Subtype.val = [STORAGE_DIR, idText companyId, uuid.text ++ extname originalName]) ∧
      ∀ companyId' uuid' originalName',
        absolutePathFor cfg (storageKey companyId' uuid' originalName') = .ok path →
          uuid'.text = uuid.text) := by
  refine ⟨fun key path h => absolutePathFor_below r h, absolutePathFor_top r, fun hroot => ?_⟩
  intro companyId uuid originalName
  refine ⟨_, absolutePathFor_storageKey r hroot companyId uuid originalName,
    ⟨_, rfl, uploadNames_val companyId uuid originalName⟩, ?_⟩
  intro companyId' uuid' originalName' h
  rw [absolutePathFor_storageKey r hroot] at h
  exact path_injective (Except.ok.inj h)

theorem keys_confined_data : ∃ path,
    absolutePathFor ⟨['/', 's', 'r', 'v'], ['d', 'a', 't', 'a'], rfl⟩
      (storageKey 10 ⟨List.replicate 36 '0', rfl, by simp⟩ ['.', '.', '/', 'a', '.', 'p', 'd', 'f']) =
        .ok path ∧
      ∃ below : List Segment, path = ['/', 's', 'r', 'v', '/', 'd', 'a', 't', 'a'] ++ '/' ::
        join '/' (below.map Subtype.val) := by
  obtain ⟨path, hpath, ⟨below, rfl, hbelow⟩, -⟩ := (keys_confined
    ⟨['/', 's', 'r', 'v'], ['d', 'a', 't', 'a'], rfl⟩
    ⟨⟨[⟨['s', 'r', 'v'], by constructor <;> decide⟩, ⟨['d', 'a', 't', 'a'], by constructor <;> decide⟩]⟩,
      by decide⟩).2.2 (by simp) 10 ⟨List.replicate 36 '0', rfl, by simp⟩
    ['.', '.', '/', 'a', '.', 'p', 'd', 'f']
  refine ⟨_, hpath, below, ?_⟩
  cases below with
  | nil => cases hbelow
  | cons b below => simp [Absolute.text, Absolute.append, join]

end CiroFuel.Storage
