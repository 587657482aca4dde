import CiroFuel.ClientLists
import CiroFuel.Json.Conversions
import CiroFuel.Encoding.Base64
import CiroFuel.Encoding.Utf8

/-!
# Cursors as text

A cursor leaves the server as a text: the sort values of the last row as a JSON object,
in base 64. It comes back as it was given, is decoded, and the query casts each value
to the type of its field. A list asked for with the text shows what it shows for the
values themselves, as long as every stored value can be cast back from what is written
for it: a date in the range of dates, an identifier of twelve bytes, a member of an
enumeration.
-/
namespace CiroFuel.Cursors
open Query Json Encoding Numerals

/-! ### The text of a payload -/

def encodeCursor (payload : Value) : JsString := Base64.encode (Utf8.encode payload.stringify)

def malformed : String := "Malformed pagination cursor"

def decodeCursor (cursor : JsString) : Except String Value :=
  match parse (Utf8.decode (Base64.decode cursor)) with
  | some (.object members) => .ok (.object members)
  | _ => .error malformed

theorem decodeCursor_encodeCursor {members : List (JsString × Value)}
    (h : (Value.object members).Finite) :
    decodeCursor (encodeCursor (.object members)) = .ok (.object members) := by
  rw [decodeCursor, encodeCursor, Base64.decode_encode, Utf8.decode_encode, h.parse_stringify]

/-- A cursor is never taken for an absent one: it is an object or it is refused. -/
theorem decodeCursor_cases (cursor : JsString) :
    (∃ members, decodeCursor cursor = .ok (.object members)) ∨
      decodeCursor cursor = .error malformed := by
  unfold decodeCursor
  split
  · exact .inl ⟨_, rfl⟩
  · exact .inr rfl

/-! ### The values of a field -/

/-- How a value of a field travels: what it is in JSON, and what the query casts that to. -/
structure Codec (α : Type) where
  toJson : α → Value
  cast : Value → Option α
  Storable : α → Prop
  finite (a : α) : (toJson a).Finite
  cast_toJson (a : α) : Storable a → cast (toJson a) = some a

/-- The texts of dates and identifiers are read back unit by unit. -/
theorem unitChars_ofText {cs : List Char} (h : ∀ c ∈ cs, c.toNat < 128) :
    (ofText cs).map unitChar = cs :=
  map_unitChar fun c hc => (h c hc).trans (by decide)

/-- `toJSON` of a date; one that is not valid is written as `null`. -/
def dateJson (t : ℕ) : Value :=
  match Dates.toISOString t with
  | some cs => .string (ofText cs)
  | none => .null

def castDate : Value → Option ℕ
  | .string s => (Dates.ofISOString (s.map unitChar)).bind Int.toNat?
  | _ => none

def dateCodec : Codec ℕ where
  toJson := dateJson
  cast := castDate
  Storable t := t ≤ 8640000000000000
  finite t := by
    unfold dateJson
    split
    · exact .string _
    · exact .null
  cast_toJson t ht := by
    have hrange : |(t : ℤ)| ≤ 8640000000000000 := by
      rw [abs_of_nonneg (Int.natCast_nonneg t)]
      exact_mod_cast ht
    have htext : Dates.toISOString (t : ℤ) = some (Dates.ofTime t).text := if_pos hrange
    rw [dateJson, htext]
    simp only [castDate]
    rw [unitChars_ofText (Dates.toISOString_ascii htext), Dates.ofISOString_eq htext]
    rfl

/-- The hexadecimal text of an identifier. -/
def idJson (n : ℕ) : Value := .string (ofText (digitsText (digits 16 24 n)))

def castObjectId : Value → Option ℕ
  | .string s =>
      if s.length = 24 then ((s.map unitChar).mapM hexValue).map (value 16) else none
  | _ => none

theorem digitChar_ascii : ∀ d < 16, (Nat.digitChar d).toNat < 128 := by decide

def idCodec : Codec ℕ where
  toJson := idJson
  cast := castObjectId
  Storable n := n < 16 ^ 24
  finite _ := .string _
  cast_toJson n hn := by
    have hdigits : ∀ d ∈ digits 16 24 n, d < 16 := fun d hd => digits_lt (by decide) hd
    have htext : (ofText (digitsText (digits 16 24 n))).map unitChar =
        digitsText (digits 16 24 n) := by
      refine unitChars_ofText fun c hc => ?_
      obtain ⟨d, hd, rfl⟩ := List.mem_map.mp hc
      exact digitChar_ascii d (hdigits d hd)
    have hlength : (ofText (digitsText (digits 16 24 n))).length = 24 := by
      rw [← List.length_map (f := unitChar), htext, digitsText, List.length_map, length_digits]
    simp only [idJson, castObjectId]
    rw [if_pos hlength, htext, mapM_hexValue hdigits, Option.map_some, value_digits,
      Nat.mod_eq_of_lt hn]

/-- The members of an enumeration, in the order they sort in; a value is its place. -/
def enumCodec (names : List JsString) (hnames : names.Nodup) : Codec ℕ where
  toJson n := (names[n]?).elim .null .string
  cast v :=
    match v with
    | .string s => if s ∈ names then some (names.idxOf s) else none
    | _ => none
  Storable n := n < names.length
  finite n := by
    cases names[n]? with
    | none => exact .null
    | some s => exact .string s
  cast_toJson n hn := by
    have hget : names[n]? = some names[n] := List.getElem?_eq_getElem hn
    rw [hget]
    simp only [Option.elim_some]
    rw [if_pos (List.getElem_mem hn), hnames.idxOf_getElem n hn]

/-! ### Pages by text -/

/-- What the sort fields of a collection are called, and how their values travel. -/
structure Schema {F : Type} (V : F → Type) where
  name : F → JsString
  codec : (f : F) → Codec (V f)

structure TextPage (δ : Type) where
  items : List δ
  nextCursor : Option JsString

section schema
variable {F δ : Type} [DecidableEq F] {V : F → Type} [∀ f, LinearOrder (V f)] [∀ f, Inhabited (V f)]
variable (S : Schema V) (keys : List (SortField F))

/-- The values that a document is sorted by, under their names. -/
def extractCursorPayload (p : Position V) : Value :=
  .object (fromEntries (keys.map fun k => (S.name k.field, (S.codec k.field).toJson (p k.field))))

def cursorText (p : Position V) : JsString := encodeCursor (extractCursorPayload S keys p)

/-- The values that the query compares with, if each is one of its field. -/
def castBoundary (payload : Value) : Option (Position V) :=
  keys.foldlM (fun b k =>
    ((payload.get (S.name k.field)).bind (S.codec k.field).cast).map fun v =>
      Function.update b k.field v) fun _ => default

def textPage (page : PaginatedResponse δ V) : TextPage δ where
  items := page.items
  nextCursor := page.nextCursor.map (cursorText S keys)

/-- `paginate` as it is called. An empty cursor is an absent one. What the query makes of
boundary values that are none of their fields' is `outside`. -/
def paginateText (outside : Value → Except String (TextPage δ)) (pos : δ → Position V)
    (scope : Except String (Conditions F δ)) (docs : List δ) (filter : Conditions F δ)
    (cursor : Option JsString) (pageSize : ℕ) : Except String (TextPage δ) :=
  match cursor with
  | none | some [] => do
      return textPage S keys (paginate pos (← scope) docs filter keys none pageSize)
  | some text => do
      let payload ← decodeCursor text
      match castBoundary S keys payload with
      | some boundary =>
          return textPage S keys (paginate pos (← scope) docs filter keys (some boundary) pageSize)
      | none => outside payload

/-! ### A cursor comes back as it was -/

/-- Every sort value can be cast back from its text. -/
def Storable (p : Position V) : Prop := ∀ k ∈ keys, (S.codec k.field).Storable (p k.field)

variable {S keys}

omit [DecidableEq F] [∀ f, LinearOrder (V f)] [∀ f, Inhabited (V f)] in
theorem extractCursorPayload_eq (hnames : (keys.map fun k => S.name k.field).Nodup)
    (p : Position V) : extractCursorPayload S keys p =
      .object (keys.map fun k => (S.name k.field, (S.codec k.field).toJson (p k.field))) := by
  have hfst : ((keys.map fun k => (S.name k.field, (S.codec k.field).toJson (p k.field))).map
      Prod.fst).Nodup := by
    simpa [Function.comp_def] using hnames
  rw [extractCursorPayload, fromEntries, foldl_assignEntry (by simpa using hfst), List.nil_append]

omit [DecidableEq F] [∀ f, LinearOrder (V f)] [∀ f, Inhabited (V f)] in
theorem decodeCursor_cursorText (hnames : (keys.map fun k => S.name k.field).Nodup)
    (p : Position V) :
    decodeCursor (cursorText S keys p) = .ok (extractCursorPayload S keys p) := by
  rw [cursorText, extractCursorPayload_eq hnames]
  refine decodeCursor_encodeCursor (.object fun m hm => ?_)
  obtain ⟨k, -, rfl⟩ := List.mem_map.mp hm
  exact (S.codec k.field).finite _

/-- Of members with different names, each is found under its own. -/
theorem get_of_mem {members : List (JsString × Value)} (h : (members.map Prod.fst).Nodup)
    {m : JsString × Value} (hm : m ∈ members) : (Value.object members).get m.1 = some m.2 := by
  rw [Value.get]
  cases hfind : members.reverse.find? fun m' => decide (m'.1 = m.1) with
  | none => exact absurd (List.find?_eq_none.mp hfind m (List.mem_reverse.mpr hm)) (by simp)
  | some m' =>
      have hname : m'.1 = m.1 := by simpa using List.find?_some hfind
      have hmem : m' ∈ members := List.mem_reverse.mp (List.mem_of_find?_eq_some hfind)
      rw [List.inj_on_of_nodup_map h hmem hm hname, Option.map_some]

omit [DecidableEq F] [∀ f, LinearOrder (V f)] [∀ f, Inhabited (V f)] in
theorem cast_extractCursorPayload (hnames : (keys.map fun k => S.name k.field).Nodup)
    {p : Position V} (hp : Storable S keys p) {k : SortField F} (hk : k ∈ keys) :
    ((extractCursorPayload S keys p).get (S.name k.field)).bind (S.codec k.field).cast =
      some (p k.field) := by
  have hfst : ((keys.map fun k => (S.name k.field, (S.codec k.field).toJson (p k.field))).map
      Prod.fst).Nodup := by
    simpa [Function.comp_def] using hnames
  rw [extractCursorPayload_eq hnames, get_of_mem hfst (List.mem_map.mpr ⟨k, hk, rfl⟩),
    Option.bind_some, (S.codec k.field).cast_toJson _ (hp k hk)]

omit [∀ f, LinearOrder (V f)] [∀ f, Inhabited (V f)] in
/-- Each value that is cast replaces what stood under its field. -/
theorem foldlM_cast {payload : Value} {p : Position V} {ks : List (SortField F)}
    (hcast : ∀ k ∈ ks, (payload.get (S.name k.field)).bind (S.codec k.field).cast =
      some (p k.field)) (b : Position V) :
    ∃ b', ks.foldlM (fun b k =>
        ((payload.get (S.name k.field)).bind (S.codec k.field).cast).map fun v =>
          Function.update b k.field v) b = some b' ∧
      ∀ f, b' f = if f ∈ ks.map (·.field) then p f else b f := by
  induction ks generalizing b with
  | nil => exact ⟨b, rfl, fun f => by simp⟩
  | cons k ks ih =>
      obtain ⟨b', hfold, hb'⟩ := ih (fun k' hk' => hcast k' (List.mem_cons_of_mem _ hk'))
        (Function.update b k.field (p k.field))
      refine ⟨b', ?_, fun f => ?_⟩
      · rw [List.foldlM_cons, hcast k List.mem_cons_self]
        exact hfold
      · rw [hb' f]
        by_cases hf : f = k.field
        · subst hf
          simp
        · simp [hf]

omit [∀ f, LinearOrder (V f)] in
theorem castBoundary_extract (hnames : (keys.map fun k => S.name k.field).Nodup)
    {p : Position V} (hp : Storable S keys p) :
    ∃ b, castBoundary S keys (extractCursorPayload S keys p) = some b ∧
      ∀ k ∈ keys, b k.field = p k.field := by
  obtain ⟨b, hfold, hb⟩ := foldlM_cast
    (fun k hk => cast_extractCursorPayload hnames hp (k := k) hk) fun _ => default
  exact ⟨b, hfold, fun k hk => by rw [hb, if_pos (List.mem_map_of_mem hk)]⟩

/-! ### Only the sort fields of a boundary are read -/

variable {pos : δ → Position V}

omit [∀ f, Inhabited (V f)] in
theorem keysetClauses_boundary {b b' : Position V} {earlier ks : List (SortField F)}
    (h : ∀ k ∈ earlier ++ ks, b k.field = b' k.field) :
    keysetClauses pos b earlier ks = keysetClauses pos b' earlier ks := by
  induction ks generalizing earlier with
  | nil => rfl
  | cons k ks ih =>
      have hequal : boundaryEqualities pos b earlier = boundaryEqualities pos b' earlier := by
        refine List.map_congr_left fun j hj => ?_
        rw [h j (List.mem_append_left _ hj)]
      have hop : keysetOp pos b k = keysetOp pos b' k := by
        funext d
        rw [keysetOp, keysetOp, h k (List.mem_append_right _ List.mem_cons_self)]
      rw [keysetClauses, keysetClauses, keysetClause, keysetClause, hequal, hop,
        ih (by simpa using h)]

omit [∀ f, Inhabited (V f)] in
theorem paginate_boundary {b b' : Position V} (h : ∀ k ∈ keys, b k.field = b' k.field)
    (scope : Conditions F δ) (docs : List δ) (filter : Conditions F δ) (pageSize : ℕ) :
    paginate pos scope docs filter keys (some b) pageSize =
      paginate pos scope docs filter keys (some b') pageSize := by
  have hfilter : effectiveFilter pos filter keys (some b) =
      effectiveFilter pos filter keys (some b') := by
    rw [effectiveFilter, effectiveFilter, buildKeysetFilter, buildKeysetFilter,
      keysetClauses_boundary (by simpa using h)]
  rw [paginate, paginate, hfilter]

/-! ### Following the text -/

omit [DecidableEq F] [∀ f, LinearOrder (V f)] [∀ f, Inhabited (V f)] in
theorem cursorText_ne_nil (hnames : (keys.map fun k => S.name k.field).Nodup) (p : Position V) :
    cursorText S keys p ≠ [] := by
  intro hnil
  have hdecode := decodeCursor_cursorText hnames p
  have hempty : decodeCursor [] = .error malformed := rfl
  rw [hnil, hempty] at hdecode
  cases hdecode

/-- Asked with the text of a cursor, a list answers as it does for the values in it. -/
theorem paginateText_cursorText (hnames : (keys.map fun k => S.name k.field).Nodup)
    {outside : Value → Except String (TextPage δ)} {scope : Except String (Conditions F δ)}
    {docs : List δ} {filter : Conditions F δ} {pageSize : ℕ} {cursor : Option (Position V)}
    (hcursor : ∀ p ∈ cursor, Storable S keys p) :
    paginateText S keys outside pos scope docs filter (cursor.map (cursorText S keys)) pageSize =
      scope.map fun s => textPage S keys (paginate pos s docs filter keys cursor pageSize) := by
  cases cursor with
  | none => cases scope <;> rfl
  | some p =>
      obtain ⟨u, us, htext⟩ := List.exists_cons_of_ne_nil (cursorText_ne_nil hnames p)
      obtain ⟨b, hb, hagree⟩ := castBoundary_extract hnames (hcursor p rfl)
      have hdecode := decodeCursor_cursorText hnames p
      rw [htext] at hdecode
      rw [Option.map_some, htext]
      simp only [paginateText, hdecode, hb, bind, Except.bind]
      cases scope with
      | error e => rfl
      | ok s =>
          exact congrArg (fun page => Except.ok (textPage S keys page))
            (paginate_boundary hagree s docs filter pageSize)

/-- A client sends back the text of each page's cursor as it received it. -/
inductive TextFollows (fetch : Option JsString → List δ → Except String (TextPage δ)) :
    Option JsString → List (List δ) → List (TextPage δ) → Option JsString → Prop where
  | page {cursor docs page} (h : fetch cursor docs = .ok page) :
      TextFollows fetch cursor [docs] [page] page.nextCursor
  | more {cursor docs page text snapshots pages last} (h : fetch cursor docs = .ok page)
      (hnext : page.nextCursor = some text)
      (rest : TextFollows fetch (some text) snapshots pages last) :
      TextFollows fetch cursor (docs :: snapshots) (page :: pages) last

omit [DecidableEq F] [∀ f, LinearOrder (V f)] [∀ f, Inhabited (V f)] in
/-- Where the first page is the same, so is the walk. -/
theorem TextFollows.from_eq {fetch : Option JsString → List δ → Except String (TextPage δ)}
    {cursor cursor' last : Option JsString} {snapshots : List (List δ)}
    {texts : List (TextPage δ)} (heq : ∀ docs, fetch cursor docs = fetch cursor' docs)
    (h : TextFollows fetch cursor snapshots texts last) :
    TextFollows fetch cursor' snapshots texts last := by
  cases h with
  | page hpage => exact .page (heq _ ▸ hpage)
  | more hpage hnext hrest => exact .more (heq _ ▸ hpage) hnext hrest

section walk
variable {fetchText : Option JsString → List δ → Except String (TextPage δ)}
  {fetch : Option (Position V) → List δ → PaginatedResponse δ V → Prop}
  {snapshots : List (List δ)}

/-- The two ways to ask for a page agree on cursors whose values can be cast back, and
give out no others. -/
structure Renders (S : Schema V) (keys : List (SortField F))
    (fetchText : Option JsString → List δ → Except String (TextPage δ))
    (fetch : Option (Position V) → List δ → PaginatedResponse δ V → Prop)
    (snapshots : List (List δ)) : Prop where
  answer (cursor : Option (Position V)) : (∀ p ∈ cursor, Storable S keys p) →
    ∀ docs ∈ snapshots, ∀ page, fetchText (cursor.map (cursorText S keys)) docs = .ok page ↔
      ∃ p, fetch cursor docs p ∧ page = textPage S keys p
  next (cursor : Option (Position V)) : ∀ docs ∈ snapshots, ∀ page, fetch cursor docs page →
    ∀ p ∈ page.nextCursor, Storable S keys p

omit [DecidableEq F] [∀ f, LinearOrder (V f)] [∀ f, Inhabited (V f)] in
theorem Renders.tail {docs : List δ} (h : Renders S keys fetchText fetch (docs :: snapshots)) :
    Renders S keys fetchText fetch snapshots where
  answer cursor hcursor d hd := h.answer cursor hcursor d (List.mem_cons_of_mem _ hd)
  next cursor d hd := h.next cursor d (List.mem_cons_of_mem _ hd)

omit [DecidableEq F] [∀ f, LinearOrder (V f)] [∀ f, Inhabited (V f)] in
/-- A walk by text is a walk by the values. -/
theorem TextFollows.values {cursor : Option JsString} {texts : List (TextPage δ)}
    {last : Option JsString} (h : TextFollows fetchText cursor snapshots texts last)
    (hrenders : Renders S keys fetchText fetch snapshots) (start : Option (Position V))
    (hcursor : cursor = start.map (cursorText S keys)) (hstart : ∀ p ∈ start, Storable S keys p) :
    ∃ pages next, Follows fetch start snapshots pages next ∧
      texts = pages.map (textPage S keys) ∧ last = next.map (cursorText S keys) := by
  induction h generalizing start with
  | page hpage =>
      subst hcursor
      obtain ⟨p, hp, rfl⟩ := (hrenders.answer start hstart _ List.mem_cons_self _).mp hpage
      exact ⟨[p], p.nextCursor, .page hp, rfl, rfl⟩
  | more hpage hnext _ ih =>
      subst hcursor
      obtain ⟨p, hp, rfl⟩ := (hrenders.answer start hstart _ List.mem_cons_self _).mp hpage
      obtain ⟨b, hb, rfl⟩ := Option.map_eq_some_iff.mp hnext
      have hstorable : ∀ q ∈ some b, Storable S keys q := by
        rintro q ⟨⟩
        exact hrenders.next start _ List.mem_cons_self p hp b hb
      obtain ⟨pages, next, hfollows, rfl, rfl⟩ := ih hrenders.tail (some b) rfl hstorable
      exact ⟨p :: pages, next, .more hp hb hfollows, rfl, rfl⟩

omit [DecidableEq F] [∀ f, LinearOrder (V f)] [∀ f, Inhabited (V f)] in
theorem follows_text {start next : Option (Position V)} {pages : List (PaginatedResponse δ V)}
    (h : Follows fetch start snapshots pages next)
    (hrenders : Renders S keys fetchText fetch snapshots)
    (hstart : ∀ p ∈ start, Storable S keys p) :
    TextFollows fetchText (start.map (cursorText S keys)) snapshots (pages.map (textPage S keys))
      (next.map (cursorText S keys)) := by
  induction h with
  | page hpage =>
      exact .page ((hrenders.answer _ hstart _ List.mem_cons_self _).mpr ⟨_, hpage, rfl⟩)
  | @more cursor docs page b snapshots pages last hpage hnext _ ih =>
      have hstorable : ∀ q ∈ some b, Storable S keys q := by
        rintro q ⟨⟩
        exact hrenders.next cursor _ List.mem_cons_self page hpage b hnext
      refine .more ((hrenders.answer _ hstart _ List.mem_cons_self _).mpr ⟨_, hpage, rfl⟩) ?_
        (ih hrenders.tail hstorable)
      rw [textPage, hnext]
      rfl

end walk

/-- Every stored row has sort values that can be cast back. -/
def AllStorable (S : Schema V) (keys : List (SortField F)) (pos : δ → Position V)
    (snapshots : List (List δ)) : Prop :=
  ∀ docs ∈ snapshots, ∀ d ∈ docs, Storable S keys (pos d)

theorem paginateText_renders (hnames : (keys.map fun k => S.name k.field).Nodup)
    {outside : Value → Except String (TextPage δ)} {scope filter : Conditions F δ} {pageSize : ℕ}
    {snapshots : List (List δ)} (hstored : AllStorable S keys pos snapshots) :
    Renders S keys
      (fun cursor docs => paginateText S keys outside pos (.ok scope) docs filter cursor pageSize)
      (fun cursor docs page => paginate pos scope docs filter keys cursor pageSize = page)
      snapshots where
  answer cursor hcursor docs _ page := by
    rw [paginateText_cursorText hnames hcursor]
    constructor
    · rintro ⟨⟩
      exact ⟨_, rfl, rfl⟩
    · rintro ⟨_, rfl, rfl⟩
      rfl
  next cursor docs hdocs page hpage p hp := by
    subst hpage
    obtain ⟨d, hd, rfl⟩ := paginate_items_nonempty hp
    exact hstored docs hdocs d (mem_of_mem_page hd)

/-- Where following the values reaches the end, so does following the texts. -/
theorem exists_textFollows (hnames : (keys.map fun k => S.name k.field).Nodup)
    {outside : Value → Except String (TextPage δ)} {scope filter : Conditions F δ} {pageSize : ℕ}
    {snapshots : List (List δ)} (hstored : AllStorable S keys pos snapshots)
    (h : (follow (fun cursor docs => some (paginate pos scope docs filter keys cursor pageSize)) none
      snapshots).map (fun r => r.2.isNone) = some true) :
    ∃ texts, TextFollows (fun cursor docs =>
      paginateText S keys outside pos (.ok scope) docs filter cursor pageSize) none snapshots texts
        none := by
  obtain ⟨⟨pages, last⟩, hpages, hnone⟩ := Option.map_eq_some_iff.mp h
  obtain rfl := Option.isNone_iff_eq_none.mp hnone
  have hfollows : Follows
      (fun cursor docs page => paginate pos scope docs filter keys cursor pageSize = page) none
      snapshots pages none := (follow_spec hpages).mono fun _ _ _ => Option.some.inj
  exact ⟨_, follows_text hfollows (paginateText_renders hnames hstored) (by simp)⟩

/-- To follow the texts of the cursors, from an absent or an empty one, is to follow the
values they were made from, over whatever the collection is at each fetch; and a text
that is not that of an object is refused. -/
theorem text_walk (S : Schema V) (keys : List (SortField F))
    (hnames : (keys.map fun k => S.name k.field).Nodup) (pos : δ → Position V)
    (scope filter : Conditions F δ) (pageSize : ℕ) (outside : Value → Except String (TextPage δ))
    (snapshots : List (List δ)) (hstored : AllStorable S keys pos snapshots) :
    (∀ start ∈ [none, some []], ∀ texts last,
      TextFollows (fun cursor docs =>
          paginateText S keys outside pos (.ok scope) docs filter cursor pageSize)
        start snapshots texts last ↔
      ∃ pages next,
        Follows (fun cursor docs page => paginate pos scope docs filter keys cursor pageSize = page)
          none snapshots pages next ∧
        texts = pages.map (textPage S keys) ∧ last = next.map (cursorText S keys)) ∧
    ∀ text ≠ [], (∀ members, parse (Utf8.decode (Base64.decode text)) ≠ some (.object members)) →
      ∀ docs, paginateText S keys outside pos (.ok scope) docs filter (some text) pageSize =
        .error malformed := by
  have hrenders : Renders S keys
      (fun cursor docs => paginateText S keys outside pos (.ok scope) docs filter cursor pageSize)
      (fun cursor docs page => paginate pos scope docs filter keys cursor pageSize = page)
      snapshots := paginateText_renders hnames hstored
  have hnone : ∀ texts last, TextFollows (fun cursor docs =>
      paginateText S keys outside pos (.ok scope) docs filter cursor pageSize)
        none snapshots texts last ↔
      ∃ pages next,
        Follows (fun cursor docs page => paginate pos scope docs filter keys cursor pageSize = page)
          none snapshots pages next ∧
        texts = pages.map (textPage S keys) ∧ last = next.map (cursorText S keys) := by
    intro texts last
    constructor
    · exact fun h => h.values hrenders none rfl (by simp)
    · rintro ⟨pages, next, hfollows, rfl, rfl⟩
      exact follows_text hfollows hrenders (by simp)
  refine ⟨fun start hstart texts last => ?_, fun text hne hparse docs => ?_⟩
  · rw [← hnone]
    simp only [List.mem_cons, List.not_mem_nil, or_false] at hstart
    rcases hstart with rfl | rfl
    · exact Iff.rfl
    · exact ⟨TextFollows.from_eq fun _ => rfl, TextFollows.from_eq fun _ => rfl⟩
  · obtain ⟨u, us, rfl⟩ := List.exists_cons_of_ne_nil hne
    have hdecode : decodeCursor (u :: us) = .error malformed := by
      rcases decodeCursor_cases (u :: us) with ⟨members, hok⟩ | herror
      · rw [decodeCursor] at hok
        split at hok
        · exact absurd ‹_› (hparse _)
        · cases hok
      · exact herror
    simp only [paginateText, hdecode, bind, Except.bind]

end schema

/-! ### The lists -/

def invoiceStates : List JsString :=
  ["ISSUED", "SETTLED", "VOID"].map fun s => ofText s.toList

/-- The sort fields of the lists: times, identifiers, and the state of an invoice. -/
def listSchema : Schema Numbers where
  name f := ofText f.toList
  codec f :=
    if f = "_id" then idCodec
    else if f = "state" then enumCodec invoiceStates (by decide)
    else dateCodec

theorem storable_date {f : String} {t : ℕ} (hid : f ≠ "_id") (hstate : f ≠ "state") :
    (listSchema.codec f).Storable t ↔ t ≤ 8640000000000000 := by
  simp [listSchema, hid, hstate, dateCodec]

theorem storable_id {n : ℕ} : (listSchema.codec "_id").Storable n ↔ n < 16 ^ 24 := by
  simp [listSchema, idCodec]

theorem storable_state {n : ℕ} : (listSchema.codec "state").Storable n ↔ n < 3 := by
  simp [listSchema, enumCodec, invoiceStates]

/-- The cursor of an invoice holds a state, a time and an identifier. -/
theorem text_walk_invoices :
    ∃ texts last, TextFollows (fun cursor docs =>
        paginateText listSchema INVOICE_SORT_KEYS (fun _ => .error "CastError") InvoiceRow.position
          (.ok .empty) docs .empty cursor 2)
      none [[listedInvoice 1, listedInvoice 2, listedInvoice 3],
        [listedInvoice 2, listedInvoice 3]] texts last := by
  have hnames : (INVOICE_SORT_KEYS.map fun k => listSchema.name k.field).Nodup := by decide
  have hstored : AllStorable listSchema INVOICE_SORT_KEYS InvoiceRow.position
      [[listedInvoice 1, listedInvoice 2, listedInvoice 3], [listedInvoice 2, listedInvoice 3]] := by
    have hrow : ∀ i < 4, Storable listSchema INVOICE_SORT_KEYS (listedInvoice i).position := by
      intro i hi k hk
      simp only [INVOICE_SORT_KEYS, List.mem_cons, List.not_mem_nil, or_false] at hk
      rcases hk with rfl | rfl | rfl
      · refine storable_state.mpr ?_
        change 0 < 3
        omega
      · refine (storable_date (by decide) (by decide)).mpr ?_
        change i ≤ 8640000000000000
        omega
      · refine storable_id.mpr ?_
        change i < 16 ^ 24
        omega
    intro docs hdocs d hd
    simp only [List.mem_cons, List.not_mem_nil, or_false] at hdocs
    rcases hdocs with rfl | rfl <;>
      simp only [List.mem_cons, List.not_mem_nil, or_false] at hd
    · rcases hd with rfl | rfl | rfl <;> exact hrow _ (by decide)
    · rcases hd with rfl | rfl <;> exact hrow _ (by decide)
  exact ⟨_, _, ((text_walk listSchema INVOICE_SORT_KEYS hnames InvoiceRow.position .empty .empty 2
    (fun _ => .error "CastError") _ hstored).1 none (by simp) _ _).mpr
    ⟨_, _, .more rfl rfl (.page rfl), rfl, rfl⟩⟩

end CiroFuel.Cursors
