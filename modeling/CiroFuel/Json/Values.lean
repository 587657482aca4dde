import CiroFuel.Json.Tokens
import CiroFuel.Json.Decimals

/-!
# Values

A text of JSON is parsed with a stack of the arrays and objects that are still open.
An object keeps its members in the order of the text; of two members of one name the
later one counts. What is written for a value without infinite numbers is parsed as
the value.
-/
namespace CiroFuel.Json

inductive Value where
  | null
  | bool (b : Bool)
  | number (n : Number)
  | string (s : JsString)
  | array (elements : List Value)
  | object (members : List (JsString × Value))

/-- A property of a value; only objects have any. -/
def Value.get (v : Value) (name : JsString) : Option Value :=
  match v with
  | object members => (members.reverse.find? fun m => m.1 = name).map (·.2)
  | _ => none

/-! ### Parsing -/

/-- An array or object that is still open. -/
inductive Frame where
  | array (elements : List Value)
  | object (members : List (JsString × Value)) (key : JsString)

/-- What the parser waits for. -/
inductive Expecting where
  | value
  | firstElement
  | firstKey
  | key (members : List (JsString × Value))
  | colon (members : List (JsString × Value)) (key : JsString)
  | after (v : Value)

abbrev Parsing := Expecting × List Frame

def readAtom (text : List Char) : Option Value :=
  match readNumber text with
  | some n => some (.number n)
  | none =>
      if text = "null".toList then some .null
      else if text = "true".toList then some (.bool true)
      else if text = "false".toList then some (.bool false)
      else none

/-- The first token of a value. -/
def beginValue (fs : List Frame) : Token → Option Parsing
  | .atom text => (readAtom text).map fun v => (.after v, fs)
  | .string s => some (.after (.string s), fs)
  | .openArray => some (.firstElement, fs)
  | .openObject => some (.firstKey, fs)
  | _ => none

def Parsing.next : Parsing → Token → Option Parsing
  | (.value, fs), t => beginValue fs t
  | (.firstElement, fs), .closeArray => some (.after (.array []), fs)
  | (.firstElement, fs), t => beginValue (.array [] :: fs) t
  | (.firstKey, fs), .closeObject => some (.after (.object []), fs)
  | (.firstKey, fs), .string key => some (.colon [] key, fs)
  | (.key members, fs), .string key => some (.colon members key, fs)
  | (.colon members key, fs), .colon => some (.value, .object members key :: fs)
  | (.after v, .array elements :: fs), .comma => some (.value, .array (elements ++ [v]) :: fs)
  | (.after v, .array elements :: fs), .closeArray => some (.after (.array (elements ++ [v])), fs)
  | (.after v, .object members key :: fs), .comma => some (.key (members ++ [(key, v)]), fs)
  | (.after v, .object members key :: fs), .closeObject =>
      some (.after (.object (members ++ [(key, v)])), fs)
  | _, _ => none

/-- The value, once nothing is open. -/
def Parsing.result : Parsing → Option Value
  | (.after v, []) => some v
  | _ => none

def run (p : Parsing) (ts : List Token) : Option Parsing := ts.foldlM Parsing.next p

/-- The value of a text, if it is one of JSON. -/
def parse (cs : List Char) : Option Value :=
  (lex .between cs).bind fun ts => (run (.value, []) ts).bind Parsing.result

/-! ### Writing -/

def Number.json : Number → List Char
  | .finite x => x.text
  | .infinite _ => "null".toList

mutual

def Value.tokens : Value → List Token
  | .null => [.atom "null".toList]
  | .bool true => [.atom "true".toList]
  | .bool false => [.atom "false".toList]
  | .number n => [.atom n.json]
  | .string s => [.string s]
  | .array [] => [.openArray, .closeArray]
  | .array (x :: xs) => .openArray :: (x.tokens ++ moreElements xs)
  | .object [] => [.openObject, .closeObject]
  | .object ((key, v) :: ms) => .openObject :: .string key :: .colon :: (v.tokens ++ moreMembers ms)

def moreElements : List Value → List Token
  | [] => [.closeArray]
  | x :: xs => .comma :: (x.tokens ++ moreElements xs)

def moreMembers : List (JsString × Value) → List Token
  | [] => [.closeObject]
  | (key, v) :: ms => .comma :: .string key :: .colon :: (v.tokens ++ moreMembers ms)

end

def Value.stringify (v : Value) : List Char := v.tokens.flatMap Token.text

/-! ### What is written is parsed -/

/-- A value whose numbers are all finite. -/
inductive Value.Finite : Value → Prop
  | null : Finite null
  | bool (b : Bool) : Finite (bool b)
  | number (x : Double) : Finite (number (.finite x))
  | string (s : JsString) : Finite (string s)
  | array {xs : List Value} : (∀ x ∈ xs, Finite x) → Finite (array xs)
  | object {ms : List (JsString × Value)} : (∀ m ∈ ms, Finite m.2) → Finite (object ms)

section run
variable {p : Parsing} {fs : List Frame} {t : Token} {ts ts' : List Token}

theorem run_append (p : Parsing) (ts ts' : List Token) :
    run p (ts ++ ts') = (run p ts).bind fun p => run p ts' := List.foldlM_append

theorem run_cons (p : Parsing) (t : Token) (ts : List Token) :
    run p (t :: ts) = (p.next t).bind fun p => run p ts := List.foldlM_cons

theorem run_next (p' : Parsing) (h : p.next t = some p') : run p (t :: ts) = run p' ts := by
  rw [run_cons, h, Option.bind_some]

/-- The tokens are read as the value, whatever is open. -/
def Reads (ts : List Token) (v : Value) : Prop := ∀ fs, run (.value, fs) ts = some (.after v, fs)

theorem Reads.append {v : Value} (h : Reads ts v) (fs : List Frame) (ts' : List Token) :
    run (.value, fs) (ts ++ ts') = run (.after v, fs) ts' := by
  rw [run_append, h, Option.bind_some]

/-- The first element of an array is read as any other one. -/
theorem Reads.first {v : Value} (h : Reads ts v) (fs : List Frame) (ts' : List Token) :
    run (.firstElement, fs) (ts ++ ts') = run (.after v, .array [] :: fs) ts' := by
  rw [← h.append]
  cases ts with
  | nil => cases h fs
  | cons t ts =>
      rw [List.cons_append, run_cons, run_cons]
      cases t with
      | closeArray => cases h fs
      | _ => rfl

theorem run_moreElements {xs : List Value} (hxs : ∀ x ∈ xs, Reads x.tokens x) (v : Value)
    (elements : List Value) (fs : List Frame) :
    run (.after v, .array elements :: fs) (moreElements xs) =
      some (.after (.array (elements ++ v :: xs)), fs) := by
  induction xs generalizing v elements with
  | nil => rfl
  | cons x xs ih =>
      have hx := hxs x List.mem_cons_self
      rw [moreElements, run_next ((.value, .array (elements ++ [v]) :: fs)) rfl, hx.append,
        ih fun x hx => hxs x (List.mem_cons_of_mem _ hx)]
      simp

theorem run_moreMembers {ms : List (JsString × Value)} (hms : ∀ m ∈ ms, Reads m.2.tokens m.2)
    (key : JsString) (v : Value) (members : List (JsString × Value)) (fs : List Frame) :
    run (.after v, .object members key :: fs) (moreMembers ms) =
      some (.after (.object (members ++ (key, v) :: ms)), fs) := by
  induction ms generalizing key v members with
  | nil => rfl
  | cons m ms ih =>
      obtain ⟨key', v'⟩ := m
      have hv := hms (key', v') List.mem_cons_self
      rw [moreMembers, run_next ((.key (members ++ [(key, v)]), fs)) rfl,
        run_next ((.colon (members ++ [(key, v)]) key', fs)) rfl,
        run_next ((.value, .object (members ++ [(key, v)]) key' :: fs)) rfl, hv.append,
        ih fun m hm => hms m (List.mem_cons_of_mem _ hm)]
      simp

end run

theorem reads_atom {text : List Char} {v : Value} (h : readAtom text = some v) :
    Reads [.atom text] v := by
  intro fs
  have hnext : Parsing.next (.value, fs) (.atom text) = some (.after v, fs) := by
    rw [Parsing.next, beginValue, h, Option.map_some]
  rw [run_next _ hnext]
  rfl

/-- The tokens of a value are read as the value. -/
theorem Value.Finite.reads {v : Value} (h : v.Finite) : Reads v.tokens v := by
  induction h with
  | null => exact reads_atom rfl
  | bool b => cases b <;> exact reads_atom rfl
  | number x =>
      apply reads_atom
      rw [readAtom, Number.json, readNumber_text]
  | string s => exact fun fs => rfl
  | array _ ih =>
      rename_i xs _
      intro fs
      cases xs with
      | nil => rfl
      | cons x xs =>
          rw [tokens, run_next ((.firstElement, fs)) rfl, (ih x List.mem_cons_self).first,
            run_moreElements fun x hx => ih x (List.mem_cons_of_mem _ hx)]
          rfl
  | object _ ih =>
      rename_i ms _
      intro fs
      cases ms with
      | nil => rfl
      | cons m ms =>
          obtain ⟨key, v⟩ := m
          rw [tokens, run_next ((.firstKey, fs)) rfl,
            run_next ((.colon [] key, fs)) rfl,
            run_next ((.value, .object [] key :: fs)) rfl,
            (ih (key, v) List.mem_cons_self).append,
            run_moreMembers fun m hm => ih m (List.mem_cons_of_mem _ hm)]
          rfl

/-! ### Tokens that stay apart -/

/-- The tokens may be followed by whatever does not start with an atom. -/
def Follows (ts : List Token) : Prop :=
  (∀ t ∈ ts, t.Proper) ∧ ∀ ts', Apart ts' → (∀ t ∈ ts'.head?, ¬t.IsAtom) → Apart (ts ++ ts')

theorem follows_nil : Follows [] := ⟨by simp, fun _ h _ => h⟩

theorem Follows.cons {t : Token} {ts : List Token} (ht : ¬t.IsAtom) (hts : Follows ts) :
    Follows (t :: ts) := by
  refine ⟨List.forall_mem_cons.mpr ⟨?_, hts.1⟩, fun ts' h hhead => (hts.2 ts' h hhead).cons ht⟩
  cases t with
  | atom text => exact absurd trivial ht
  | _ => trivial

theorem Follows.append {ts ts' : List Token} (hts : Follows ts) (hts' : Follows ts')
    (hhead : ∃ t ∈ ts'.head?, ¬t.IsAtom) : Follows (ts ++ ts') := by
  refine ⟨List.forall_mem_append.mpr ⟨hts.1, hts'.1⟩, fun rest hrest hatom => ?_⟩
  obtain ⟨t, ht, hatom'⟩ := hhead
  rw [List.append_assoc]
  refine hts.2 _ (hts'.2 _ hrest hatom) fun t' ht' => ?_
  cases ts' with
  | nil => cases ht
  | cons t'' ts' =>
      cases ht
      cases ht'
      exact hatom'

theorem follows_atom {text : List Char} (hne : text ≠ []) (h : ∀ c ∈ text, IsAtom c) :
    Follows [.atom text] := by
  refine ⟨List.forall_mem_singleton.mpr ⟨hne, h⟩, fun ts' hts' hhead => ?_⟩
  cases ts' with
  | nil => trivial
  | cons t ts' => exact ⟨fun hatoms => hhead t rfl hatoms.2, hts'⟩

theorem follows_word {text : List Char} (hne : text ≠ [])
    (h : (text.all fun c => IsAtom c) = true) : Follows [.atom text] :=
  follows_atom hne fun c hc => of_decide_eq_true (List.all_eq_true.mp h c hc)

theorem isAtom_of_isDigit {c : Char} (h : c.isDigit) : IsAtom c := by
  refine ⟨fun hspace => ?_, ?_, ?_⟩
  · simp only [isSpace, Bool.or_eq_true, decide_eq_true_eq] at hspace
    rcases hspace with ((rfl | rfl) | rfl) | rfl <;> exact absurd h (by decide)
  · rw [punctuation.eq_def]
    split <;> first | rfl | exact absurd h (by decide)
  · rintro rfl
    exact absurd h (by decide)

theorem follows_moreElements {xs : List Value} (h : ∀ x ∈ xs, Follows x.tokens) :
    Follows (moreElements xs) ∧ ∃ t ∈ (moreElements xs).head?, ¬t.IsAtom := by
  induction xs with
  | nil => exact ⟨follows_nil.cons (by decide), _, rfl, by decide⟩
  | cons x xs ih =>
      obtain ⟨hxs, hhead⟩ := ih fun x hx => h x (List.mem_cons_of_mem _ hx)
      exact ⟨((h x List.mem_cons_self).append hxs hhead).cons (by decide), _, rfl, by decide⟩

theorem follows_moreMembers {ms : List (JsString × Value)} (h : ∀ m ∈ ms, Follows m.2.tokens) :
    Follows (moreMembers ms) ∧ ∃ t ∈ (moreMembers ms).head?, ¬t.IsAtom := by
  induction ms with
  | nil => exact ⟨follows_nil.cons (by decide), _, rfl, by decide⟩
  | cons m ms ih =>
      obtain ⟨hms, hhead⟩ := ih fun m hm => h m (List.mem_cons_of_mem _ hm)
      have hvalue := (h m List.mem_cons_self).append hms hhead
      exact ⟨((hvalue.cons (by decide)).cons id).cons (by decide), _, rfl, by decide⟩

theorem follows_number (x : Double) : Follows [.atom x.text] := by
  have hplain := Decimal.literal_plain x.decimal
  refine follows_atom hplain.text_ne_nil (hplain.text_all ?_ ?_ ?_ ?_ ?_)
  · exact fun c hc => isAtom_of_isDigit hc
  all_goals decide

theorem Value.Finite.follows {v : Value} (h : v.Finite) : Follows v.tokens := by
  induction h with
  | null => exact follows_word (by decide) rfl
  | bool b => cases b <;> exact follows_word (by decide) rfl
  | number x => exact follows_number x
  | string s => exact follows_nil.cons id
  | array _ ih =>
      rename_i xs _
      cases xs with
      | nil => exact (follows_nil.cons (by decide)).cons (by decide)
      | cons x xs =>
          obtain ⟨hxs, hhead⟩ := follows_moreElements fun x hx => ih x (List.mem_cons_of_mem _ hx)
          exact ((ih x List.mem_cons_self).append hxs hhead).cons (by decide)
  | object _ ih =>
      rename_i ms _
      cases ms with
      | nil => exact (follows_nil.cons (by decide)).cons (by decide)
      | cons m ms =>
          obtain ⟨hms, hhead⟩ := follows_moreMembers fun m hm => ih m (List.mem_cons_of_mem _ hm)
          have hvalue := (ih m List.mem_cons_self).append hms hhead
          exact ((hvalue.cons (by decide)).cons id).cons (by decide)

/-- A value is parsed from what is written for it. -/
theorem Value.Finite.parse_stringify {v : Value} (h : v.Finite) : parse v.stringify = some v := by
  have hapart : Apart v.tokens := by
    have := h.follows.2 [] trivial (by simp)
    rwa [List.append_nil] at this
  rw [parse, stringify, lex_text h.follows.1 hapart, Option.bind_some, h.reads]
  rfl

end CiroFuel.Json
