import CiroFuel.Json.Strings
import Mathlib.Tactic.SplitIfs

/-!
# Tokens

A text of JSON is read from left to right by a machine that looks at one character at a
time. Brackets, commas and colons are tokens, and so are strings; an atom is what
stands between them, which is left to the parser. Tokens that are written one after the
other are read again when no two atoms touch.
-/
namespace CiroFuel.Json
open Numerals

inductive Token where
  | openArray | closeArray | openObject | closeObject | colon | comma
  | string (units : JsString)
  | atom (text : List Char)
deriving DecidableEq

def Token.text : Token → List Char
  | openArray => ['[']
  | closeArray => [']']
  | openObject => ['{']
  | closeObject => ['}']
  | colon => [':']
  | comma => [',']
  | string units => '"' :: (quoteUnits units ++ ['"'])
  | atom text => text

/-! ### The machine -/

inductive Lexing where
  | between
  | atom (text : List Char)
  | string (units : JsString)
  | escape (units : JsString)
  | hex (units : JsString) (read : List ℕ)
deriving DecidableEq

def isSpace (c : Char) : Bool := c = ' ' || c = '\t' || c = '\n' || c = '\r'

def punctuation : Char → Option Token
  | '[' => some .openArray
  | ']' => some .closeArray
  | '{' => some .openObject
  | '}' => some .closeObject
  | ':' => some .colon
  | ',' => some .comma
  | _ => none

/-- A character of an atom. -/
def IsAtom (c : Char) : Prop := ¬isSpace c ∧ punctuation c = none ∧ c ≠ '"'

instance (c : Char) : Decidable (IsAtom c) := inferInstanceAs (Decidable (_ ∧ _ ∧ _))

/-- A character between two tokens. -/
def enter (c : Char) : List Token × Lexing :=
  if isSpace c then ([], .between)
  else if c = '"' then ([], .string [])
  else match punctuation c with
    | some t => ([t], .between)
    | none => ([], .atom [c])

def Lexing.next : Lexing → Char → Option (List Token × Lexing)
  | between, c => some (enter c)
  | atom text, c =>
      if IsAtom c then some ([], atom (text ++ [c]))
      else some (.atom text :: (enter c).1, (enter c).2)
  | string units, c =>
      if c = '"' then some ([.string units], between)
      else if c = '\\' then some ([], escape units)
      else if c.toNat < 0x20 then none
      else some ([], string (units ++ codeUnits c))
  | escape units, c =>
      if c = 'u' then some ([], hex units [])
      else (escaped c).map fun u => ([], string (units ++ [u]))
  | hex units read, c =>
      (hexValue c).map fun d =>
        if read.length < 3 then ([], hex units (read ++ [d]))
        else ([], string (units ++ [.ofNat (value 16 (read ++ [d]))]))

/-- The tokens of a text, unless it breaks off in a string. -/
def lex : Lexing → List Char → Option (List Token)
  | .between, [] => some []
  | .atom text, [] => some [.atom text]
  | _, [] => none
  | mode, c :: cs =>
      (mode.next c).bind fun (ts, mode) => (lex mode cs).map (ts ++ ·)

/-! ### Tokens that are written are read -/

section steps
variable {mode : Lexing} {c : Char} {cs : List Char}

theorem lex_cons : lex mode (c :: cs) =
    (mode.next c).bind fun (ts, mode) => (lex mode cs).map (ts ++ ·) := by
  cases mode <;> rfl

/-- A character that does not end a token. -/
theorem lex_silent (mode' : Lexing) (h : mode.next c = some ([], mode')) :
    lex mode (c :: cs) = lex mode' cs := by
  rw [lex_cons, h]
  exact Option.map_id'

theorem lex_emits (ts : List Token) (mode' : Lexing) (h : mode.next c = some (ts, mode')) :
    lex mode (c :: cs) = (lex mode' cs).map (ts ++ ·) := by
  rw [lex_cons, h]
  rfl

end steps

section strings
variable {u v : UInt16} {us units : JsString} {cs : List Char}

theorem lex_hexDigit {read : List ℕ} {d : ℕ} (hread : read.length < 3) (hd : d < 16) :
    lex (.hex units read) (Nat.digitChar d :: cs) = lex (.hex units (read ++ [d])) cs := by
  apply lex_silent
  rw [Lexing.next, hexValue_digitChar d hd, Option.map_some, if_pos hread]

theorem lex_lastHexDigit {read : List ℕ} {d : ℕ} (hread : read.length = 3) (hd : d < 16) :
    lex (.hex units read) (Nat.digitChar d :: cs) =
      lex (.string (units ++ [.ofNat (value 16 (read ++ [d]))])) cs := by
  apply lex_silent
  rw [Lexing.next, hexValue_digitChar d hd, Option.map_some, if_neg (by omega)]

/-- Four digits of base 16 are one unit. -/
theorem lex_hex {a b c d : ℕ} (ha : a < 16) (hb : b < 16) (hc : c < 16) (hd : d < 16) :
    lex (.hex units []) ([a, b, c, d].map Nat.digitChar ++ cs) =
      lex (.string (units ++ [.ofNat (value 16 [a, b, c, d])])) cs :=
  (lex_hexDigit (by simp) ha).trans <| (lex_hexDigit (by simp) hb).trans <|
    (lex_hexDigit (by simp) hc).trans (lex_lastHexDigit (by simp) hd)

theorem lex_escape {c : Char} (h : escapeChar u = some c) :
    lex (.string units) ('\\' :: c :: cs) = lex (.string (units ++ [u])) cs := by
  obtain ⟨hescaped, hc⟩ := escaped_escapeChar h
  rw [lex_silent (.escape units) (by simp [Lexing.next]),
    lex_silent (.string (units ++ [u]))]
  rw [Lexing.next, if_neg hc, hescaped, Option.map_some]

theorem digits_four (n : ℕ) : digits 16 4 n =
    [n / 16 ^ 3 % 16, n / 16 ^ 2 % 16, n / 16 % 16, n % 16] := by
  simp [digits, Nat.div_div_eq_div_mul]

/-- A unit that is escaped by its number. -/
theorem lex_number :
    lex (.string units) ('\\' :: 'u' :: ((digits 16 4 u.toNat).map Nat.digitChar ++ cs)) =
      lex (.string (units ++ [u])) cs := by
  have hvalue : UInt16.ofNat (value 16 (digits 16 4 u.toNat)) = u := by
    apply ofNat_eq
    rw [value_digits]
    exact Nat.mod_eq_of_lt u.toNat_lt
  have hlt : ∀ n, n % 16 < 16 := fun n => Nat.mod_lt n (by decide)
  rw [lex_silent (.escape units) (by simp [Lexing.next]),
    lex_silent (.hex units []) (by simp [Lexing.next]), digits_four,
    lex_hex (hlt _) (hlt _) (hlt _) (hlt _), ← digits_four, hvalue]

/-- A character that is written as it is. -/
theorem lex_plain {c : Char} (hquote : c ≠ '"') (hbackslash : c ≠ '\\')
    (hcontrol : ¬c.toNat < 0x20) :
    lex (.string units) (c :: cs) = lex (.string (units ++ codeUnits c)) cs := by
  apply lex_silent
  rw [Lexing.next, if_neg hquote, if_neg hbackslash, if_neg hcontrol]

theorem lex_quoteUnit :
    lex (.string units) (quoteUnit u ++ cs) = lex (.string (units ++ [u])) cs := by
  cases hescape : escapeChar u with
  | some c =>
      rw [quoteUnit, hescape]
      exact lex_escape hescape
  | none =>
      rw [quoteUnit, hescape]
      change lex _ ((if _ then _ else _) ++ _) = _
      by_cases hnumber : u.toNat < 0x20 ∨ IsHigh u ∨ IsLow u
      · rw [if_pos hnumber]
        exact lex_number
      · simp only [not_or] at hnumber
        obtain ⟨hcontrol, hhigh, hlow⟩ := hnumber
        obtain ⟨hquote, hbackslash⟩ := escapeChar_none hescape
        have hchar := ofNat_unit hhigh hlow
        have hne : ∀ (c : Char) (v : UInt16), c.toNat = v.toNat → u ≠ v →
            Char.ofNat u.toNat ≠ c := by
          rintro c v hc huv rfl
          exact huv (UInt16.toNat_inj.mp (hchar ▸ hc))
        rw [if_neg (by simp only [not_or]; exact ⟨hcontrol, hhigh, hlow⟩), List.singleton_append,
          lex_plain (hne _ 34 rfl hquote) (hne _ 92 rfl hbackslash) (by rwa [hchar]),
          codeUnits_ofNat hhigh hlow]

theorem lex_pairChar (hu : IsHigh u) (hv : IsLow v) :
    lex (.string units) (pairChar u v :: cs) = lex (.string (units ++ [u, v])) cs := by
  have hbound : 0x10000 ≤ (pairChar u v).toNat := by
    rw [pairChar_toNat hu hv]
    omega
  rw [lex_plain, codeUnits_pairChar hu hv]
  · rintro heq
    exact absurd hbound (by rw [heq]; decide)
  · rintro heq
    exact absurd hbound (by rw [heq]; decide)
  · omega

theorem lex_quote : lex (.string units) ('"' :: cs) =
    (lex .between cs).map (Token.string units :: ·) :=
  lex_emits [.string units] .between rfl

/-- The units between two quotes are read. -/
theorem lex_quoteUnits (us units : JsString) :
    lex (.string units) (quoteUnits us ++ '"' :: cs) =
      (lex .between cs).map (Token.string (units ++ us) :: ·) := by
  induction us using quoteUnits.induct generalizing units with
  | case1 =>
      rw [quoteUnits, List.nil_append, List.append_nil]
      exact lex_quote
  | case2 u =>
      rw [quoteUnits, lex_quoteUnit]
      exact lex_quote
  | case3 u v us hpair ih =>
      rw [quoteUnits, if_pos hpair, List.cons_append, lex_pairChar hpair.1 hpair.2, ih]
      simp
  | case4 u v us hpair ih =>
      rw [quoteUnits, if_neg hpair, List.append_assoc, lex_quoteUnit, ih]
      simp

end strings

/-! ### Lists of tokens -/

def Token.IsAtom : Token → Prop
  | atom _ => True
  | _ => False

instance (t : Token) : Decidable t.IsAtom := by cases t <;> unfold Token.IsAtom <;> infer_instance

/-- An atom is not empty, and all its characters are of an atom. -/
def Token.Proper : Token → Prop
  | atom text => text ≠ [] ∧ ∀ c ∈ text, Json.IsAtom c
  | _ => True

/-- No atom is followed by an atom. -/
def Apart : List Token → Prop
  | t :: t' :: ts => ¬(t.IsAtom ∧ t'.IsAtom) ∧ Apart (t' :: ts)
  | _ => True

section lists
variable {t : Token} {ts : List Token} {text text' cs : List Char}

theorem Apart.tail (h : Apart (t :: ts)) : Apart ts := by
  cases ts with
  | nil => trivial
  | cons t' ts => exact h.2

theorem Apart.cons (ht : ¬t.IsAtom) (h : Apart ts) : Apart (t :: ts) := by
  cases ts with
  | nil => trivial
  | cons t' ts => exact ⟨fun hatoms => ht hatoms.1, h⟩

/-- A token that is no atom starts with a character that ends an atom. -/
theorem text_head (ht : ¬t.IsAtom) : ∃ c cs, t.text = c :: cs ∧ ¬IsAtom c := by
  cases t with
  | atom text => exact absurd trivial ht
  | _ => exact ⟨_, _, rfl, by decide⟩

theorem lex_atom (h : ∀ c ∈ text', IsAtom c) :
    lex (.atom text) (text' ++ cs) = lex (.atom (text ++ text')) cs := by
  induction text' generalizing text with
  | nil => rw [List.nil_append, List.append_nil]
  | cons c text' ih =>
      have hc : IsAtom c := h c List.mem_cons_self
      rw [List.cons_append, lex_silent (.atom (text ++ [c])),
        ih fun c hc => h c (List.mem_cons_of_mem _ hc), List.append_assoc, List.singleton_append]
      rw [Lexing.next, if_pos hc]

/-- An atom ends where the next token starts. -/
theorem lex_atom_end {c : Char} (hc : ¬IsAtom c) :
    lex (.atom text) (c :: cs) = (lex .between (c :: cs)).map (Token.atom text :: ·) := by
  have hbetween : lex .between (c :: cs) = (lex (enter c).2 cs).map ((enter c).1 ++ ·) :=
    lex_emits _ _ rfl
  rw [hbetween, Option.map_map]
  apply lex_emits (.atom text :: (enter c).1) (enter c).2
  rw [Lexing.next, if_neg hc]

theorem lex_first_atom {c : Char} (hc : IsAtom c) :
    lex .between (c :: cs) = lex (.atom [c]) cs := by
  apply lex_silent
  rw [Lexing.next, enter, if_neg hc.1, if_neg hc.2.2, hc.2.1]

theorem lex_text (hproper : ∀ t ∈ ts, t.Proper) (hapart : Apart ts) :
    lex .between (ts.flatMap Token.text) = some ts := by
  induction ts with
  | nil => rfl
  | cons t ts ih =>
      have hts := ih (fun t ht => hproper t (List.mem_cons_of_mem _ ht)) hapart.tail
      rw [List.flatMap_cons]
      cases t with
      | string units =>
          rw [Token.text, List.cons_append, List.append_assoc, List.singleton_append,
            lex_silent (.string []) rfl, lex_quoteUnits, hts]
          rfl
      | atom text =>
          obtain ⟨hne, htext⟩ := hproper _ List.mem_cons_self
          obtain ⟨c, text, rfl⟩ := List.exists_cons_of_ne_nil hne
          rw [Token.text, List.cons_append, lex_first_atom (htext c List.mem_cons_self),
            lex_atom fun c hc => htext c (List.mem_cons_of_mem _ hc), List.singleton_append]
          cases ts with
          | nil => rfl
          | cons t ts =>
              obtain ⟨c', cs, hcs, hc'⟩ := text_head fun ht => hapart.1 ⟨trivial, ht⟩
              rw [List.flatMap_cons, hcs, List.cons_append] at hts ⊢
              rw [lex_atom_end hc', hts]
              rfl
      | _ =>
          rw [Token.text, List.singleton_append, lex_emits _ _ rfl, hts]
          rfl

end lists
end CiroFuel.Json
