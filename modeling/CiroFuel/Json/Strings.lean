import CiroFuel.Numerals

/-!
# Strings

A string is a list of code units of 16 bits. A character beyond the first plane takes
two of them, a high surrogate and a low one. In a string of JSON the quote, the
backslash, control characters and surrogates that stand alone are escaped.
-/
namespace CiroFuel.Json
open Numerals

abbrev JsString := List UInt16

/-! ### Code units -/

/-- The code units of a character. -/
def codeUnits (c : Char) : List UInt16 :=
  if c.toNat < 0x10000 then [.ofNat c.toNat]
  else
    [.ofNat (0xD800 + (c.toNat - 0x10000) / 0x400), .ofNat (0xDC00 + (c.toNat - 0x10000) % 0x400)]

/-- The string of a text. -/
def ofText (cs : List Char) : JsString := cs.flatMap codeUnits

def IsHigh (u : UInt16) : Prop := 0xD800 ≤ u.toNat ∧ u.toNat < 0xDC00

def IsLow (u : UInt16) : Prop := 0xDC00 ≤ u.toNat ∧ u.toNat < 0xE000

instance (u : UInt16) : Decidable (IsHigh u) := inferInstanceAs (Decidable (_ ∧ _))

instance (u : UInt16) : Decidable (IsLow u) := inferInstanceAs (Decidable (_ ∧ _))

/-- The character of two surrogates. -/
def pairChar (u v : UInt16) : Char :=
  .ofNat (0x10000 + (u.toNat - 0xD800) * 0x400 + (v.toNat - 0xDC00))

section codeUnits
variable {u v : UInt16}

theorem toNat_ofNat {n : ℕ} (h : n.isValidChar) : (Char.ofNat n).toNat = n := by
  rw [Char.ofNat, dif_pos h]
  rfl

theorem ofNat_eq {n : ℕ} (h : n = u.toNat) : UInt16.ofNat n = u := by
  rw [h, UInt16.ofNat_toNat]

theorem ofNat_unit (hhigh : ¬IsHigh u) (hlow : ¬IsLow u) :
    (Char.ofNat u.toNat).toNat = u.toNat := by
  have hbound : u.toNat < 0x10000 := u.toNat_lt
  simp only [IsHigh, IsLow] at hhigh hlow
  apply toNat_ofNat
  simp only [Nat.isValidChar]
  omega

theorem codeUnits_ofNat (hhigh : ¬IsHigh u) (hlow : ¬IsLow u) :
    codeUnits (Char.ofNat u.toNat) = [u] := by
  have hchar := ofNat_unit hhigh hlow
  rw [codeUnits, hchar, if_pos u.toNat_lt, UInt16.ofNat_toNat]

theorem pairChar_toNat (hu : IsHigh u) (hv : IsLow v) :
    (pairChar u v).toNat = 0x10000 + (u.toNat - 0xD800) * 0x400 + (v.toNat - 0xDC00) := by
  obtain ⟨hu, hu'⟩ := hu
  obtain ⟨hv, hv'⟩ := hv
  apply toNat_ofNat
  simp only [Nat.isValidChar]
  omega

theorem codeUnits_pairChar (hu : IsHigh u) (hv : IsLow v) : codeUnits (pairChar u v) = [u, v] := by
  rw [codeUnits, pairChar_toNat hu hv]
  obtain ⟨hu, hu'⟩ := hu
  obtain ⟨hv, hv'⟩ := hv
  rw [if_neg (by omega), ofNat_eq (u := u) (by omega), ofNat_eq (u := v) (by omega)]

end codeUnits

/-! ### Quoting -/

/-- The unit that an escaped character stands for. -/
def escaped : Char → Option UInt16
  | '"' => some 34
  | '\\' => some 92
  | '/' => some 47
  | 'b' => some 8
  | 'f' => some 12
  | 'n' => some 10
  | 'r' => some 13
  | 't' => some 9
  | _ => none

/-- The character that a unit is escaped with, when there is one. -/
def escapeChar (u : UInt16) : Option Char :=
  if u = 8 then some 'b'
  else if u = 9 then some 't'
  else if u = 10 then some 'n'
  else if u = 12 then some 'f'
  else if u = 13 then some 'r'
  else if u = 34 then some '"'
  else if u = 92 then some '\\'
  else none

def hexValue (c : Char) : Option ℕ :=
  if '0' ≤ c ∧ c ≤ '9' then some (c.toNat - '0'.toNat)
  else if 'a' ≤ c ∧ c ≤ 'f' then some (c.toNat - 'a'.toNat + 10)
  else if 'A' ≤ c ∧ c ≤ 'F' then some (c.toNat - 'A'.toNat + 10)
  else none

/-- A unit that stands alone. -/
def quoteUnit (u : UInt16) : List Char :=
  match escapeChar u with
  | some c => ['\\', c]
  | none =>
      if u.toNat < 0x20 ∨ IsHigh u ∨ IsLow u then
        '\\' :: 'u' :: (digits 16 4 u.toNat).map Nat.digitChar
      else [.ofNat u.toNat]

/-- What stands between the quotes. -/
def quoteUnits : JsString → List Char
  | [] => []
  | [u] => quoteUnit u
  | u :: v :: us =>
      if IsHigh u ∧ IsLow v then pairChar u v :: quoteUnits us
      else quoteUnit u ++ quoteUnits (v :: us)

theorem hexValue_digitChar : ∀ d < 16, hexValue (Nat.digitChar d) = some d := by decide

theorem mapM_hexValue {ds : List ℕ} (h : ∀ d ∈ ds, d < 16) :
    (digitsText ds).mapM hexValue = some ds := by
  induction ds with
  | nil => rfl
  | cons d ds ih =>
      have hd : hexValue (Nat.digitChar d) = some d := hexValue_digitChar d (h d List.mem_cons_self)
      have hds : (digitsText ds).mapM hexValue = some ds :=
        ih fun e he => h e (List.mem_cons_of_mem _ he)
      rw [digitsText, List.map_cons, List.mapM_cons, hd, ← digitsText, hds]
      rfl

theorem escaped_escapeChar {u : UInt16} {c : Char} (h : escapeChar u = some c) :
    escaped c = some u ∧ c ≠ 'u' := by
  rw [escapeChar] at h
  split_ifs at h with h₁ h₂ h₃ h₄ h₅ h₆ h₇ <;> cases h <;> subst u <;> exact ⟨rfl, by decide⟩

/-- What is not escaped is no quote and no backslash. -/
theorem escapeChar_none {u : UInt16} (h : escapeChar u = none) : u ≠ 34 ∧ u ≠ 92 := by
  constructor
  · rintro rfl
    cases h
  · rintro rfl
    cases h

end CiroFuel.Json
