import CiroFuel.Numerals
import Mathlib.Data.Rat.Defs
import Mathlib.Algebra.Field.Rat
import Mathlib.Tactic.ByContra

/-!
# Number literals

The numbers of JSON: a sign, digits without a leading zero, a fraction and an exponent.
A literal is written without an empty fraction and without an exponent of zero, and
what is written is read as the same literal.
-/
namespace CiroFuel.Json
open Numerals

/-- A sign, the digits on both sides of the point, and a power of ten. -/
structure Literal where
  negative : Bool
  whole : List ℕ
  fraction : List ℕ
  exponent : ℤ
deriving DecidableEq

/-- The number that a literal denotes. -/
def Literal.value (l : Literal) : ℚ :=
  (if l.negative then -1 else 1) * Numerals.value 10 (l.whole ++ l.fraction) *
    10 ^ (l.exponent - l.fraction.length)

/-! ### Writing -/

def fractionText (fraction : List ℕ) : List Char :=
  if fraction = [] then [] else '.' :: digitsText fraction

def exponentText (exponent : ℤ) : List Char :=
  if exponent = 0 then []
  else 'e' :: (if exponent < 0 then '-' else '+') :: digitsText (decimal exponent.natAbs)

def Literal.unsignedText (l : Literal) : List Char :=
  digitsText l.whole ++ (fractionText l.fraction ++ exponentText l.exponent)

def Literal.text (l : Literal) : List Char :=
  if l.negative then '-' :: l.unsignedText else l.unsignedText

/-! ### Reading -/

/-- The digits at the start of a text, and what follows them. -/
def readDigits (cs : List Char) : List ℕ × List Char :=
  ((cs.takeWhile Char.isDigit).map digitValue, cs.dropWhile Char.isDigit)

/-- A text that is all digits. -/
def readNat (cs : List Char) : Option ℕ :=
  match readDigits cs with
  | (d :: ds, []) => some (Numerals.value 10 (d :: ds))
  | _ => none

def readFraction : List Char → Option (List ℕ × List Char)
  | '.' :: cs =>
      match readDigits cs with
      | ([], _) => none
      | (d :: ds, rest) => some (d :: ds, rest)
  | cs => some ([], cs)

def readSigned : List Char → Option ℤ
  | '-' :: cs => (readNat cs).map fun n : ℕ => -(n : ℤ)
  | '+' :: cs => (readNat cs).map Int.ofNat
  | cs => (readNat cs).map Int.ofNat

def readExponent : List Char → Option ℤ
  | [] => some 0
  | c :: cs => if c = 'e' ∨ c = 'E' then readSigned cs else none

def readUnsigned (negative : Bool) (cs : List Char) : Option Literal :=
  match readDigits cs with
  | ([], _) => none
  | (d :: ds, rest) =>
      if d = 0 ∧ ds ≠ [] then none
      else (readFraction rest).bind fun (fraction, rest) =>
        (readExponent rest).map fun exponent => ⟨negative, d :: ds, fraction, exponent⟩

def readLiteral : List Char → Option Literal
  | '-' :: cs => readUnsigned true cs
  | cs => readUnsigned false cs

/-! ### What is written is read -/

/-- The text does not go on with a digit. -/
def Stops (cs : List Char) : Prop := ∀ c ∈ cs.head?, ¬c.isDigit

theorem stops_nil : Stops [] := by simp [Stops]

theorem stops_cons {c : Char} {cs : List Char} (h : ¬c.isDigit) : Stops (c :: cs) := by
  simpa [Stops] using h

section digits
variable {ds : List ℕ} {rest : List Char}

theorem readDigits_append (hds : ∀ d ∈ ds, d < 10) (hrest : Stops rest) :
    readDigits (digitsText ds ++ rest) = (ds, rest) := by
  have htake : rest.takeWhile Char.isDigit = [] ∧ rest.dropWhile Char.isDigit = rest := by
    cases rest with
    | nil => exact ⟨rfl, rfl⟩
    | cons c rest =>
        have hc : ¬c.isDigit := hrest c rfl
        exact ⟨List.takeWhile_cons_of_neg hc, List.dropWhile_cons_of_neg hc⟩
  have hall : ∀ c ∈ digitsText ds, c.isDigit := fun c hc => isDigit_digitsText hds hc
  rw [readDigits, List.takeWhile_append_of_pos hall, List.dropWhile_append_of_pos hall, htake.1,
    htake.2, List.append_nil, map_digitValue hds]

theorem readNat_decimal (n : ℕ) : readNat (digitsText (decimal n)) = some n := by
  have hread := readDigits_append (fun d hd => decimal_lt n hd) stops_nil
  rw [List.append_nil] at hread
  rw [readNat, hread]
  obtain ⟨d, ds, hds⟩ := List.exists_cons_of_ne_nil (decimal_ne_nil n)
  rw [hds]
  change some (Numerals.value 10 (d :: ds)) = some n
  rw [← hds, value_decimal]

end digits

section parts
variable {fraction : List ℕ} {exponent : ℤ} {rest : List Char}

theorem stops_exponentText (exponent : ℤ) : Stops (exponentText exponent) := by
  by_cases hzero : exponent = 0
  · rw [exponentText, if_pos hzero]
    exact stops_nil
  · rw [exponentText, if_neg hzero]
    exact stops_cons (by decide)

theorem stops_fractionText (h : Stops rest) : Stops (fractionText fraction ++ rest) := by
  rw [fractionText]
  split_ifs
  · exact h
  · exact stops_cons (by decide)

theorem readExponent_text (exponent : ℤ) :
    readExponent (exponentText exponent) = some exponent := by
  by_cases hzero : exponent = 0
  · rw [exponentText, if_pos hzero, hzero]
    rfl
  · rw [exponentText, if_neg hzero, readExponent, if_pos (.inl rfl)]
    by_cases hneg : exponent < 0
    · rw [if_pos hneg, readSigned, readNat_decimal, Option.map_some]
      congr 1
      omega
    · rw [if_neg hneg, readSigned, readNat_decimal, Option.map_some, Int.ofNat_eq_natCast]
      congr 1
      omega

theorem readFraction_text (hfraction : ∀ d ∈ fraction, d < 10) (exponent : ℤ) :
    readFraction (fractionText fraction ++ exponentText exponent) =
      some (fraction, exponentText exponent) := by
  cases fraction with
  | nil =>
      rw [fractionText, if_pos rfl, List.nil_append, exponentText]
      split_ifs <;> rfl
  | cons d ds =>
      have hread := readDigits_append hfraction (stops_exponentText exponent)
      rw [fractionText, if_neg (List.cons_ne_nil _ _), List.cons_append, readFraction, hread]

end parts

/-- Digits without a leading zero, and at least one before the point. -/
structure Literal.Plain (l : Literal) : Prop where
  whole_lt : ∀ d ∈ l.whole, d < 10
  whole_ne_nil : l.whole ≠ []
  no_leading_zero : l.whole.head? = some 0 → l.whole = [0]
  fraction_lt : ∀ d ∈ l.fraction, d < 10

theorem Literal.Plain.readUnsigned_text {l : Literal} (hl : l.Plain) :
    readUnsigned l.negative l.unsignedText = some l := by
  have hstops : Stops (fractionText l.fraction ++ exponentText l.exponent) :=
    stops_fractionText (stops_exponentText l.exponent)
  have hread := readDigits_append hl.whole_lt hstops
  obtain ⟨d, ds, hds⟩ := List.exists_cons_of_ne_nil hl.whole_ne_nil
  have hlead : ¬(d = 0 ∧ ds ≠ []) := by
    rintro ⟨rfl, hne⟩
    have hzero := hl.no_leading_zero (by rw [hds]; rfl)
    rw [hds] at hzero
    exact hne (List.cons.inj hzero).2
  rw [readUnsigned, unsignedText, hread, hds]
  change (if d = 0 ∧ ds ≠ [] then none else _) = _
  rw [if_neg hlead, readFraction_text hl.fraction_lt, Option.bind_some]
  change (readExponent _).map _ = _
  rw [readExponent_text, Option.map_some, ← hds]

/-- A literal is read from its text. -/
theorem Literal.Plain.read_text {l : Literal} (hl : l.Plain) : readLiteral l.text = some l := by
  cases hneg : l.negative with
  | true =>
      rw [Literal.text, if_pos hneg, readLiteral, ← hneg]
      exact hl.readUnsigned_text
  | false =>
      obtain ⟨d, ds, hds⟩ := List.exists_cons_of_ne_nil hl.whole_ne_nil
      have hd : d < 10 := hl.whole_lt d (by rw [hds]; exact List.mem_cons_self)
      have hhead : ∃ cs, l.unsignedText = Nat.digitChar d :: cs := ⟨_, by
        rw [Literal.unsignedText, hds]
        rfl⟩
      obtain ⟨cs, hcs⟩ := hhead
      have hminus : ∀ d < 10, Nat.digitChar d ≠ '-' := by decide
      rw [Literal.text, hneg, if_neg Bool.false_ne_true, hcs, readLiteral, ← hcs, ← hneg]
      · exact hl.readUnsigned_text
      · rintro cs' heq
        exact hminus d hd (List.cons.inj heq).1

theorem Literal.Plain.text_ne_nil {l : Literal} (hl : l.Plain) : l.text ≠ [] := by
  obtain ⟨d, ds, hds⟩ := List.exists_cons_of_ne_nil hl.whole_ne_nil
  rw [Literal.text, Literal.unsignedText, hds]
  split_ifs <;> exact List.cons_ne_nil _ _

/-- No character of a number ends it. -/
theorem Literal.Plain.text_all {l : Literal} (hl : l.Plain) {p : Char → Prop}
    (hdigit : ∀ c : Char, c.isDigit → p c) (hsign : p '-') (hplus : p '+') (hpoint : p '.')
    (he : p 'e') : ∀ c ∈ l.text, p c := by
  have hdigits : ∀ ds : List ℕ, (∀ d ∈ ds, d < 10) → ∀ c ∈ digitsText ds, p c :=
    fun ds hds c hc => hdigit c (isDigit_digitsText hds hc)
  have hfraction : ∀ c ∈ fractionText l.fraction, p c := by
    rw [fractionText]
    split_ifs
    · simp
    · exact List.forall_mem_cons.mpr ⟨hpoint, hdigits _ hl.fraction_lt⟩
  have hexponent : ∀ c ∈ exponentText l.exponent, p c := by
    rw [exponentText]
    split_ifs
    · simp
    · exact List.forall_mem_cons.mpr ⟨he, List.forall_mem_cons.mpr
        ⟨hsign, hdigits _ fun d hd => decimal_lt _ hd⟩⟩
    · exact List.forall_mem_cons.mpr ⟨he, List.forall_mem_cons.mpr
        ⟨hplus, hdigits _ fun d hd => decimal_lt _ hd⟩⟩
  have hunsigned : ∀ c ∈ l.unsignedText, p c :=
    List.forall_mem_append.mpr ⟨hdigits _ hl.whole_lt,
      List.forall_mem_append.mpr ⟨hfraction, hexponent⟩⟩
  rw [Literal.text]
  split_ifs
  · exact List.forall_mem_cons.mpr ⟨hsign, hunsigned⟩
  · exact hunsigned

end CiroFuel.Json
