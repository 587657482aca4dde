import CiroFuel.LitreBalances
import CiroFuel.Numerals

/-!
# Card identifiers

Readers render the identifier of one card differently: in upper or lower case, with
or without separators, in hexadecimal or as a decimal number of ten digits, and in
either byte order. Normalizing takes all of this back except for the byte order.
Lookups try both orders.
-/
namespace CiroFuel.Cards
open Numerals

def DECIMAL_UID_LENGTH : ℕ := 10
def MAX_UINT32 : ℕ := 0xffffffff

/-- A number of ten digits is always a safe integer. -/
def normalizeCardUid (raw : String) : String :=
  let stripped := (raw.toList.filter Char.isAlphanum).map Char.toUpper
  if stripped.isEmpty then ""
  else if stripped.length = DECIMAL_UID_LENGTH && stripped.all Char.isDigit then
    let value := Nat.ofDigitChars 10 stripped 0
    if value ≤ MAX_UINT32 then
      String.ofList (((Nat.toDigits 16 value).map Char.toUpper).leftpad 8 '0')
    else String.ofList stripped
  else String.ofList stripped

def isHexDigit (c : Char) : Bool := c.isDigit || 'A' ≤ c && c ≤ 'F'

def pairs : List Char → List (List Char)
  | a :: b :: cs => [a, b] :: pairs cs
  | _ => []

def reverseCardUidBytes (uid : String) : Option String :=
  let cs := uid.toList
  if cs.length < 2 || cs.length % 2 ≠ 0 || !cs.all isHexDigit then none
  else some (String.ofList (pairs cs).reverse.flatten)

def cardUidLookupCandidates (raw : String) : List String :=
  let canonical := normalizeCardUid raw
  if canonical = "" then []
  else
    let rawTrimmed := trim raw
    let candidates :=
      if rawTrimmed ≠ "" && rawTrimmed ≠ canonical then [canonical, rawTrimmed] else [canonical]
    match reverseCardUidBytes canonical with
    | none => candidates
    | some reversed => if candidates.contains reversed then candidates else candidates ++ [reversed]

/-! ### Cards and their readings -/

/-- A card and the bytes of its identifier. No card carries five of them. -/
@[ext] structure Card where
  uid : List UInt8
  present : uid ≠ []
  width : uid.length ≠ 5

inductive ByteOrder where
  | forward | backward
deriving DecidableEq, Repr

inductive Radix where
  | hexadecimal | decimal
deriving DecidableEq, Repr

/-- The bytes as a reader of the given byte order puts them. -/
def Card.bytes (card : Card) : ByteOrder → List ℕ
  | .forward => card.uid.map UInt8.toNat
  | .backward => (card.uid.map UInt8.toNat).reverse

def hexChar (n : ℕ) : Char := n.digitChar.toUpper

def hexDigits (bytes : List ℕ) : List Char :=
  bytes.flatMap fun b => [hexChar (b / 16), hexChar (b % 16)]

/-- The digits that a reader shows. -/
def Card.shown (card : Card) (order : ByteOrder) : Radix → List Char
  | .hexadecimal => hexDigits (card.bytes order)
  | .decimal => (Nat.toDigits 10 (value 256 (card.bytes order))).leftpad DECIMAL_UID_LENGTH '0'

/-- The text shows the digits in any case, with separators anywhere. -/
inductive Dresses : List Char → List Char → Prop where
  | nil : Dresses [] []
  | separator {ds cs : List Char} {c : Char} (hc : c.isAlphanum = false) (h : Dresses ds cs) :
      Dresses ds (c :: cs)
  | digit {ds cs : List Char} {c : Char} (hc : c.isAlphanum = true) (h : Dresses ds cs) :
      Dresses (c.toUpper :: ds) (c :: cs)

/-- What a reader makes of a card. The decimal number is that of four bytes. -/
structure Reading where
  card : Card
  order : ByteOrder
  radix : Radix
  raw : String
  four : radix = .decimal → card.uid.length = 4
  dresses : Dresses (card.shown order radix) raw.toList

def Reading.bytes (r : Reading) : List ℕ := r.card.bytes r.order

theorem dresses_iff {ds cs : List Char} :
    Dresses ds cs ↔ (cs.filter Char.isAlphanum).map Char.toUpper = ds := by
  constructor
  · intro h
    induction h with
    | nil => rfl
    | separator hc _ ih => simpa [hc] using ih
    | digit hc _ ih => simpa [hc] using ih
  · rintro rfl
    induction cs with
    | nil => exact .nil
    | cons c cs ih =>
        cases hc : c.isAlphanum with
        | false =>
            rw [List.filter_cons_of_neg (by simp [hc])]
            exact .separator hc ih
        | true =>
            rw [List.filter_cons_of_pos hc, List.map_cons]
            exact .digit hc ih

/-! ### Digits -/

section digits

theorem isHexDigit_hexChar : ∀ n < 16, isHexDigit (hexChar n) = true := by
  decide

theorem bytes_lt (card : Card) (order : ByteOrder) : ∀ b ∈ card.bytes order, b < 256 := by
  intro b hb
  have hmem : b ∈ card.uid.map UInt8.toNat := by
    cases order with
    | forward => exact hb
    | backward => exact List.mem_reverse.mp hb
  obtain ⟨x, -, rfl⟩ := List.mem_map.mp hmem
  exact x.toNat_lt

@[simp] theorem length_bytes (card : Card) (order : ByteOrder) :
    (card.bytes order).length = card.uid.length := by
  cases order with
  | forward => simp [Card.bytes]
  | backward => simp [Card.bytes]

theorem length_hexDigits (bytes : List ℕ) : (hexDigits bytes).length = 2 * bytes.length := by
  induction bytes with
  | nil => rfl
  | cons b bytes ih =>
      rw [hexDigits, List.flatMap_cons, List.length_append, ← hexDigits, ih]
      simp only [List.length_cons, List.length_nil]
      omega

/-- The hexadecimal digits of a number whose digits in base 256 are the bytes. -/
theorem hexDigits_eq {bytes : List ℕ} (h : ∀ b ∈ bytes, b < 256) :
    hexDigits bytes = (digits 16 (2 * bytes.length) (value 256 bytes)).map hexChar := by
  have hdigits := digits_value (b := 16) (by decide) h
  rw [hdigits, List.map_flatMap]
  rfl

/-- The decimal reading of four bytes: its digits, and the number they stand for. -/
theorem shown_decimal {card : Card} (order : ByteOrder) (h : card.uid.length = 4) :
    (card.shown order .decimal).length = DECIMAL_UID_LENGTH ∧
      (card.shown order .decimal).all Char.isDigit = true ∧
      Nat.ofDigitChars 10 (card.shown order .decimal) 0 = value 256 (card.bytes order) ∧
      value 256 (card.bytes order) ≤ MAX_UINT32 := by
  have hvalue : value 256 (card.bytes order) < 256 ^ 4 := by
    have hlt := value_lt (bytes_lt card order)
    rwa [length_bytes, h] at hlt
  have hpad : card.shown order .decimal =
      (digits 10 10 (value 256 (card.bytes order))).map Nat.digitChar :=
    leftpad_toDigits (by decide) (hvalue.trans (by decide))
  refine ⟨?_, ?_, ?_, Nat.le_of_lt_succ hvalue⟩
  · rw [hpad, List.length_map, length_digits]
    rfl
  · rw [hpad, List.all_map, List.all_eq_true]
    intro d hd
    simpa using digits_lt (by decide) hd
  · rw [Card.shown, List.leftpad, Nat.ofDigitChars_append, Nat.ofDigitChars_replicate_zero,
      Nat.mul_zero, Nat.ofDigitChars_ten_toDigits]

/-- The eight hexadecimal digits that a number is converted to. -/
theorem leftpad_upper {n : ℕ} (h : n < 16 ^ 8) :
    ((Nat.toDigits 16 n).map Char.toUpper).leftpad 8 '0' = (digits 16 8 n).map hexChar := by
  have hmap : ∀ cs : List Char,
      (cs.map Char.toUpper).leftpad 8 '0' = (cs.leftpad 8 '0').map Char.toUpper := by
    intro cs
    simp [List.leftpad]
  rw [hmap, leftpad_toDigits (by decide) h, List.map_map]
  rfl

/-- The hexadecimal form that the number of four bytes is converted to. -/
theorem converted_eq {card : Card} {order : ByteOrder} (h : card.uid.length = 4) :
    ((Nat.toDigits 16 (value 256 (card.bytes order))).map Char.toUpper).leftpad 8 '0' =
      hexDigits (card.bytes order) := by
  have hvalue : value 256 (card.bytes order) < 16 ^ 8 := by
    have hlt := value_lt (bytes_lt card order)
    rw [length_bytes, h] at hlt
    exact hlt.trans_le (by decide)
  rw [leftpad_upper hvalue, hexDigits_eq (bytes_lt card order), length_bytes, h]

end digits

/-! ### What normalizing makes of a reading -/

/-- Case, separators and radix are taken back, the byte order is not. -/
theorem normalizeCardUid_reading (r : Reading) :
    normalizeCardUid r.raw = String.ofList (hexDigits r.bytes) := by
  have hstripped := dresses_iff.mp r.dresses
  have hlength : (hexDigits r.bytes).length = 2 * r.card.uid.length := by
    rw [length_hexDigits, Reading.bytes, length_bytes]
  have hpresent : r.card.uid.length ≠ 0 := by
    simpa using r.card.present
  simp only [normalizeCardUid, hstripped]
  cases hradix : r.radix with
  | hexadecimal =>
      have hshown : r.card.shown r.order .hexadecimal = hexDigits r.bytes := rfl
      have hwidth := r.card.width
      rw [hshown, if_neg, if_neg]
      · rw [Bool.and_eq_true, decide_eq_true_eq, hlength, DECIMAL_UID_LENGTH]
        omega
      · rw [List.isEmpty_iff_length_eq_zero, hlength]
        omega
  | decimal =>
      have hfour := r.four hradix
      obtain ⟨hten, hdigits, hnumber, hmax⟩ := shown_decimal r.order hfour
      rw [if_neg, if_pos, hnumber, if_pos hmax, converted_eq hfour]
      · rfl
      · rw [hdigits, decide_eq_true hten]
        rfl
      · rw [List.isEmpty_iff_length_eq_zero, hten]
        decide

theorem normalizeCardUid_reading_ne (r : Reading) : normalizeCardUid r.raw ≠ "" := by
  intro h
  have hdigits : hexDigits r.bytes = [] := by
    rw [normalizeCardUid_reading] at h
    simpa using congrArg String.toList h
  have hlength := length_hexDigits r.bytes
  rw [hdigits, Reading.bytes, length_bytes] at hlength
  apply r.card.present
  apply List.eq_nil_of_length_eq_zero
  simp only [List.length_nil] at hlength
  omega

/-- Readings that show the same bytes have one canonical form. -/
theorem normalizeCardUid_congr {r r' : Reading} (h : r.bytes = r'.bytes) :
    normalizeCardUid r.raw = normalizeCardUid r'.raw := by
  rw [normalizeCardUid_reading, normalizeCardUid_reading, h]

/-! ### What lookups make of it -/

section lookups

theorem pairs_hexDigits (bytes : List ℕ) :
    pairs (hexDigits bytes) = bytes.map fun b => [hexChar (b / 16), hexChar (b % 16)] := by
  induction bytes with
  | nil => rfl
  | cons b bytes ih =>
      rw [hexDigits, List.flatMap_cons, ← hexDigits, List.map_cons, ← ih]
      rfl

theorem all_hexDigits {bytes : List ℕ} (h : ∀ b ∈ bytes, b < 256) :
    (hexDigits bytes).all isHexDigit = true := by
  rw [List.all_eq_true]
  intro c hc
  obtain ⟨b, hb, hmem⟩ := List.mem_flatMap.mp hc
  have hlt := h b hb
  simp only [List.mem_cons, List.not_mem_nil, or_false] at hmem
  rcases hmem with rfl | rfl
  · exact isHexDigit_hexChar _ (by omega)
  · exact isHexDigit_hexChar _ (by omega)

/-- The reversed form of a canonical form is that of the other byte order. -/
theorem reverseCardUidBytes_hexDigits {bytes : List ℕ} (hne : bytes ≠ [])
    (h : ∀ b ∈ bytes, b < 256) :
    reverseCardUidBytes (String.ofList (hexDigits bytes)) =
      some (String.ofList (hexDigits bytes.reverse)) := by
  have hlength := length_hexDigits bytes
  have hpositive : 0 < bytes.length := List.length_pos_iff.mpr hne
  simp only [reverseCardUidBytes, String.toList_ofList]
  rw [if_neg]
  · rw [pairs_hexDigits, ← List.map_reverse, ← List.flatMap_def, hexDigits]
  · simp only [all_hexDigits h, hlength, Bool.not_true, Bool.or_false, Bool.or_eq_true,
      decide_eq_true_eq]
    omega

theorem Reading.bytes_cases {r r' : Reading} (h : r.card = r'.card) :
    r.bytes = r'.bytes ∨ r.bytes = r'.bytes.reverse := by
  rw [Reading.bytes, Reading.bytes, h]
  cases r.order with
  | forward =>
      cases r'.order with
      | forward => exact Or.inl rfl
      | backward => exact Or.inr (List.reverse_reverse _).symm
  | backward =>
      cases r'.order with
      | forward => exact Or.inr rfl
      | backward => exact Or.inl rfl

/-- Whatever reading of a card was stored, any reading of it finds that. -/
theorem stored_mem_candidates {r r' : Reading} (h : r.card = r'.card) :
    normalizeCardUid r.raw ∈ cardUidLookupCandidates r'.raw := by
  have hne : r'.bytes ≠ [] := by
    intro hnil
    apply r'.card.present
    apply List.eq_nil_of_length_eq_zero
    rw [← length_bytes r'.card r'.order, ← Reading.bytes, hnil]
    rfl
  have hreverse : reverseCardUidBytes (normalizeCardUid r'.raw) =
      some (String.ofList (hexDigits r'.bytes.reverse)) := by
    rw [normalizeCardUid_reading]
    exact reverseCardUidBytes_hexDigits hne (bytes_lt _ _)
  simp only [cardUidLookupCandidates, if_neg (normalizeCardUid_reading_ne r'), hreverse]
  rcases Reading.bytes_cases h with hsame | hreversed
  · rw [normalizeCardUid_congr hsame]
    split_ifs <;> simp
  · have hstored : normalizeCardUid r.raw = String.ofList (hexDigits r'.bytes.reverse) := by
      rw [normalizeCardUid_reading, hreversed]
    rw [hstored]
    split_ifs with htrimmed hmem hmem
    · exact List.contains_iff_mem.mp hmem
    · simp
    · exact List.contains_iff_mem.mp hmem
    · simp

end lookups
end CiroFuel.Cards
