import Mathlib.Data.List.Basic
import Mathlib.Tactic.SplitIfs

/-!
# UTF-8

Bytes are decoded one at a time. A sequence that breaks off is one replacement
character, and the byte that breaks it is looked at again. Encoded text is decoded
to itself.
-/
namespace CiroFuel.Encoding.Utf8

/-- What is known of a character whose last bytes are still missing. -/
structure Partial where
  missing : ℕ
  lower : ℕ := 0x80
  upper : ℕ := 0xBF
  point : ℕ
deriving DecidableEq

abbrev Decoding := Option Partial

def replacement : Char := '\uFFFD'

/-- The first byte of a character. -/
def first (byte : ℕ) : List Char × Decoding :=
  if byte < 0x80 then ([.ofNat byte], none)
  else if byte < 0xC2 then ([replacement], none)
  else if byte < 0xE0 then ([], some { missing := 1, point := byte - 0xC0 })
  else if byte = 0xE0 then ([], some { missing := 2, lower := 0xA0, point := 0 })
  else if byte = 0xED then ([], some { missing := 2, upper := 0x9F, point := 0xD })
  else if byte < 0xF0 then ([], some { missing := 2, point := byte - 0xE0 })
  else if byte = 0xF0 then ([], some { missing := 3, lower := 0x90, point := 0 })
  else if byte < 0xF4 then ([], some { missing := 3, point := byte - 0xF0 })
  else if byte = 0xF4 then ([], some { missing := 3, upper := 0x8F, point := 4 })
  else ([replacement], none)

def next : Decoding → ℕ → List Char × Decoding
  | none, byte => first byte
  | some p, byte =>
      if p.lower ≤ byte ∧ byte ≤ p.upper then
        let point := p.point * 64 + (byte - 0x80)
        if p.missing = 1 then ([.ofNat point], none)
        else ([], some { missing := p.missing - 1, point := point })
      else (replacement :: (first byte).1, (first byte).2)

def decodeFrom : Decoding → List UInt8 → List Char
  | none, [] => []
  | some _, [] => [replacement]
  | d, byte :: bytes => (next d byte.toNat).1 ++ decodeFrom (next d byte.toNat).2 bytes

def decode (bytes : List UInt8) : List Char := decodeFrom none bytes

def encode (cs : List Char) : List UInt8 := cs.flatMap String.utf8EncodeChar

section roundTrip
variable {d d' : Decoding} {n : ℕ} {bytes : List UInt8}

theorem decodeFrom_cons (d : Decoding) (byte : UInt8) (bytes : List UInt8) :
    decodeFrom d (byte :: bytes) =
      (next d byte.toNat).1 ++ decodeFrom (next d byte.toNat).2 bytes := by
  cases d <;> rfl

theorem decodeFrom_byte {cs : List Char} (hn : n < 256) (h : next d n = (cs, d')) :
    decodeFrom d (.ofNat n :: bytes) = cs ++ decodeFrom d' bytes := by
  rw [decodeFrom_cons, UInt8.toNat_ofNat_of_lt' hn, h]

/-- A byte of six bits in the middle of a character. -/
theorem decodeFrom_middle {p : Partial} {six : ℕ} (hsix : six < 64)
    (hlower : p.lower ≤ six + 0x80) (hupper : six + 0x80 ≤ p.upper) (hmissing : p.missing ≠ 1) :
    decodeFrom (some p) (.ofNat (six + 0x80) :: bytes) =
      decodeFrom (some { missing := p.missing - 1, point := p.point * 64 + six }) bytes := by
  have hnext : next (some p) (six + 0x80) =
      ([], some { missing := p.missing - 1, point := p.point * 64 + six }) := by
    rw [next, if_pos ⟨hlower, hupper⟩, if_neg hmissing, Nat.add_sub_cancel]
  exact decodeFrom_byte (by omega) hnext

theorem decodeFrom_last {p : Partial} {six : ℕ} (hsix : six < 64)
    (hlower : p.lower ≤ six + 0x80) (hupper : six + 0x80 ≤ p.upper) (hmissing : p.missing = 1) :
    decodeFrom (some p) (.ofNat (six + 0x80) :: bytes) =
      .ofNat (p.point * 64 + six) :: decodeFrom none bytes := by
  have hnext : next (some p) (six + 0x80) = ([.ofNat (p.point * 64 + six)], none) := by
    rw [next, if_pos ⟨hlower, hupper⟩, if_pos hmissing, Nat.add_sub_cancel]
  exact decodeFrom_byte (by omega) hnext

/-! The first byte of two, three and four. -/

theorem first_two : ∀ h < 32, 2 ≤ h →
    first (h + 0xC0) = ([], some { missing := 1, point := h }) := by
  decide

theorem first_three : ∀ h < 16, first (h + 0xE0) = ([], some {
    missing := 2
    lower := if h = 0 then 0xA0 else 0x80
    upper := if h = 13 then 0x9F else 0xBF
    point := h }) := by
  decide

theorem first_four : ∀ h < 5, first (h + 0xF0) = ([], some {
    missing := 3
    lower := if h = 0 then 0x90 else 0x80
    upper := if h = 4 then 0x8F else 0xBF
    point := h }) := by
  decide

/-- The bytes of a character are decoded to the character. -/
theorem decode_encodeChar (c : Char) (bytes : List UInt8) :
    decodeFrom none (String.utf8EncodeChar c ++ bytes) = c :: decodeFrom none bytes := by
  have hchar : ∀ n, n = c.val.toNat → Char.ofNat n = c := fun n hn => hn ▸ Char.ofNat_toNat c
  have hvalid : c.val.toNat < 0xD800 ∨ 0xDFFF < c.val.toNat ∧ c.val.toNat < 0x110000 := c.valid
  have hsix : ∀ n, n % 64 < 64 := fun n => Nat.mod_lt n (by decide)
  rw [String.utf8EncodeChar]
  generalize c.val.toNat = v at hchar hvalid
  by_cases hone : v ≤ 0x7F
  · have hfirst : next none v = ([.ofNat v], none) := if_pos (by omega)
    rw [if_pos hone, List.singleton_append, decodeFrom_byte (by omega) hfirst, hchar _ rfl,
      List.singleton_append]
  by_cases htwo : v ≤ 0x7FF
  · have hfirst := first_two (v / 64 % 32) (Nat.mod_lt _ (by decide)) (by omega)
    rw [if_neg hone, if_pos htwo, List.cons_append, List.singleton_append,
      decodeFrom_byte (d := none) (by omega) hfirst, List.nil_append,
      decodeFrom_last (hsix _) (by simp) (by simp; omega) rfl, hchar]
    simp only
    omega
  by_cases hthree : v ≤ 0xFFFF
  · have hfirst := first_three (v / 4096 % 16) (Nat.mod_lt _ (by decide))
    rw [if_neg hone, if_neg htwo, if_pos hthree, List.cons_append, List.cons_append,
      List.singleton_append, decodeFrom_byte (d := none) (by omega) hfirst, List.nil_append,
      decodeFrom_middle (hsix _), decodeFrom_last (hsix _) (by simp) (by simp; omega) rfl, hchar]
    all_goals simp only
    · omega
    · split_ifs <;> omega
    · split_ifs <;> omega
    · decide
  · have hfirst := first_four (v / 262144 % 8) (by omega)
    rw [if_neg hone, if_neg htwo, if_neg hthree, List.cons_append, List.cons_append,
      List.cons_append, List.singleton_append, decodeFrom_byte (d := none) (by omega) hfirst,
      List.nil_append, decodeFrom_middle (hsix _),
      decodeFrom_middle (hsix _) (by simp) (by simp; omega) (by simp),
      decodeFrom_last (hsix _) (by simp) (by simp; omega) rfl, hchar]
    all_goals simp only
    · omega
    · split_ifs <;> omega
    · split_ifs <;> omega
    · decide

/-- Text that is encoded is decoded again. -/
theorem decode_encode (cs : List Char) : decode (encode cs) = cs := by
  induction cs with
  | nil => rfl
  | cons c cs ih =>
      rw [encode, List.flatMap_cons, decode, decode_encodeChar, ← decode, ← encode, ih]

end roundTrip
end CiroFuel.Encoding.Utf8
