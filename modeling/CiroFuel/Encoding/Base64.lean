import Mathlib.Data.List.Basic
import Mathlib.Data.List.TakeWhile

/-!
# Base 64

Three bytes are written as four letters. A reader takes the letters of both alphabets,
stops at the padding and passes over everything else; of each code unit it sees the
low byte. The bits that are left at the end are no byte.
-/
namespace CiroFuel.Encoding.Base64

/-- The letter of six bits, in the alphabet for addresses. -/
def letter (six : ℕ) : UInt16 :=
  if six < 26 then .ofNat (six + 65)
  else if six < 52 then .ofNat (six + 71)
  else if six < 62 then .ofNat (six - 4)
  else if six = 62 then 45
  else 95

/-- The six bits of a letter of either alphabet. -/
def sextet (byte : ℕ) : Option ℕ :=
  if 65 ≤ byte ∧ byte ≤ 90 then some (byte - 65)
  else if 97 ≤ byte ∧ byte ≤ 122 then some (byte - 71)
  else if 48 ≤ byte ∧ byte ≤ 57 then some (byte + 4)
  else if byte = 43 ∨ byte = 45 then some 62
  else if byte = 47 ∨ byte = 95 then some 63
  else none

def lowByte (u : UInt16) : ℕ := u.toNat % 256

def sextets : List UInt8 → List ℕ
  | [] => []
  | [a] => [a.toNat / 4, a.toNat % 4 * 16]
  | [a, b] => [a.toNat / 4, a.toNat % 4 * 16 + b.toNat / 16, b.toNat % 16 * 4]
  | a :: b :: c :: bytes =>
      a.toNat / 4 :: (a.toNat % 4 * 16 + b.toNat / 16) :: (b.toNat % 16 * 4 + c.toNat / 64) ::
        c.toNat % 64 :: sextets bytes

def bytes : List ℕ → List UInt8
  | p :: q :: r :: s :: six =>
      .ofNat (p * 4 + q / 16) :: .ofNat (q % 16 * 16 + r / 4) :: .ofNat (r % 4 * 64 + s) ::
        bytes six
  | [p, q, r] => [.ofNat (p * 4 + q / 16), .ofNat (q % 16 * 16 + r / 4)]
  | [p, q] => [.ofNat (p * 4 + q / 16)]
  | _ => []

def encode (bs : List UInt8) : List UInt16 := (sextets bs).map letter

def decode (us : List UInt16) : List UInt8 :=
  bytes ((us.takeWhile fun u => lowByte u ≠ 61).filterMap fun u => sextet (lowByte u))

theorem sextet_letter : ∀ six < 64, sextet (lowByte (letter six)) = some six := by decide

theorem letter_ne_padding : ∀ six < 64, lowByte (letter six) ≠ 61 := by decide

theorem sextets_lt {bs : List UInt8} {six : ℕ} (h : six ∈ sextets bs) : six < 64 := by
  have hbyte : ∀ a : UInt8, a.toNat < 256 := UInt8.toNat_lt
  induction bs using sextets.induct with
  | case1 => cases h
  | case2 a =>
      have := hbyte a
      simp only [sextets, List.mem_cons, List.not_mem_nil, or_false] at h
      omega
  | case3 a b =>
      have := hbyte a
      have := hbyte b
      simp only [sextets, List.mem_cons, List.not_mem_nil, or_false] at h
      omega
  | case4 a b c bs ih =>
      have := hbyte a
      have := hbyte b
      have := hbyte c
      simp only [sextets, List.mem_cons] at h
      rcases h with h | h | h | h | h
      · omega
      · omega
      · omega
      · omega
      · exact ih h

theorem bytes_sextets (bs : List UInt8) : bytes (sextets bs) = bs := by
  have hbyte : ∀ (a : UInt8) (n : ℕ), n = a.toNat → UInt8.ofNat n = a :=
    fun a n hn => by rw [hn, UInt8.ofNat_toNat]
  have hlt : ∀ a : UInt8, a.toNat < 256 := UInt8.toNat_lt
  induction bs using sextets.induct with
  | case1 => rfl
  | case2 a => rw [sextets, bytes, hbyte a _ (by omega)]
  | case3 a b =>
      have := hlt b
      rw [sextets, bytes, hbyte a _ (by omega), hbyte b _ (by omega)]
  | case4 a b c bs ih =>
      have := hlt b
      have := hlt c
      rw [sextets, bytes, hbyte a _ (by omega), hbyte b _ (by omega), hbyte c _ (by omega), ih]

/-- Bytes that are encoded are decoded again. -/
theorem decode_encode (bs : List UInt8) : decode (encode bs) = bs := by
  have hall : ∀ u ∈ encode bs, decide (lowByte u ≠ 61) = true := by
    intro u hu
    obtain ⟨six, hsix, rfl⟩ := List.mem_map.mp hu
    exact decide_eq_true (letter_ne_padding six (sextets_lt hsix))
  have hsextets : (encode bs).filterMap (fun u => sextet (lowByte u)) = sextets bs := by
    rw [encode, List.filterMap_map]
    refine (List.filterMap_congr fun six hsix => ?_).trans List.filterMap_some
    exact sextet_letter six (sextets_lt hsix)
  rw [decode, List.takeWhile_eq_self_iff.mpr hall, hsextets, bytes_sextets]

end CiroFuel.Encoding.Base64
