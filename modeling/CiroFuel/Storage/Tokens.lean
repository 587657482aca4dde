import CiroFuel.Storage.Keys
import CiroFuel.Json.Strings

/-!
# Tokens for a file

A token holds the identifier of one file, the second it expires in, and the signature of
both. Whoever holds it may read that file, so what it takes for a token to be accepted is
all the protection there is. The signature is compared as bytes, and bytes can be written
in more than one way.
-/
namespace CiroFuel.Storage
open Encoding.Paths Numerals Json

/-! ### Hexadecimal text -/

/-- `digest('hex')` -/
def hexText (bytes : List UInt8) : List Char :=
  bytes.flatMap fun b => digitsText (digits 16 2 b.toNat)

/-- `Buffer.from(text, 'hex')`, which ends at the first pair that is none of digits. -/
def decodeHex : List Char → List UInt8
  | a :: b :: cs =>
      match hexValue a, hexValue b with
      | some x, some y => .ofNat (16 * x + y) :: decodeHex cs
      | _, _ => []
  | _ => []

theorem decodeHex_hexText (bytes : List UInt8) : decodeHex (hexText bytes) = bytes := by
  induction bytes with
  | nil => rfl
  | cons b bytes ih =>
      have hb : b.toNat < 256 := UInt8.toNat_lt b
      have hdigits : digits 16 2 b.toNat = [b.toNat / 16, b.toNat % 16] := by
        rw [digits_succ, digits_succ]
        simp only [pow_one, pow_zero, Nat.div_one, List.cons.injEq]
        exact ⟨by omega, trivial, rfl⟩
      have htext : hexText (b :: bytes) = Nat.digitChar (b.toNat / 16) ::
          Nat.digitChar (b.toNat % 16) :: hexText bytes := by
        rw [hexText, List.flatMap_cons, hdigits]
        rfl
      have hvalue : UInt8.ofNat (16 * (b.toNat / 16) + b.toNat % 16) = b := by
        rw [Nat.div_add_mod]
        exact UInt8.ofNat_toNat
      rw [htext, decodeHex, hexValue_digitChar _ (by omega), hexValue_digitChar _ (by omega)]
      simp only [hvalue, ih]

theorem dot_notMem_hexText (bytes : List UInt8) : '.' ∉ hexText bytes := by
  intro hmem
  obtain ⟨b, -, hb⟩ := List.mem_flatMap.mp hmem
  obtain ⟨d, hd, heq⟩ := List.mem_map.mp hb
  exact (digitChar_plain d (digits_lt (by decide) hd)).2 heq

/-! ### Minting and verifying -/

/-- The keyed hash, and what `Number` makes of other texts than short decimal ones. -/
structure Primitives where
  hmac (key payload : List Char) : List UInt8
  otherNumber : List Char → Option ℚ

section token
variable (prims : Primitives)

def DERIVATION_CONTEXT : List Char := "ciro:spec-012:local-file-storage-token:v1".toList

def deriveLocalTokenKey (configured jwtSecret : List Char) : List Char :=
  if configured ≠ [] then configured else hexText (prims.hmac jwtSecret DERIVATION_CONTEXT)

def sign (payload key : List Char) : List Char := hexText (prims.hmac key payload)

def payloadOf (fileId : List Char) (expiresAt : ℕ) : List Char :=
  fileId ++ '.' :: digitsText (decimal expiresAt)

def mintLocalToken (fileId key : List Char) (ttlSeconds : ℕ) (now : Instant) : List Char :=
  payloadOf fileId (now / 1000 + ttlSeconds) ++
    '.' :: sign prims (payloadOf fileId (now / 1000 + ttlSeconds)) key

inductive LocalTokenRejection where
  | malformed | badSignature | wrongFile | expired
deriving DecidableEq, Repr

/-- `Number(raw)`; none is no finite number. -/
def numberOf (raw : List Char) : Option ℚ :=
  if raw ≠ [] ∧ raw.length ≤ 15 ∧ raw.all Char.isDigit then some (value 10 (raw.map digitValue))
  else prims.otherNumber raw

/-- The checks on the parts of a token, in their order. -/
def verifyParts (tokenFileId expiresAtRaw signature fileId key : List Char) (now : Instant) :
    Except LocalTokenRejection Unit :=
  let given := decodeHex signature
  let want := decodeHex (sign prims (tokenFileId ++ '.' :: expiresAtRaw) key)
  if given.length ≠ want.length ∨ given ≠ want then .error .badSignature
  else if tokenFileId ≠ fileId then .error .wrongFile
  else
    match numberOf prims expiresAtRaw with
    | some expiresAt => if expiresAt < (now / 1000 : ℕ) then .error .expired else .ok ()
    | none => .error .expired

def verifyLocalToken (token : Option (List Char)) (fileId key : List Char) (now : Instant) :
    Except LocalTokenRejection Unit :=
  match token with
  | none | some [] => .error .malformed
  | some token =>
      match split '.' token with
      | [tokenFileId, expiresAtRaw, signature] =>
          verifyParts prims tokenFileId expiresAtRaw signature fileId key now
      | _ => .error .malformed

/-! ### What is accepted -/

variable {prims} {token fileId key : List Char} {now : Instant}

theorem verifyParts_ok {tokenFileId raw signature : List Char} :
    verifyParts prims tokenFileId raw signature fileId key now = .ok () ↔
      decodeHex signature = prims.hmac key (tokenFileId ++ '.' :: raw) ∧ tokenFileId = fileId ∧
        ∃ expiresAt, numberOf prims raw = some expiresAt ∧ ((now / 1000 : ℕ) : ℚ) ≤ expiresAt := by
  simp only [verifyParts, sign, decodeHex_hexText]
  by_cases hsign : decodeHex signature = prims.hmac key (tokenFileId ++ '.' :: raw)
  · by_cases hfile : tokenFileId = fileId
    · cases hnumber : numberOf prims raw with
      | none => simp [hsign, hfile]
      | some expiresAt => simp [hsign, hfile, not_lt]
    · simp [hsign, hfile]
  · simp [hsign]

/-- A token is accepted if it names the file, bears the signature of what it says, and has
not expired. -/
theorem verifyLocalToken_ok :
    verifyLocalToken prims (some token) fileId key now = .ok () ↔
      ∃ raw signature, split '.' token = [fileId, raw, signature] ∧
        decodeHex signature = prims.hmac key (fileId ++ '.' :: raw) ∧
        ∃ expiresAt, numberOf prims raw = some expiresAt ∧ ((now / 1000 : ℕ) : ℚ) ≤ expiresAt := by
  have hempty : split '.' [] = [[]] := rfl
  cases token with
  | nil =>
      refine iff_of_false (by simp [verifyLocalToken]) ?_
      rintro ⟨raw, signature, hsplit, -⟩
      rw [hempty] at hsplit
      simp at hsplit
  | cons c cs =>
      simp only [verifyLocalToken]
      constructor
      · intro h
        split at h
        · rename_i tokenFileId raw signature hsplit
          obtain ⟨hsign, rfl, hnumber⟩ := verifyParts_ok.mp h
          exact ⟨raw, signature, hsplit, hsign, hnumber⟩
        · cases h
      · rintro ⟨raw, signature, hsplit, hsign, hnumber⟩
        rw [hsplit]
        exact verifyParts_ok.mpr ⟨hsign, rfl, hnumber⟩

theorem isDigit_decimal (n : ℕ) : (digitsText (decimal n)).all Char.isDigit = true := by
  rw [List.all_eq_true]
  exact fun c hc => isDigit_digitsText (fun d hd => decimal_lt n hd) hc

theorem numberOf_decimal {n : ℕ} (h : n < 10 ^ 15) :
    numberOf prims (digitsText (decimal n)) = some (n : ℚ) := by
  have hlength : (digitsText (decimal n)).length ≤ 15 := by
    rw [digitsText, List.length_map, decimal, length_digits]
    by_cases hn : n = 0
    · subst hn
      decide
    · exact Nat.log_lt_of_lt_pow hn h
  have hne : digitsText (decimal n) ≠ [] := by
    rw [digitsText, ne_eq, List.map_eq_nil_iff]
    exact decimal_ne_nil n
  rw [numberOf, if_pos ⟨hne, hlength, isDigit_decimal n⟩,
    map_digitValue fun d hd => decimal_lt n hd, value_decimal]

theorem dot_notMem_decimal (n : ℕ) : '.' ∉ digitsText (decimal n) := by
  intro hmem
  obtain ⟨d, hd, heq⟩ := List.mem_map.mp hmem
  exact (digitChar_plain d ((decimal_lt n hd).trans (by decide))).2 heq

theorem split_mint (hfile : '.' ∉ fileId) (ttlSeconds : ℕ) :
    split '.' (mintLocalToken prims fileId key ttlSeconds now) =
      [fileId, digitsText (decimal (now / 1000 + ttlSeconds)),
        sign prims (payloadOf fileId (now / 1000 + ttlSeconds)) key] := by
  rw [mintLocalToken, split_append, payloadOf, split_cons hfile, split_piece (dot_notMem_decimal _),
    sign, split_piece (dot_notMem_hexText _)]
  rfl

/-- A token that was minted is accepted for its file until its last second is over. -/
theorem verify_mint (hfile : '.' ∉ fileId) {ttlSeconds : ℕ} {mintedAt : Instant}
    (hrange : mintedAt / 1000 + ttlSeconds < 10 ^ 15) :
    verifyLocalToken prims (some (mintLocalToken prims fileId key ttlSeconds mintedAt)) fileId key
      now = .ok () ↔ now / 1000 ≤ mintedAt / 1000 + ttlSeconds := by
  rw [verifyLocalToken_ok, split_mint hfile]
  constructor
  · rintro ⟨raw, signature, hsplit, -, expiresAt, hnumber, hlive⟩
    simp only [List.cons.injEq, true_and, and_true] at hsplit
    rw [← hsplit.1, numberOf_decimal hrange] at hnumber
    obtain rfl := Option.some.inj hnumber
    exact_mod_cast hlive
  · intro hlive
    refine ⟨_, _, rfl, ?_, _, numberOf_decimal hrange, by exact_mod_cast hlive⟩
    rw [sign, decodeHex_hexText]
    rfl

end token
end CiroFuel.Storage
