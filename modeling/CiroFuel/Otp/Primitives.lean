import CiroFuel.Schemas

/-!
# One-time codes

What the consumers of one-time codes share: hashing a code, the record kept of
it, and the verdict on a submitted code. A record does not know where it is
stored; its consumer counts the attempts and marks it used.
-/
namespace CiroFuel

/-- The hash functions of the platform. The salt of a password hash is drawn by
the library; it is named here so that hashing is a function. -/
structure Crypto where
  bcryptHash : (salt plain : String) → String
  bcryptCompare : (plain hash : String) → Bool
  sha256 : String → String

namespace Otp

structure OtpRecordLike where
  hash : String
  salt : String
  expiresAt : Instant
  attempts : ℕ
  usedAt : Option Instant := none
deriving DecidableEq, Repr

inductive OtpVerifyResult where
  | match_ | notFound | expired | lockedOut | mismatch
deriving DecidableEq, Repr

def hashOtp (C : Crypto) (otp salt : String) : String := C.sha256 (salt ++ ":" ++ otp)

/-- The record of a fresh code. -/
def issue (C : Crypto) (code salt : String) (expiryMinutes : ℕ) (now : Instant) : OtpRecordLike where
  hash := hashOtp C code salt
  salt := salt
  expiresAt := now + expiryMinutes * 60000
  attempts := 0

/-- Whether a code is compared with the hash at all is decided before its value. -/
def verify (C : Crypto) (record : Option OtpRecordLike) (submittedCode : String) (maxAttempts : ℕ)
    (now : Instant) : OtpVerifyResult :=
  match record with
  | none => .notFound
  | some r =>
      if r.usedAt.isSome then .notFound
      else if r.expiresAt ≤ now then .expired
      else if maxAttempts ≤ r.attempts then .lockedOut
      else if hashOtp C submittedCode r.salt = r.hash then .match_ else .mismatch

/-- The submitted code was compared with the hash. -/
def OtpVerifyResult.compared : OtpVerifyResult → Bool
  | .match_ | .mismatch => true
  | _ => false

section verify
variable {C : Crypto} {record : Option OtpRecordLike} {code : String} {maxAttempts : ℕ}
variable {now : Instant}

theorem verify_compared (h : (verify C record code maxAttempts now).compared = true) :
    ∃ r, record = some r ∧ r.usedAt = none ∧ now < r.expiresAt ∧ r.attempts < maxAttempts := by
  cases record with
  | none => cases h
  | some r =>
      simp only [verify] at h
      by_cases hused : r.usedAt.isSome = true
      · rw [if_pos hused] at h
        cases h
      by_cases hexpired : r.expiresAt ≤ now
      · rw [if_neg hused, if_pos hexpired] at h
        cases h
      by_cases hlocked : maxAttempts ≤ r.attempts
      · rw [if_neg hused, if_neg hexpired, if_pos hlocked] at h
        cases h
      · have hunused : r.usedAt = none := by simpa using hused
        exact ⟨r, rfl, hunused, Nat.lt_of_not_le hexpired, Nat.lt_of_not_le hlocked⟩

theorem verify_match (h : verify C record code maxAttempts now = .match_) :
    ∃ r, record = some r ∧ r.usedAt = none ∧ hashOtp C code r.salt = r.hash := by
  have hcompared : (verify C record code maxAttempts now).compared = true := by
    rw [h]
    rfl
  obtain ⟨r, rfl, hunused, -, -⟩ := verify_compared hcompared
  refine ⟨r, rfl, hunused, ?_⟩
  by_contra hne
  simp only [verify, if_neg hne] at h
  split_ifs at h

end verify

end Otp
end CiroFuel
