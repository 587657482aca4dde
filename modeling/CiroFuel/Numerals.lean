import Mathlib.Data.List.Induction
import Mathlib.Data.Nat.Basic
import Mathlib.Data.Nat.Log
import Mathlib.Tactic.Ring

/-!
# Numerals of a fixed width

A numeral that is padded to a fixed width shows the last digits of its number, one
for each place. Two digits in base `b` are one in base `b * b`.
-/
namespace CiroFuel.Numerals

/-- The last `k` digits of `n` in base `b`, most significant first. -/
def digits (b : ℕ) : ℕ → ℕ → List ℕ
  | 0, _ => []
  | k + 1, n => digits b k (n / b) ++ [n % b]

/-- The number with the given digits in base `b`, most significant first. -/
def value (b : ℕ) (ds : List ℕ) : ℕ := ds.foldl (fun n d => b * n + d) 0

section digits
variable {b k n : ℕ}

@[simp] theorem length_digits (b k n : ℕ) : (digits b k n).length = k := by
  induction k generalizing n with
  | zero => rfl
  | succ k ih => rw [digits, List.length_append, ih, List.length_singleton]

theorem digits_lt (hb : 0 < b) {d : ℕ} (hd : d ∈ digits b k n) : d < b := by
  induction k generalizing n with
  | zero => cases hd
  | succ k ih =>
      rcases List.mem_append.mp hd with hd | hd
      · exact ih hd
      · rw [List.mem_singleton.mp hd]
        exact Nat.mod_lt n hb

theorem digits_zero (b k : ℕ) : digits b k 0 = List.replicate k 0 := by
  induction k with
  | zero => rfl
  | succ k ih => rw [digits, Nat.zero_div, Nat.zero_mod, ih, ← List.replicate_succ']

theorem leftpad_concat (k : ℕ) (x c : Char) (cs : List Char) :
    (cs ++ [c]).leftpad (k + 1) x = cs.leftpad k x ++ [c] := by
  simp [List.leftpad]

theorem digits_succ (b k n : ℕ) : digits b (k + 1) n = n / b ^ k % b :: digits b k n := by
  induction k generalizing n with
  | zero => simp [digits]
  | succ k ih => rw [digits, ih, digits, Nat.div_div_eq_div_mul, ← pow_succ', List.cons_append]

/-- A numeral that is padded with zeros shows the digits of its number. -/
theorem leftpad_toDigits (hb : 1 < b) (h : n < b ^ (k + 1)) :
    (Nat.toDigits b n).leftpad (k + 1) '0' = (digits b (k + 1) n).map Nat.digitChar := by
  induction k generalizing n with
  | zero =>
      have hn : n < b := by simpa using h
      rw [Nat.toDigits_of_lt_base hn]
      simp [digits, List.leftpad, Nat.mod_eq_of_lt hn]
  | succ k ih =>
      rw [digits, List.map_append, List.map_singleton]
      by_cases hn : n < b
      · rw [Nat.toDigits_of_lt_base hn, Nat.div_eq_of_lt hn, digits_zero, Nat.mod_eq_of_lt hn]
        simp [List.leftpad, Nat.digitChar]
      · have hq : n / b < b ^ (k + 1) := Nat.div_lt_of_lt_mul (by rwa [← pow_succ'])
        rw [Nat.toDigits_of_base_le hb (Nat.not_lt.mp hn), leftpad_concat, ih hq]

end digits

section value
variable {b : ℕ}

@[simp] theorem value_nil (b : ℕ) : value b [] = 0 := rfl

@[simp] theorem value_concat (ds : List ℕ) (d : ℕ) : value b (ds ++ [d]) = b * value b ds + d := by
  simp [value]

theorem value_lt {ds : List ℕ} (h : ∀ d ∈ ds, d < b) : value b ds < b ^ ds.length := by
  induction ds using List.reverseRecOn with
  | nil => exact Nat.one_pos
  | append_singleton ds d ih =>
      have hds : value b ds < b ^ ds.length := ih fun x hx => h x (List.mem_append_left _ hx)
      have hd : d < b := h d (by simp)
      rw [value_concat, List.length_append, List.length_singleton, pow_succ']
      calc b * value b ds + d < b * value b ds + b := Nat.add_lt_add_left hd _
        _ = b * (value b ds + 1) := by ring
        _ ≤ b * b ^ ds.length := Nat.mul_le_mul_left b hds

theorem value_append (xs ys : List ℕ) :
    value b (xs ++ ys) = value b xs * b ^ ys.length + value b ys := by
  induction ys using List.reverseRecOn with
  | nil => simp
  | append_singleton ys y ih =>
      rw [← List.append_assoc, value_concat, value_concat, ih, List.length_append,
        List.length_singleton, pow_succ]
      ring

@[simp] theorem value_replicate (b n : ℕ) : value b (List.replicate n 0) = 0 := by
  induction n with
  | zero => rfl
  | succ n ih => rw [List.replicate_succ', value_concat, ih, Nat.mul_zero]

theorem value_digits (b k n : ℕ) : value b (digits b k n) = n % b ^ k := by
  induction k generalizing n with
  | zero => simp [digits, Nat.mod_one]
  | succ k ih =>
      rw [digits, value_concat, ih, pow_succ', Nat.mod_mul, Nat.add_comm]

/-- Two digits for each digit in the square of the base. -/
theorem digits_value {ds : List ℕ} (hb : 0 < b) (h : ∀ d ∈ ds, d < b * b) :
    digits b (2 * ds.length) (value (b * b) ds) = ds.flatMap fun d => [d / b, d % b] := by
  induction ds using List.reverseRecOn with
  | nil => rfl
  | append_singleton ds d ih =>
      have hds := ih fun x hx => h x (List.mem_append_left _ hx)
      have hd : d < b * b := h d (by simp)
      have hmod : (b * b * value (b * b) ds + d) % b = d % b := by
        rw [Nat.mul_assoc, Nat.mul_add_mod]
      have hdiv : (b * b * value (b * b) ds + d) / b = b * value (b * b) ds + d / b := by
        rw [Nat.mul_assoc, Nat.mul_add_div hb]
      have hlow : d / b < b := Nat.div_lt_of_lt_mul hd
      have hmod' : (b * value (b * b) ds + d / b) % b = d / b := by
        rw [Nat.mul_add_mod, Nat.mod_eq_of_lt hlow]
      have hdiv' : (b * value (b * b) ds + d / b) / b = value (b * b) ds := by
        rw [Nat.mul_add_div hb, Nat.div_eq_of_lt hlow, Nat.add_zero]
      rw [value_concat, List.length_append, List.length_singleton, Nat.mul_add, digits, digits, hdiv,
        hmod, hdiv', hmod', hds]
      simp

end value

/-! ### Decimal numerals -/

def digitsText (ds : List ℕ) : List Char := ds.map Nat.digitChar

def digitValue (c : Char) : ℕ := c.toNat - '0'.toNat

section text
variable {ds : List ℕ}

theorem isDigit_digitChar : ∀ d < 10, (Nat.digitChar d).isDigit := by decide

theorem digitValue_digitChar : ∀ d < 10, digitValue (Nat.digitChar d) = d := by decide

theorem isDigit_digitsText (hds : ∀ d ∈ ds, d < 10) {c : Char} (hc : c ∈ digitsText ds) :
    c.isDigit := by
  obtain ⟨d, hd, rfl⟩ := List.mem_map.mp hc
  exact isDigit_digitChar d (hds d hd)

theorem map_digitValue (hds : ∀ d ∈ ds, d < 10) : (digitsText ds).map digitValue = ds := by
  rw [digitsText, List.map_map]
  exact (List.map_congr_left fun d hd => digitValue_digitChar d (hds d hd)).trans (List.map_id _)

end text

/-- The digits of `n`, without leading zeros. -/
def decimal (n : ℕ) : List ℕ := digits 10 (Nat.log 10 n + 1) n

section decimal
variable (n : ℕ)

@[simp] theorem value_decimal : value 10 (decimal n) = n := by
  rw [decimal, value_digits, Nat.mod_eq_of_lt]
  exact Nat.lt_pow_succ_log_self (by decide) n

theorem decimal_lt {d : ℕ} (hd : d ∈ decimal n) : d < 10 := digits_lt (by decide) hd

theorem decimal_ne_nil : decimal n ≠ [] := by
  rw [decimal, digits_succ]
  exact List.cons_ne_nil _ _

/-- Only zero starts with a zero. -/
theorem decimal_head (h : (decimal n).head? = some 0) : n = 0 := by
  by_contra hn
  rw [decimal, digits_succ, List.head?_cons, Option.some.injEq] at h
  have hlow : 0 < n / 10 ^ Nat.log 10 n :=
    Nat.div_pos (Nat.pow_log_le_self 10 hn) (Nat.pow_pos (by decide))
  have hhigh : n / 10 ^ Nat.log 10 n < 10 := by
    apply Nat.div_lt_of_lt_mul
    rw [← pow_succ]
    exact Nat.lt_pow_succ_log_self (by decide) n
  rw [Nat.mod_eq_of_lt hhigh] at h
  omega

end decimal
end CiroFuel.Numerals
