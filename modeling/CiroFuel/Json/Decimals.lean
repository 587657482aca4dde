import CiroFuel.Json.Doubles
import CiroFuel.Json.Literals

/-!
# The decimals of a double

A double is written with the fewest digits that are rounded to it. Up to 21 digits
stand before the point and up to six zeros behind it; other numbers are written with
an exponent. Reading the text rounds to the same double.
-/
namespace CiroFuel.Json
open Numerals

/-! ### The shortest decimal -/

/-- The integers next to a number, the nearer one first. -/
def neighbours (q : ℚ) : List ℤ :=
  if q - ⌊q⌋ ≤ 1 / 2 then [⌊q⌋, ⌊q⌋ + 1] else [⌊q⌋ + 1, ⌊q⌋]

/-- The exponent of the last of `n + 1` decimal places. -/
def Double.lastDigit (x : Double) (n : ℕ) : ℤ := Int.log 10 |x.value| - n

/-- A number of `n + 1` digits that is rounded to the double. -/
def Double.significand (x : Double) (n : ℕ) : Option ℤ :=
  (neighbours (x.value / 10 ^ x.lastDigit n)).find? fun s =>
    nearest (s * 10 ^ x.lastDigit n) = x.value

theorem floor_mem_neighbours (q : ℚ) : ⌊q⌋ ∈ neighbours q := by
  rw [neighbours]
  split_ifs <;> simp

/-- With enough digits the decimal is the double itself. -/
theorem Double.exact_significand (x : Double) {n : ℕ} (hn : x.lastDigit n ≤ -1074) :
    ((⌊x.value / 10 ^ x.lastDigit n⌋ : ℤ) : ℚ) * 10 ^ x.lastDigit n = x.value := by
  obtain ⟨m, e, -, he, -, hx⟩ := x.representable
  obtain ⟨j, hj⟩ := Int.eq_ofNat_of_zero_le (show 0 ≤ -x.lastDigit n by omega)
  obtain ⟨i, hi⟩ := Int.eq_ofNat_of_zero_le (show 0 ≤ e - x.lastDigit n by omega)
  have hinteger : x.value / 10 ^ x.lastDigit n = ((m * 2 ^ i * 5 ^ j : ℤ) : ℚ) := by
    calc x.value / 10 ^ x.lastDigit n = m * 2 ^ e * (2 ^ (j : ℤ) * 5 ^ (j : ℤ)) := by
          rw [div_eq_mul_inv, ← zpow_neg, hj, ← mul_zpow, hx]
          norm_num
      _ = m * 2 ^ (e + j) * 5 ^ (j : ℤ) := by
          rw [zpow_add₀ (by norm_num)]
          ring
      _ = m * 2 ^ (i : ℤ) * 5 ^ (j : ℤ) := by rw [show e + j = i by omega]
      _ = ((m * 2 ^ i * 5 ^ j : ℤ) : ℚ) := by
          push_cast
          rfl
  rw [hinteger, Int.floor_intCast, ← hinteger, div_mul_cancel₀ _ (zpow_ne_zero _ (by norm_num))]

theorem Double.exists_significand (x : Double) : ∃ n, (x.significand n).isSome := by
  refine ⟨(Int.log 10 |x.value| + 1074).toNat, ?_⟩
  have hexact := x.exact_significand (n := (Int.log 10 |x.value| + 1074).toNat)
    (by rw [lastDigit]; omega)
  rw [significand, List.find?_isSome]
  refine ⟨_, floor_mem_neighbours _, ?_⟩
  rw [hexact, decide_eq_true_eq]
  exact nearest_eq x.representable

structure Decimal where
  significand : ℤ
  exponent : ℤ
deriving DecidableEq

def Decimal.value (d : Decimal) : ℚ := d.significand * 10 ^ d.exponent

/-- A number that was rounded up to a power of ten has one zero at its end. -/
def Decimal.trim (d : Decimal) : Decimal :=
  if 10 ∣ d.significand then ⟨d.significand / 10, d.exponent + 1⟩ else d

/-- The decimal of a double, with as few digits as possible. -/
def Double.decimal (x : Double) : Decimal :=
  let n := Nat.find x.exists_significand
  Decimal.trim ⟨(x.significand n).getD 0, x.lastDigit n⟩

@[simp] theorem Decimal.trim_value (d : Decimal) : d.trim.value = d.value := by
  rw [trim]
  split_ifs with h
  · obtain ⟨s, hs⟩ := h
    rw [value, value, hs, Int.mul_ediv_cancel_left _ (by decide), zpow_add₀ (by norm_num)]
    push_cast
    ring
  · rfl

theorem Double.nearest_decimal (x : Double) : nearest x.decimal.value = x.value := by
  obtain ⟨s, hs⟩ := Option.isSome_iff_exists.mp (Nat.find_spec x.exists_significand)
  have hround := List.find?_some hs
  rw [decimal, Decimal.trim_value, hs]
  exact of_decide_eq_true hround

/-! ### The literal of a decimal -/

def zeros (n : ℕ) : List ℕ := List.replicate n 0

/-- The digits `ds` with the decimal point behind the first `point` of them. -/
def pointed (negative : Bool) (ds : List ℕ) (point : ℤ) : Literal :=
  if ds.length ≤ point ∧ point ≤ 21 then ⟨negative, ds ++ zeros (point.toNat - ds.length), [], 0⟩
  else if 0 < point ∧ point ≤ 21 then ⟨negative, ds.take point.toNat, ds.drop point.toNat, 0⟩
  else if -6 < point ∧ point ≤ 0 then ⟨negative, [0], zeros (-point).toNat ++ ds, 0⟩
  else ⟨negative, ds.take 1, ds.drop 1, point - 1⟩

/-- How a number is written. -/
def Decimal.literal (d : Decimal) : Literal :=
  if d.significand = 0 then ⟨false, [0], [], 0⟩
  else
    let ds := decimal d.significand.natAbs
    pointed (d.significand < 0) ds (d.exponent + ds.length)

section pointed
variable {negative : Bool} {ds : List ℕ} {point : ℤ}

theorem zeros_lt (n : ℕ) : ∀ d ∈ zeros n, d < 10 := by
  intro d hd
  rw [List.eq_of_mem_replicate hd]
  decide

theorem pointed_plain (hds : ∀ d ∈ ds, d < 10) (hne : ds ≠ []) (hlead : ds.head? ≠ some 0) :
    (pointed negative ds point).Plain := by
  obtain ⟨d, ds, rfl⟩ := List.exists_cons_of_ne_nil hne
  have htake : ∀ n, ∀ x ∈ (d :: ds).take n, x < 10 := fun n x hx => hds x (List.mem_of_mem_take hx)
  have hdrop : ∀ n, ∀ x ∈ (d :: ds).drop n, x < 10 := fun n x hx => hds x (List.mem_of_mem_drop hx)
  rw [pointed]
  split_ifs with hinteger hinside hbefore
  · exact ⟨List.forall_mem_append.mpr ⟨hds, zeros_lt _⟩, List.cons_ne_nil _ _,
      fun h => absurd h hlead, fun x hx => nomatch hx⟩
  · obtain ⟨n, hn⟩ := Int.eq_succ_of_zero_lt hinside.1
    subst hn
    exact ⟨htake _, List.cons_ne_nil _ _, fun h => absurd h hlead, hdrop _⟩
  · exact ⟨by simp, List.cons_ne_nil _ _, fun _ => rfl,
      List.forall_mem_append.mpr ⟨zeros_lt _, hds⟩⟩
  · exact ⟨htake 1, List.cons_ne_nil _ _, fun h => absurd h hlead, hdrop 1⟩

theorem literal_value (negative : Bool) (whole fraction : List ℕ) (exponent : ℤ) :
    (Literal.mk negative whole fraction exponent).value =
      (if negative then -1 else 1) * Numerals.value 10 (whole ++ fraction) *
        10 ^ (exponent - fraction.length) := rfl

theorem value_zeros (n : ℕ) (ds : List ℕ) :
    Numerals.value 10 ([0] ++ (zeros n ++ ds)) = Numerals.value 10 ds := by
  rw [value_append, value_append, zeros, value_replicate, Nat.zero_mul, Nat.zero_add]
  exact (congrArg (· + _) (Nat.zero_mul _)).trans (Nat.zero_add _)

/-- The point is moved, but the number stays. -/
theorem pointed_value (hne : ds ≠ []) : (pointed negative ds point).value =
    (if negative then -1 else 1) * Numerals.value 10 ds * 10 ^ (point - ds.length) := by
  have hlength : 0 < ds.length := List.length_pos_iff.mpr hne
  by_cases hinteger : ds.length ≤ point ∧ point ≤ 21
  · rw [pointed, if_pos hinteger, literal_value, List.append_nil, value_append, zeros,
      value_replicate, List.length_replicate, List.length_nil, mul_assoc, mul_assoc,
      show point - ds.length = (point.toNat - ds.length : ℕ) by omega, zpow_natCast]
    simp
  · by_cases hinside : 0 < point ∧ point ≤ 21
    · rw [pointed, if_neg hinteger, if_pos hinside, literal_value, List.take_append_drop,
        List.length_drop]
      congr 2
      omega
    · by_cases hbefore : -6 < point ∧ point ≤ 0
      · rw [pointed, if_neg hinteger, if_neg hinside, if_pos hbefore, literal_value, value_zeros,
          List.length_append, zeros, List.length_replicate]
        congr 2
        omega
      · rw [pointed, if_neg hinteger, if_neg hinside, if_neg hbefore, literal_value,
          List.take_append_drop, List.length_drop]
        congr 2
        omega

end pointed

theorem Decimal.literal_plain (d : Decimal) : d.literal.Plain := by
  by_cases hzero : d.significand = 0
  · rw [literal, if_pos hzero]
    exact ⟨by simp, List.cons_ne_nil _ _, fun _ => rfl, fun x hx => nomatch hx⟩
  · rw [literal, if_neg hzero]
    refine pointed_plain (fun x hx => decimal_lt _ hx) (decimal_ne_nil _) fun hhead => ?_
    exact hzero (Int.natAbs_eq_zero.mp (decimal_head _ hhead))

theorem Decimal.literal_value (d : Decimal) : d.literal.value = d.value := by
  by_cases hzero : d.significand = 0
  · rw [literal, if_pos hzero, value, hzero, Int.cast_zero, zero_mul]
    decide +kernel
  · rw [literal, if_neg hzero, pointed_value (decimal_ne_nil _), value_decimal,
      add_sub_cancel_right, value]
    congr 1
    rcases lt_or_gt_of_ne hzero with hneg | hpos
    · rw [if_pos (decide_eq_true hneg), Nat.cast_natAbs, abs_of_neg hneg]
      push_cast
      ring
    · rw [if_neg (by simpa using hpos.le), Nat.cast_natAbs, abs_of_pos hpos, one_mul]

/-! ### Text -/

def Double.text (x : Double) : List Char := x.decimal.literal.text

def Number.text : Number → List Char
  | .finite x => x.text
  | .infinite false => "Infinity".toList
  | .infinite true => "-Infinity".toList

/-- The number that a numeral of JSON denotes. -/
def readNumber (cs : List Char) : Option Number := (readLiteral cs).map fun l => .ofRat l.value

/-- The number that is read from the text of a double is the double. -/
theorem readNumber_text (x : Double) : readNumber x.text = some (.finite x) := by
  rw [readNumber, Double.text, (Decimal.literal_plain _).read_text, Option.map_some,
    Decimal.literal_value, Number.ofRat_of_nearest x.nearest_decimal]

end CiroFuel.Json
