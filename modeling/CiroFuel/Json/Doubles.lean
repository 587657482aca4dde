import Mathlib.Algebra.Order.Round
import Mathlib.Data.Int.Log
import Mathlib.Data.Rat.Floor
import Mathlib.Tactic.Linarith
import Mathlib.Tactic.NormNum
import Mathlib.Tactic.Positivity
import Mathlib.Tactic.FieldSimp
import Mathlib.Tactic.Ring

/-!
# Doubles

The finite numbers of 64 bits are the multiples of a power of two with a mantissa of
53 bits. A rational is rounded to the nearest of them, and of two to the one whose
mantissa is even. A double is written with the fewest decimal digits that are rounded
to it again.
-/
namespace CiroFuel.Json

/-- A mantissa of 53 bits and an exponent in its range. -/
def Representable (q : ℚ) : Prop :=
  ∃ m e : ℤ, |m| < 2 ^ 53 ∧ -1074 ≤ e ∧ e ≤ 971 ∧ q = m * 2 ^ e

structure Double where
  value : ℚ
  representable : Representable value
deriving DecidableEq

inductive Number where
  | finite (x : Double)
  | infinite (negative : Bool)
deriving DecidableEq

/-- The nearest integer, and the even one of two. -/
def nearestInt (q : ℚ) : ℤ :=
  let below := ⌊q⌋
  if q - below < 1 / 2 then below
  else if 1 / 2 < q - below then below + 1
  else if Even below then below else below + 1

section nearestInt
variable {q : ℚ}

@[simp] theorem nearestInt_intCast (n : ℤ) : nearestInt n = n := by
  simp [nearestInt]

theorem nearestInt_floor (q : ℚ) : nearestInt q = ⌊q⌋ ∨ nearestInt q = ⌊q⌋ + 1 ∧ (⌊q⌋ : ℚ) < q := by
  by_cases hlow : q - ⌊q⌋ < 1 / 2
  · exact .inl (if_pos hlow)
  · have hlt : (⌊q⌋ : ℚ) < q := by linarith
    simp only [nearestInt, if_neg hlow]
    split_ifs
    · exact .inr ⟨rfl, hlt⟩
    · exact .inl rfl
    · exact .inr ⟨rfl, hlt⟩

theorem le_nearestInt {n : ℤ} (h : (n : ℚ) ≤ q) : n ≤ nearestInt q := by
  have hfloor : n ≤ ⌊q⌋ := Int.le_floor.mpr h
  rcases nearestInt_floor q with heq | ⟨heq, -⟩ <;> omega

theorem nearestInt_le {n : ℤ} (h : q ≤ n) : nearestInt q ≤ n := by
  have hfloor : ⌊q⌋ ≤ n := Int.floor_le_iff.mpr (by linarith)
  rcases nearestInt_floor q with heq | ⟨heq, hlt⟩
  · omega
  · have hlt : ⌊q⌋ < n := by exact_mod_cast hlt.trans_le h
    omega

theorem nearestInt_mono {p : ℚ} (h : p ≤ q) : nearestInt p ≤ nearestInt q := by
  rcases (Int.floor_mono h).lt_or_eq with hlt | heq
  · have hp : nearestInt p ≤ ⌊q⌋ := by
      rcases nearestInt_floor p with hp | ⟨hp, -⟩ <;> omega
    exact hp.trans (le_nearestInt (Int.floor_le q))
  · -- Both lie between the same integers, and the fraction of `p` is no larger.
    simp only [nearestInt, heq]
    split_ifs <;> first | omega | linarith

theorem abs_nearestInt_le {n : ℤ} (h : |q| ≤ n) : |nearestInt q| ≤ n := by
  obtain ⟨hlow, hhigh⟩ := abs_le.mp h
  apply abs_le.mpr
  constructor
  · exact le_nearestInt (by push_cast; exact hlow)
  · exact nearestInt_le hhigh

theorem le_abs_nearestInt {n : ℤ} (h : (n : ℚ) ≤ |q|) : n ≤ |nearestInt q| := by
  rcases le_abs'.mp h with hlow | hhigh
  · have hle : nearestInt q ≤ -n := nearestInt_le (by push_cast; exact hlow)
    exact le_abs'.mpr (.inl hle)
  · exact le_abs'.mpr (.inr (le_nearestInt hhigh))

end nearestInt

/-! ### Rounding -/

/-- The exponent of the last of 53 binary places. -/
def lastPlace (q : ℚ) : ℤ := max (Int.log 2 |q| - 52) (-1074)

/-- The nearest number of 53 binary places, whatever its size. -/
def nearest (q : ℚ) : ℚ := nearestInt (q / 2 ^ lastPlace q) * 2 ^ lastPlace q

section nearest
variable {q : ℚ}

theorem abs_mul_zpow (m : ℚ) (e : ℤ) : |m * 2 ^ e| = |m| * 2 ^ e := by
  rw [abs_mul, abs_of_pos (zpow_pos (by norm_num : (0 : ℚ) < 2) e)]

theorem abs_div_zpow (m : ℚ) (e : ℤ) : |m / 2 ^ e| = |m| / 2 ^ e := by
  rw [abs_div, abs_of_pos (zpow_pos (by norm_num : (0 : ℚ) < 2) e)]

theorem two_pow_split (m n : ℕ) : (2 : ℚ) ^ (m + n) = 2 ^ m * 2 ^ (n : ℤ) := by
  rw [pow_add, zpow_natCast]

theorem two_zpow_log_le (hq : q ≠ 0) : (2 : ℚ) ^ Int.log 2 |q| ≤ |q| := by
  exact_mod_cast Int.zpow_log_le_self (R := ℚ) Nat.one_lt_two (abs_pos.mpr hq)

theorem lt_two_zpow_log (q : ℚ) : |q| < (2 : ℚ) ^ (Int.log 2 |q| + 1) := by
  exact_mod_cast Int.lt_zpow_succ_log_self (R := ℚ) Nat.one_lt_two |q|

theorem abs_scaled_le (q : ℚ) : |q / 2 ^ lastPlace q| ≤ (2 ^ 53 : ℤ) := by
  have hle : Int.log 2 |q| + 1 ≤ lastPlace q + 53 := by
    have := le_max_left (Int.log 2 |q| - 52) (-1074)
    rw [lastPlace]
    omega
  rw [abs_div_zpow, div_le_iff₀ (zpow_pos (by norm_num) _)]
  calc |q| ≤ 2 ^ (Int.log 2 |q| + 1) := (lt_two_zpow_log q).le
    _ ≤ 2 ^ (lastPlace q + 53) := zpow_le_zpow_right₀ (by norm_num) hle
    _ = ((2 ^ 53 : ℤ) : ℚ) * 2 ^ lastPlace q := by
        rw [zpow_add₀ (by norm_num), mul_comm]
        norm_cast

/-- What has no more than 53 places and is not too large is representable. -/
theorem representable_of_places {m e : ℤ} (hm : |m| < 2 ^ 53) (hfirst : -1074 ≤ e)
    (hq : q = m * 2 ^ e) (h : |q| < 2 ^ 1024) : Representable q := by
  rcases le_or_gt e 971 with hlast | hlast
  · exact ⟨m, e, hm, hfirst, hlast, hq⟩
  · obtain ⟨n, hn⟩ := Int.eq_ofNat_of_zero_le (sub_nonneg.mpr hlast.le)
    have hexponent : q = ((m * 2 ^ n : ℤ) : ℚ) * 2 ^ (971 : ℤ) := by
      rw [hq, show e = n + 971 by omega, zpow_add₀ (by norm_num), zpow_natCast, ← mul_assoc,
        Int.cast_mul, Int.cast_pow, Int.cast_ofNat]
    refine ⟨m * 2 ^ n, 971, ?_, by norm_num, le_rfl, hexponent⟩
    rw [hexponent, abs_mul_zpow, two_pow_split 53 971] at h
    have hlt := lt_of_mul_lt_mul_right h (zpow_nonneg (by norm_num) _)
    exact_mod_cast hlt

/-- What is rounded has no more than 53 places. -/
theorem nearest_places (q : ℚ) :
    ∃ m e : ℤ, |m| < 2 ^ 53 ∧ -1074 ≤ e ∧ nearest q = m * 2 ^ e := by
  have hfirst : -1074 ≤ lastPlace q := le_max_right _ _
  have hmantissa := abs_nearestInt_le (abs_scaled_le q)
  rcases hmantissa.lt_or_eq with hlt | heq
  · exact ⟨_, _, hlt, hfirst, rfl⟩
  · -- the mantissa was rounded up to the next power of two
    rcases abs_eq (by norm_num) |>.mp heq with heq | heq
    · refine ⟨2 ^ 52, lastPlace q + 1, by norm_num, by omega, ?_⟩
      rw [nearest, heq, zpow_add₀ (by norm_num)]
      push_cast
      ring
    · refine ⟨-2 ^ 52, lastPlace q + 1, by norm_num, by omega, ?_⟩
      rw [nearest, heq, zpow_add₀ (by norm_num)]
      push_cast
      ring

/-- A representable number has no more places than are kept. -/
theorem lastPlace_le_exponent {m e : ℤ} (hm : |m| < 2 ^ 53) (he : -1074 ≤ e)
    (hq : q = m * 2 ^ e) (hzero : q ≠ 0) : lastPlace q ≤ e := by
  apply max_le _ he
  have hlt : (2 : ℚ) ^ Int.log 2 |q| < 2 ^ (53 + e) := by
    calc (2 : ℚ) ^ Int.log 2 |q| ≤ |q| := two_zpow_log_le hzero
      _ = (|m| : ℤ) * 2 ^ e := by rw [hq, abs_mul_zpow, Int.cast_abs]
      _ < 2 ^ (53 : ℤ) * 2 ^ e := by
          apply mul_lt_mul_of_pos_right _ (zpow_pos (by norm_num) _)
          exact_mod_cast hm
      _ = 2 ^ (53 + e) := (zpow_add₀ (by norm_num) _ _).symm
  have := (zpow_lt_zpow_iff_right₀ (by norm_num : (1 : ℚ) < 2)).mp hlt
  omega

/-- What has no more than 53 places is not changed by rounding. -/
theorem nearest_of_places {m e : ℤ} (hm : |m| < 2 ^ 53) (hfirst : -1074 ≤ e)
    (hq : q = m * 2 ^ e) : nearest q = q := by
  by_cases hzero : q = 0
  · rw [hzero]
    decide +kernel
  · have hle := lastPlace_le_exponent hm hfirst hq hzero
    obtain ⟨n, hn⟩ := Int.eq_ofNat_of_zero_le (sub_nonneg.mpr hle)
    have hscaled : q / 2 ^ lastPlace q = ((m * 2 ^ n : ℤ) : ℚ) := by
      rw [div_eq_iff (zpow_ne_zero _ (by norm_num))]
      calc q = m * 2 ^ ((n : ℤ) + lastPlace q) := by rw [← hn, sub_add_cancel, ← hq]
        _ = m * 2 ^ n * 2 ^ lastPlace q := by
            rw [zpow_add₀ (by norm_num), zpow_natCast, mul_assoc]
        _ = ((m * 2 ^ n : ℤ) : ℚ) * 2 ^ lastPlace q := by
            rw [Int.cast_mul, Int.cast_pow, Int.cast_ofNat]
    have hkept : (nearestInt (q / 2 ^ lastPlace q) : ℚ) = q / 2 ^ lastPlace q := by
      rw [hscaled, nearestInt_intCast]
    rw [nearest, hkept, div_mul_cancel₀ _ (zpow_ne_zero _ (by norm_num))]

/-- What is representable is not changed by rounding. -/
theorem nearest_eq (h : Representable q) : nearest q = q := by
  obtain ⟨m, e, hm, hfirst, -, hq⟩ := h
  exact nearest_of_places hm hfirst hq

@[simp] theorem nearest_zero : nearest 0 = 0 := by
  decide +kernel

theorem representable_nearest (h : |nearest q| < 2 ^ 1024) : Representable (nearest q) := by
  obtain ⟨m, e, hm, hfirst, heq⟩ := nearest_places q
  exact representable_of_places hm hfirst heq h

/-- What has been rounded is not changed by rounding again. -/
theorem nearest_nearest (q : ℚ) : nearest (nearest q) = nearest q := by
  obtain ⟨m, e, hm, hfirst, heq⟩ := nearest_places q
  exact nearest_of_places hm hfirst heq

theorem nearest_nonneg (h : 0 ≤ q) : 0 ≤ nearest q := by
  have hscaled : ((0 : ℤ) : ℚ) ≤ q / 2 ^ lastPlace q := by
    rw [Int.cast_zero]
    exact div_nonneg h (zpow_nonneg (by norm_num) _)
  apply mul_nonneg _ (zpow_nonneg (by norm_num) _)
  exact_mod_cast le_nearestInt hscaled

theorem nearest_nonpos (h : q ≤ 0) : nearest q ≤ 0 := by
  have hscaled : q / 2 ^ lastPlace q ≤ ((0 : ℤ) : ℚ) := by
    rw [Int.cast_zero]
    exact div_nonpos_of_nonpos_of_nonneg h (zpow_nonneg (by norm_num) _)
  apply mul_nonpos_of_nonpos_of_nonneg _ (zpow_nonneg (by norm_num) _)
  exact_mod_cast nearestInt_le hscaled

/-- Of two numbers that are cut at different places, the one cut further right stays the
smaller: a power of two lies between them. -/
theorem abs_nearest_le {p q : ℚ} (hq : q ≠ 0) (hplace : lastPlace p < lastPlace q) :
    |nearest p| ≤ |nearest q| := by
  have hfirst : Int.log 2 |p| - 52 ≤ lastPlace p := le_max_left _ _
  have hleast : -1074 ≤ lastPlace p := le_max_right _ _
  have hlast : lastPlace q = Int.log 2 |q| - 52 := by
    have hmax : lastPlace q = max (Int.log 2 |q| - 52) (-1074) := rfl
    omega
  have hlog : Int.log 2 |p| + 1 ≤ Int.log 2 |q| := by
    omega
  have hpower : |p| ≤ 2 ^ Int.log 2 |q| :=
    (lt_two_zpow_log p).le.trans (zpow_le_zpow_right₀ (by norm_num) hlog)
  have hint : ∀ {r : ℚ}, lastPlace r ≤ Int.log 2 |q| → ∃ n : ℕ,
      ((2 ^ n : ℤ) : ℚ) * 2 ^ lastPlace r = 2 ^ Int.log 2 |q| := by
    intro r hr
    obtain ⟨n, hn⟩ := Int.eq_ofNat_of_zero_le (sub_nonneg.mpr hr)
    refine ⟨n, ?_⟩
    rw [show Int.log 2 |q| = n + lastPlace r by omega, zpow_add₀ (by norm_num), zpow_natCast]
    norm_cast
  calc |nearest p| ≤ 2 ^ Int.log 2 |q| := by
        obtain ⟨n, hn⟩ := hint (r := p) (by omega)
        have hscaled : |p / 2 ^ lastPlace p| ≤ ((2 ^ n : ℤ) : ℚ) := by
          rw [abs_div_zpow, div_le_iff₀ (zpow_pos (by norm_num) _), hn]
          exact hpower
        rw [nearest, abs_mul_zpow, ← hn]
        apply mul_le_mul_of_nonneg_right _ (zpow_nonneg (by norm_num) _)
        exact_mod_cast abs_nearestInt_le hscaled
    _ ≤ |nearest q| := by
        obtain ⟨n, hn⟩ := hint (r := q) (by omega)
        have hscaled : ((2 ^ n : ℤ) : ℚ) ≤ |q / 2 ^ lastPlace q| := by
          rw [abs_div_zpow, le_div_iff₀ (zpow_pos (by norm_num) _), hn]
          exact two_zpow_log_le hq
        rw [nearest, abs_mul_zpow, ← hn]
        apply mul_le_mul_of_nonneg_right _ (zpow_nonneg (by norm_num) _)
        exact_mod_cast le_abs_nearestInt hscaled

theorem lastPlace_mono {p q : ℚ} (hp : p ≠ 0) (h : |p| ≤ |q|) : lastPlace p ≤ lastPlace q := by
  have hlog : Int.log 2 |p| ≤ Int.log 2 |q| := Int.log_mono_right (abs_pos.mpr hp) h
  rw [lastPlace, lastPlace]
  exact max_le_max_right _ (by omega)

/-- Numbers that are cut at one place keep their order. -/
theorem nearest_le_of_place {p q : ℚ} (h : p ≤ q) (hplace : lastPlace p = lastPlace q) :
    nearest p ≤ nearest q := by
  rw [nearest, nearest, hplace]
  apply mul_le_mul_of_nonneg_right _ (zpow_nonneg (by norm_num) _)
  have hscaled : p / 2 ^ lastPlace q ≤ q / 2 ^ lastPlace q :=
    div_le_div_of_nonneg_right h (zpow_nonneg (by norm_num) _)
  exact_mod_cast nearestInt_mono hscaled

/-- Rounding keeps the order. -/
theorem nearest_mono : Monotone nearest := by
  intro p q h
  rcases le_or_gt q 0 with hq | hq
  · -- Both are negative or zero, and `p` is the larger in size.
    rcases hq.lt_or_eq with hq | rfl
    · have habs : |q| ≤ |p| := by
        rw [abs_of_neg hq, abs_of_neg (h.trans_lt hq)]
        exact neg_le_neg h
      rcases (lastPlace_mono hq.ne habs).lt_or_eq with hplace | hplace
      · have hle := abs_nearest_le (h.trans_lt hq).ne hplace
        rw [abs_of_nonpos (nearest_nonpos hq.le), abs_of_nonpos (nearest_nonpos (h.trans hq.le))]
          at hle
        exact neg_le_neg_iff.mp hle
      · exact nearest_le_of_place h hplace.symm
    · rw [nearest_zero]
      exact nearest_nonpos h
  · rcases le_or_gt p 0 with hp | hp
    · exact (nearest_nonpos hp).trans (nearest_nonneg hq.le)
    · have habs : |p| ≤ |q| := by
        rwa [abs_of_pos hp, abs_of_pos hq]
      rcases (lastPlace_mono hp.ne' habs).lt_or_eq with hplace | hplace
      · have hle := abs_nearest_le hq.ne' hplace
        rwa [abs_of_nonneg (nearest_nonneg hp.le), abs_of_nonneg (nearest_nonneg hq.le)] at hle
      · exact nearest_le_of_place h hplace

end nearest

theorem Representable.abs_lt {q : ℚ} (h : Representable q) : |q| < 2 ^ 1024 := by
  obtain ⟨m, e, hm, -, he, rfl⟩ := h
  have hm : |(m : ℚ)| < 2 ^ 53 := by exact_mod_cast hm
  have hpow : (2 : ℚ) ^ e ≤ 2 ^ (971 : ℤ) := zpow_le_zpow_right₀ (by norm_num) he
  rw [abs_mul_zpow]
  calc |(m : ℚ)| * 2 ^ e < 2 ^ 53 * 2 ^ (971 : ℤ) :=
        mul_lt_mul hm hpow (zpow_pos (by norm_num) _) (by norm_num)
    _ = 2 ^ 1024 := (two_pow_split 53 971).symm

/-- The number nearest to a rational. -/
def Number.ofRat (q : ℚ) : Number :=
  if h : |nearest q| < 2 ^ 1024 then .finite ⟨nearest q, representable_nearest h⟩
  else .infinite (q < 0)

theorem Number.ofRat_of_nearest {q : ℚ} {x : Double} (h : nearest q = x.value) :
    ofRat q = .finite x := by
  have hlt : |nearest q| < 2 ^ 1024 := h ▸ x.representable.abs_lt
  rw [ofRat, dif_pos hlt]
  congr

end CiroFuel.Json
