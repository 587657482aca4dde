import CiroFuel.Json.Doubles

/-!
# Rounded arithmetic

A result of limited precision is the exact one, rounded to a number that can be
stored. Rounding keeps the order and leaves what can be stored alone. Nothing else is
assumed of it, so that exact rationals and doubles are two instances.
-/
namespace CiroFuel

structure Arithmetic where
  round : ℚ → ℚ
  monotone : Monotone round
  idempotent : ∀ q, round (round q) = round q
  zero : round 0 = 0

namespace Arithmetic

/-- Nothing is rounded. -/
def exact : Arithmetic where
  round := id
  monotone := monotone_id
  idempotent := fun _ => rfl
  zero := rfl

/-- Numbers of 64 bits, of any size. -/
def doubles : Arithmetic where
  round := Json.nearest
  monotone := Json.nearest_mono
  idempotent := Json.nearest_nearest
  zero := Json.nearest_zero

@[simp] theorem exact_round (q : ℚ) : exact.round q = q := rfl

variable (A : Arithmetic) {p q : ℚ}

/-- A number that can be stored. -/
def Number (q : ℚ) : Prop := A.round q = q

/-- Every number can be stored. -/
def Exact : Prop := ∀ q, A.Number q

variable {A}

theorem number_round (q : ℚ) : A.Number (A.round q) := A.idempotent q

theorem number_zero : A.Number 0 := A.zero

theorem exact_exact : exact.Exact := fun _ => rfl

theorem round_le (hq : A.Number q) (h : p ≤ q) : A.round p ≤ q :=
  (A.monotone h).trans_eq hq

theorem le_round (hp : A.Number p) (h : p ≤ q) : p ≤ A.round q :=
  hp.symm.trans_le (A.monotone h)

theorem round_nonneg (h : 0 ≤ q) : 0 ≤ A.round q := le_round number_zero h

/-! ### Multiples of a fraction -/

variable (A) in
/-- Rounds to a multiple of `1 / factor`, half up. -/
def roundTo (factor : ℕ) (value : ℚ) : ℚ :=
  A.round ((A.round (value * factor) + 1 / 2).floor / factor)

section roundTo
variable {factor : ℕ}

theorem roundTo_mono (h : p ≤ q) : A.roundTo factor p ≤ A.roundTo factor q := by
  have hcast : (0 : ℚ) ≤ factor := Nat.cast_nonneg factor
  have hscaled : A.round (p * factor) ≤ A.round (q * factor) :=
    A.monotone (mul_le_mul_of_nonneg_right h hcast)
  have hfloor : ⌊A.round (p * factor) + 1 / 2⌋ ≤ ⌊A.round (q * factor) + 1 / 2⌋ := by
    apply Int.floor_mono
    linarith
  apply A.monotone
  apply div_le_div_of_nonneg_right _ hcast
  exact_mod_cast hfloor

@[simp] theorem roundTo_zero : A.roundTo factor 0 = 0 := by
  have hfloor : ⌊A.round (0 * factor) + 1 / 2⌋ = 0 := by
    rw [zero_mul, A.zero]
    norm_num
  change A.round (⌊A.round (0 * factor) + 1 / 2⌋ / factor) = 0
  rw [hfloor, Int.cast_zero, zero_div, A.zero]

theorem roundTo_nonneg (h : 0 ≤ q) : 0 ≤ A.roundTo factor q :=
  roundTo_zero.symm.trans_le (roundTo_mono h)

theorem roundTo_nonpos (h : q ≤ 0) : A.roundTo factor q ≤ 0 :=
  (roundTo_mono h).trans_eq roundTo_zero

end roundTo

/-! ### Sums -/

variable (A) in
/-- The numbers of a list, added up from the last one on. -/
def sum (l : List ℚ) : ℚ := l.foldr (fun q s => A.round (s + q)) 0

section sum
variable {l l' : List ℚ}

@[simp] theorem sum_nil : A.sum [] = 0 := rfl

@[simp] theorem sum_cons (q : ℚ) (l : List ℚ) : A.sum (q :: l) = A.round (A.sum l + q) := rfl

theorem number_sum : A.Number (A.sum l) := by
  cases l with
  | nil => exact number_zero
  | cons q l => exact number_round _

theorem sum_zero_cons : A.sum (0 :: l) = A.sum l := by
  rw [sum_cons, add_zero]
  exact number_sum

theorem sum_le_sum {α : Type} {f g : α → ℚ} {l : List α} (h : ∀ a ∈ l, f a ≤ g a) :
    A.sum (l.map f) ≤ A.sum (l.map g) := by
  induction l with
  | nil => exact le_rfl
  | cons a l ih =>
      apply A.monotone
      exact add_le_add (ih fun b hb => h b (List.mem_cons_of_mem _ hb)) (h a List.mem_cons_self)

/-- Adding nothing positive does not make a sum larger. -/
theorem sum_append_le (h : ∀ q ∈ l, q ≤ 0) : A.sum (l ++ l') ≤ A.sum l' := by
  induction l with
  | nil => exact le_rfl
  | cons q l ih =>
      rw [List.cons_append, sum_cons]
      apply round_le number_sum
      have hq := h q List.mem_cons_self
      have hl := ih fun p hp => h p (List.mem_cons_of_mem _ hp)
      linarith

theorem le_sum_append (h : ∀ q ∈ l, 0 ≤ q) : A.sum l' ≤ A.sum (l ++ l') := by
  induction l with
  | nil => exact le_rfl
  | cons q l ih =>
      rw [List.cons_append, sum_cons]
      apply le_round number_sum
      have hq := h q List.mem_cons_self
      have hl := ih fun p hp => h p (List.mem_cons_of_mem _ hp)
      linarith

theorem sum_append_zero (h : ∀ q ∈ l, q = 0) : A.sum (l ++ l') = A.sum l' :=
  le_antisymm (sum_append_le fun q hq => (h q hq).le) (le_sum_append fun q hq => (h q hq).ge)

end sum
end Arithmetic
end CiroFuel
