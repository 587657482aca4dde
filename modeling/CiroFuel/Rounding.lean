import CiroFuel.Pricing
import Mathlib.Algebra.Group.Subgroup.ZPowers.Basic
import Mathlib.Algebra.Order.Ring.Rat
import Mathlib.Data.Rat.Floor
import Mathlib.Tactic.Linarith

/-!
# Rounded amounts

Rounding to a fraction lands on its multiples, leaves them alone and keeps the
order of amounts. Sums of multiples are multiples, so what is composed of rounded
amounts is not rounded again.
-/
namespace CiroFuel

/-- The multiples of `1 / factor`. -/
def grid (factor : ℕ) : AddSubgroup ℚ := AddSubgroup.zmultiples (1 / (factor : ℚ))

section grid
variable {factor : ℕ} {p q : ℚ}

theorem mem_grid : q ∈ grid factor ↔ ∃ n : ℤ, (n : ℚ) / factor = q := by
  rw [grid, AddSubgroup.mem_zmultiples_iff]
  constructor
  · rintro ⟨n, rfl⟩
    exact ⟨n, by rw [zsmul_eq_mul, mul_one_div]⟩
  · rintro ⟨n, rfl⟩
    exact ⟨n, by rw [zsmul_eq_mul, mul_one_div]⟩

theorem roundTo_mem (q : ℚ) : roundTo factor q ∈ grid factor := mem_grid.mpr ⟨_, rfl⟩

theorem roundTo_eq (hfactor : factor ≠ 0) (h : q ∈ grid factor) : roundTo factor q = q := by
  obtain ⟨n, rfl⟩ := mem_grid.mp h
  have hcast : (factor : ℚ) ≠ 0 := Nat.cast_ne_zero.mpr hfactor
  have hfloor : (n / factor * factor + 1 / 2 : ℚ).floor = n := by
    rw [div_mul_cancel₀ _ hcast]
    change ⌊(n + 1 / 2 : ℚ)⌋ = n
    rw [Int.floor_eq_iff]
    constructor
    · linarith
    · linarith
  rw [roundTo, hfloor]

theorem roundTo_mono (h : p ≤ q) : roundTo factor p ≤ roundTo factor q :=
  Arithmetic.roundTo_mono (A := .exact) h

end grid
end CiroFuel
