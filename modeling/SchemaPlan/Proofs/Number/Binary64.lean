import Mathlib.Algebra.Order.Field.Rat
import Mathlib.Algebra.Order.Field.Basic
import Mathlib.Tactic.Positivity
import SchemaPlan.Number.Binary64

/-!
# The order of floating point numbers

Floating point numbers are compared by their exact values.

* `le_iff`: one number is at most another iff its value is.
-/

set_option autoImplicit false

namespace SchemaPlan.Number.Binary64

variable {x y z : Binary64}

/-- The exact value. -/
def value (x : Binary64) : ℚ :=
  signed x.negative x.num / x.den

theorem den_pos (x : Binary64) : 0 < x.den :=
  Nat.pow_pos (by decide)

theorem signed_mul (negative : Bool) (m n : Nat) :
    signed negative (m * n) = signed negative m * n := by
  cases negative <;> simp [signed]

/-- Numbers are compared by their values. -/
theorem le_iff : x.le y = true ↔ x.value ≤ y.value := by
  have hx : (0 : ℚ) < x.den := Nat.cast_pos.2 x.den_pos
  have hy : (0 : ℚ) < y.den := Nat.cast_pos.2 y.den_pos
  rw [value, value, div_le_div_iff₀ hx hy, le, decide_eq_true_eq, signed_mul, signed_mul]
  exact_mod_cast Iff.rfl

theorem le_total (x y : Binary64) : x.le y = true ∨ y.le x = true := by
  rw [le_iff, le_iff]
  exact Std.Total.total x.value y.value

theorem le_trans (hxy : x.le y = true) (hyz : y.le z = true) : x.le z = true := by
  rw [le_iff] at hxy hyz ⊢
  exact hxy.trans hyz

end SchemaPlan.Number.Binary64
