import Concordance.Number.Scalar
import Mathlib

namespace Concordance

-- Without it a quotient of reals could also be read through the interface.
noncomputable instance Scalar.divReal : Div ℝ := DivInvMonoid.toDiv

noncomputable instance : Scalar ℝ where
  ofNat n := n
  log := Real.log
  exp := Real.exp
  isZero x := decide (x = 0)
  order := compare

namespace Scalar

theorem zero_real : (zero : ℝ) = 0 := Nat.cast_zero

theorem one_real : (one : ℝ) = 1 := Nat.cast_one

theorem half_real : (half : ℝ) = 1 / 2 := by
  show ((1 : Nat) : ℝ) / ((2 : Nat) : ℝ) = 1 / 2
  norm_num

theorem isZero_real {x : ℝ} : isZero x = true ↔ x = 0 := decide_eq_true_iff

end Scalar

end Concordance
