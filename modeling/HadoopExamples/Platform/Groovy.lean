import Mathlib.Algebra.Order.Ring.Int

set_option autoImplicit false

/-! # What the Groovy scripts use of Groovy -/

namespace HadoopExamples.Groovy

/-- The range `(a .. b)`: both ends are in it, and it counts down if `b` is the smaller one. -/
def range (a b : ℤ) : List ℤ :=
  if a ≤ b then (List.range (b - a + 1).toNat).map fun (i : ℕ) => a + i
  else (List.range (a - b + 1).toNat).map fun (i : ℕ) => a - i

/-- From zero to `n` there are `n + 1` numbers. -/
theorem length_range_zero (n : ℕ) : (range 0 n).length = n + 1 := by
  unfold range
  rw [if_pos (by omega), List.length_map, List.length_range]
  omega

end HadoopExamples.Groovy
