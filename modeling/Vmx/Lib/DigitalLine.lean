import Mathlib.Algebra.Order.Ring.Int
import Mathlib.Tactic.Linarith

/-!
# Digital lines

`roundMul a b k` is `b / a * k` rounded, with halves going up: the row of a digital line with
`b` rows on `a` columns in its column `k`.  `roundMul_succ` is the step of an algorithm that
follows the line with an error term, and `roundMul_inverse` says that the rounded column of a
row has a pixel on that row.
-/

namespace Vmx.Lib

/-- `b / a * k`, rounded. -/
def roundMul (a b k : Int) : Int := (2 * b * k + a) / (2 * a)

variable {a b c k k' j : Int}

theorem roundMul_le (ha : 0 < a) : 2 * a * roundMul a b k ≤ 2 * b * k + a :=
  Int.mul_ediv_self_le (by omega)

theorem lt_roundMul (ha : 0 < a) : 2 * b * k + a < 2 * a * roundMul a b k + 2 * a :=
  Int.lt_mul_ediv_self_add (by omega)

theorem roundMul_unique (ha : 0 < a) (h1 : 2 * a * c ≤ 2 * b * k + a)
    (h2 : 2 * b * k + a < 2 * a * c + 2 * a) : roundMul a b k = c := by
  have h3 := @roundMul_le a b k ha
  have h4 := @lt_roundMul a b k ha
  have hlt : 2 * a * roundMul a b k < 2 * a * (c + 1) := by
    rw [mul_add]
    omega
  have hgt : 2 * a * c < 2 * a * (roundMul a b k + 1) := by
    rw [mul_add]
    omega
  have h5 := lt_of_mul_lt_mul_left hlt (by omega)
  have h6 := lt_of_mul_lt_mul_left hgt (by omega)
  omega

theorem roundMul_zero (ha : 0 < a) : roundMul a b 0 = 0 :=
  roundMul_unique ha (by omega) (by omega)

theorem roundMul_self (ha : 0 < a) : roundMul a b a = b := by
  have h : 2 * b * a = 2 * a * b := by rw [mul_assoc, mul_comm b a, ← mul_assoc]
  exact roundMul_unique ha (by omega) (by omega)

theorem roundMul_mono (ha : 0 < a) (hb : 0 ≤ b) (hk : k ≤ k') :
    roundMul a b k ≤ roundMul a b k' := by
  have h : 2 * b * k ≤ 2 * b * k' := mul_le_mul_of_nonneg_left hk (by omega)
  exact Int.ediv_le_ediv (by omega) (by omega)

/-- One column further the row is the same or the next one. -/
theorem roundMul_succ (ha : 0 < a) (hb : 0 ≤ b) (hba : b ≤ a) :
    roundMul a b (k + 1) =
      if 0 ≤ 2 * b * (k + 1) - a - 2 * a * roundMul a b k then roundMul a b k + 1
      else roundMul a b k := by
  have h1 := @roundMul_le a b k ha
  have h2 := @lt_roundMul a b k ha
  have hk : 2 * b * (k + 1) = 2 * b * k + 2 * b := by rw [mul_add, mul_one]
  have hr : 2 * a * (roundMul a b k + 1) = 2 * a * roundMul a b k + 2 * a := by
    rw [mul_add, mul_one]
  split
  · exact roundMul_unique ha (by omega) (by omega)
  · exact roundMul_unique ha (by omega) (by omega)

/-- On a line with fewer rows than columns, the rounded column of a row is a pixel of it. -/
theorem roundMul_inverse (hb : 0 < b) (hba : b ≤ a) : roundMul a b (roundMul b a j) = j := by
  have h1 := @roundMul_le b a j hb
  have h2 := @lt_roundMul b a j hb
  apply roundMul_unique (by omega) (by omega)
  refine lt_of_le_of_ne (by omega) fun heq => ?_
  -- the only other case is a line of 45 degrees half a pixel off
  have hab : a = b := by omega
  subst hab
  have hodd : a * (2 * roundMul a a j - 2 * j - 1) = 0 := by
    have e1 : 2 * a * roundMul a a j = a * (2 * roundMul a a j) := by
      rw [mul_comm 2 a, mul_assoc]
    have e2 : 2 * a * j = a * (2 * j) := by rw [mul_comm 2 a, mul_assoc]
    rw [mul_sub, mul_sub, mul_one, ← e1, ← e2]
    omega
  rcases mul_eq_zero.1 hodd with h | h
  · omega
  · omega

end Vmx.Lib
