import Mathlib.Algebra.Order.Ring.Int
import Mathlib.Tactic.Common

/-!
# Division rounded to the nearest integer

Halves are rounded away from zero.
-/

namespace RoundedDivision

def roundDiv (n d : Int) : Int :=
  if 0 ≤ n then (2 * n + d) / (2 * d) else -((2 * -n + d) / (2 * d))

example : roundDiv 3 2 = 2 ∧ roundDiv (-3) 2 = -2 ∧ roundDiv (-4) 3 = -1 := by decide

variable {n m d : Int}

@[simp] lemma roundDiv_zero (hd : 0 < d) : roundDiv 0 d = 0 := by
  rw [roundDiv, if_pos le_rfl]
  exact Int.ediv_eq_zero_of_lt (by omega) (by omega)

lemma roundDiv_nonneg (hd : 0 < d) (hn : 0 ≤ n) : 0 ≤ roundDiv n d := by
  rw [roundDiv, if_pos hn]
  exact Int.ediv_nonneg (by omega) (by omega)

lemma roundDiv_nonpos (hd : 0 < d) (hn : n ≤ 0) : roundDiv n d ≤ 0 := by
  by_cases hzero : n = 0
  · rw [hzero, roundDiv_zero hd]
  · rw [roundDiv, if_neg (by omega)]
    have hquot : 0 ≤ (2 * -n + d) / (2 * d) := Int.ediv_nonneg (by omega) (by omega)
    omega

/-- The result is negative from half a unit below zero on. -/
lemma roundDiv_nonneg_iff (hd : 0 < d) : 0 ≤ roundDiv n d ↔ -d < 2 * n := by
  by_cases hn : 0 ≤ n
  · exact iff_of_true (roundDiv_nonneg hd hn) (by omega)
  · rw [roundDiv, if_neg hn]
    have hquot : (2 * -n + d) / (2 * d) < 1 ↔ 2 * -n + d < 1 * (2 * d) :=
      Int.ediv_lt_iff_lt_mul (by omega)
    omega

lemma roundDiv_mono (hd : 0 < d) (h : n ≤ m) : roundDiv n d ≤ roundDiv m d := by
  by_cases hn : 0 ≤ n
  · rw [roundDiv, if_pos hn, roundDiv, if_pos (by omega)]
    exact Int.ediv_le_ediv (by omega) (by omega)
  · by_cases hm : 0 ≤ m
    · exact le_trans (roundDiv_nonpos hd (by omega)) (roundDiv_nonneg hd hm)
    · rw [roundDiv, if_neg hn, roundDiv, if_neg hm]
      have hquot : (2 * -m + d) / (2 * d) ≤ (2 * -n + d) / (2 * d) :=
        Int.ediv_le_ediv (by omega) (by omega)
      omega

end RoundedDivision
