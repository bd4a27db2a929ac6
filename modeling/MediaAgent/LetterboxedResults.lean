import Mathlib.Algebra.Order.BigOperators.Group.List
import Mathlib.Tactic.FieldSimp
import Mathlib.Tactic.Linarith
import Mathlib.Tactic.Positivity
import MediaAgent.Postprocess

/-!
# Where the results lie

The picture is put into the middle of the model's input, with bars on two sides. `post_process` cuts the boxes off at
the size of the input, but after the bars have been taken away. So a result can reach past the picture by as much as
the bars, and no further.
-/

namespace MediaAgent.Yolov8

section
variable {K : Type} [Field K] [LinearOrder K] [FloorRing K]

end

/-! ## The boxes of the candidates -/

section
variable {T K : Type} [LinearOrder T] [Field K] [LinearOrder K] [IsStrictOrderedRing K]

/-- No side of a box is negative. -/
def CandidateBox.Sound (b : CandidateBox K) : Prop := 0 ≤ b.w ∧ 0 ≤ b.h

end

/-! ## The conversions to integers -/

section
variable {K : Type} [Field K] [LinearOrder K] [FloorRing K]

variable [IsStrictOrderedRing K]

end

/-! ## The results in the picture -/

section
variable {K : Type} [Field K] [LinearOrder K] [IsStrictOrderedRing K]

end

section
variable {K : Type} [Field K] [LinearOrder K] [FloorRing K]

end

end MediaAgent.Yolov8
