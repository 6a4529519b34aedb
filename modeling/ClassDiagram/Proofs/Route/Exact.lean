import ClassDiagram.Route.Basic
import Mathlib.Algebra.Order.Field.Rat
import Mathlib.Algebra.Order.Field.Basic

/-! The geometry over exact numbers. Most of it says the same about either axis, so that a point is
looked at by its coordinate on an axis, and a rectangle by its range there. -/

namespace ClassDiagram

instance : Scalar ℚ where
  decLt := inferInstance
  decLe := inferInstance
  ofNat n := n
  isFinite _ := true

/-- Angles counted in right angles, for directions along an axis. -/
@[reducible]
def quarterTurns : Angular ℚ where
  sine angle := if angle = 1 then 1 else if angle = -1 then -1 else 0
  cosine angle := if angle = 0 then 1 else if angle = 2 then -1 else 0
  arctangent y x := if 0 < y then 1 else if y < 0 then -1 else if x < 0 then 2 else 0

namespace Scalar

theorem zero_eq : (zero : ℚ) = 0 :=
  rfl

theorem magnitude_eq (x : ℚ) : magnitude x = |x| := by
  unfold magnitude
  rw [zero_eq]
  split
  next negative => exact (abs_of_neg negative).symm
  next other => exact (abs_of_nonneg (not_lt.mp other)).symm

theorem least_eq (x y : ℚ) : least x y = min x y := by
  unfold least
  split
  next less => exact (min_eq_left less.le).symm
  next other =>
    rw [if_pos (beq_self_eq_true y)]
    exact (min_eq_right (not_lt.mp other)).symm

theorem greatest_eq (x y : ℚ) : greatest x y = max x y := by
  unfold greatest
  split
  next less => exact (max_eq_left less.le).symm
  next other =>
    rw [if_pos (beq_self_eq_true y)]
    exact (max_eq_right (not_lt.mp other)).symm

variable {low high x : ℚ}

theorem clamp_of_mem (lower : low ≤ x) (upper : x ≤ high) : clamp low high x = x := by
  rw [clamp, if_neg (not_lt.mpr lower), if_neg (not_lt.mpr upper)]

theorem clamp_mem (ordered : low ≤ high) (x : ℚ) :
    low ≤ clamp low high x ∧ clamp low high x ≤ high := by
  unfold clamp
  split
  next => exact ⟨le_rfl, ordered⟩
  next above =>
    split
    next => exact ⟨ordered, le_rfl⟩
    next below => exact ⟨not_lt.mp above, not_lt.mp below⟩

end Scalar

section Axes

variable {α : Type}

def Axis.cross : Axis → Axis
  | .horizontal => .vertical
  | .vertical => .horizontal

@[simp]
theorem Axis.cross_cross (axis : Axis) : axis.cross.cross = axis := by
  cases axis <;> rfl

def Point.coordinate (p : Point α) : Axis → α
  | .horizontal => p.x
  | .vertical => p.y

theorem Point.eq_of_coordinates {p q : Point α} (axis : Axis)
    (along : p.coordinate axis = q.coordinate axis)
    (across : p.coordinate axis.cross = q.coordinate axis.cross) : p = q := by
  cases p
  cases q
  rw [Point.mk.injEq]
  cases axis with
  | horizontal => exact ⟨along, across⟩
  | vertical => exact ⟨across, along⟩

def Bounds.low (b : Bounds α) : Axis → α
  | .horizontal => b.minX
  | .vertical => b.minY

def Bounds.high (b : Bounds α) : Axis → α
  | .horizontal => b.maxX
  | .vertical => b.maxY

theorem Route.points_eq {r : Route α} {start turn stop : Point α} :
    r.points = [start, turn, stop] ↔ r.start = start ∧ r.bend = turn ∧ r.stop = stop := by
  simp only [points, List.cons.injEq, and_true]

theorem Route.points_of_ok {result : Except RouteError (Route α)} {r : Route α}
    {points : List (Point α)} (routed : result = .ok r) (drawn : result.map Route.points = .ok points) :
    r.points = points := by
  rw [routed] at drawn
  exact Except.ok.inj drawn

theorem Bounds.clamp_coordinate [Scalar α] (b : Bounds α) (p : Point α) (axis : Axis) :
    (b.clamp p).coordinate axis = Scalar.clamp (b.low axis) (b.high axis) (p.coordinate axis) := by
  cases axis <;> rfl

end Axes

theorem Point.sub_coordinate (p q : Point ℚ) (axis : Axis) :
    (p.sub q).coordinate axis = p.coordinate axis - q.coordinate axis := by
  cases axis <;> rfl

theorem Point.lerp_coordinate (p q : Point ℚ) (t : ℚ) (axis : Axis) :
    (p.lerp q t).coordinate axis =
      p.coordinate axis + (q.coordinate axis - p.coordinate axis) * t := by
  cases axis <;> rfl

theorem Point.lerp_level {p q : Point ℚ} {axis : Axis}
    (level : p.coordinate axis = q.coordinate axis) (t : ℚ) :
    (p.lerp q t).coordinate axis = p.coordinate axis := by
  rw [lerp_coordinate, level, sub_self, zero_mul, add_zero]

namespace Bounds

variable {b : Bounds ℚ}

theorem center_coordinate (b : Bounds ℚ) (axis : Axis) :
    b.center.coordinate axis = (b.low axis + b.high axis) / 2 := by
  cases axis <;> rfl

def Proper (b : Bounds ℚ) : Prop := ∀ axis, b.low axis < b.high axis

theorem Proper.ordered (proper : b.Proper) (axis : Axis) : b.low axis ≤ b.high axis :=
  (proper axis).le

/-- Exact numbers are finite, so that only the sides count. -/
theorem isDegenerate_iff : b.isDegenerate = true ↔ b.maxX ≤ b.minX ∨ b.maxY ≤ b.minY := by
  have sides : b.isDegenerate = (decide (b.maxX - b.minX ≤ 0) || decide (b.maxY - b.minY ≤ 0)) :=
    rfl
  rw [sides, Bool.or_eq_true, decide_eq_true_iff, decide_eq_true_iff, sub_nonpos, sub_nonpos]

theorem isDegenerate_eq_false : b.isDegenerate = false ↔ b.Proper := by
  rw [← Bool.not_eq_true, isDegenerate_iff, not_or, not_le, not_le]
  constructor
  · rintro ⟨across, down⟩ (_ | _)
    · exact across
    · exact down
  · intro proper
    exact ⟨proper .horizontal, proper .vertical⟩

end Bounds

end ClassDiagram
