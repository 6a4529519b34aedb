import ClassDiagram.Proofs.Route.Anchors
import Mathlib.Tactic.Linarith
import Mathlib.Tactic.Ring

/-! The direction in which a route arrives, which turns its marker. It is that of the last segment,
of the first one if the last has no length, and the dominant one if neither has. So it is never
zero, and always along an axis. -/

namespace ClassDiagram

namespace Point

variable {p q : Point ℚ}

theorem isZero_sub (p q : Point ℚ) : (p.sub q).isZero = decide (p = q) := by
  have zero : (p.sub q).isZero = (p.x - q.x == 0 && p.y - q.y == 0) := rfl
  rw [zero, Bool.eq_iff_iff, Bool.and_eq_true, beq_iff_eq, beq_iff_eq, sub_eq_zero, sub_eq_zero,
    decide_eq_true_iff]
  exact ⟨fun both => eq_of_coordinates .horizontal both.1 both.2, fun same => same ▸ ⟨rfl, rfl⟩⟩

theorem ne_iff_coordinate {axis : Axis}
    (level : p.coordinate axis.cross = q.coordinate axis.cross) :
    p ≠ q ↔ p.coordinate axis ≠ q.coordinate axis := by
  refine not_congr ⟨fun same => same ▸ rfl, fun along => eq_of_coordinates axis along level⟩

def IsStraight (p : Point ℚ) : Prop := p ≠ ⟨0, 0⟩ ∧ (p.x = 0 ∨ p.y = 0)

theorem isStraight_of_coordinate {axis : Axis} (along : p.coordinate axis ≠ 0)
    (across : p.coordinate axis.cross = 0) : p.IsStraight := by
  refine ⟨?_, ?_⟩
  · rintro rfl
    cases axis <;> exact along rfl
  · cases axis with
    | horizontal => exact .inr across
    | vertical => exact .inl across

end Point

namespace Bounds

/-- The ranges of two rectangles on an axis share more than an end. -/
def Overlaps (a b : Bounds ℚ) (axis : Axis) : Prop :=
  a.low axis < b.high axis ∧ b.low axis < a.high axis

def halfLengths (a b : Bounds ℚ) (axis : Axis) : ℚ :=
  ((a.high axis - a.low axis) + (b.high axis - b.low axis)) / 2

theorem halfLengths_pos {a b : Bounds ℚ} (proper : a.Proper) (proper' : b.Proper) (axis : Axis) :
    0 < halfLengths a b axis :=
  half_pos (add_pos (sub_pos.mpr (proper axis)) (sub_pos.mpr (proper' axis)))

theorem overlaps_iff (a b : Bounds ℚ) (axis : Axis) :
    a.Overlaps b axis ↔ |(b.center.sub a.center).coordinate axis| < halfLengths a b axis := by
  rw [Point.sub_coordinate, center_coordinate, center_coordinate, abs_lt, Overlaps, halfLengths]
  constructor
  · rintro ⟨left, right⟩
    constructor <;> linarith
  · rintro ⟨left, right⟩
    constructor <;> linarith

end Bounds

namespace Orthogonal

section Vectors

variable {axis : Axis} (forward : Bool) {start turn stop : Point ℚ}

theorem unit_coordinate (axis : Axis) (forward : Bool) :
    (unit axis forward : Point ℚ).coordinate axis = (if forward then 1 else -1) ∧
      (unit axis forward : Point ℚ).coordinate axis.cross = 0 := by
  cases axis <;> exact ⟨rfl, rfl⟩

theorem direction_of_last (along : turn.coordinate axis = start.coordinate axis)
    (across : turn.coordinate axis.cross = stop.coordinate axis.cross) (long : turn ≠ stop) :
    let d := direction axis forward start turn stop
    d = stop.sub turn ∧ d.coordinate axis = stop.coordinate axis - start.coordinate axis ∧
      d.coordinate axis ≠ 0 ∧ d.coordinate axis.cross = 0 := by
  intro d
  have vector : d = stop.sub turn := by
    simp [d, direction, Point.isZero_sub, long.symm]
  rw [Point.ne_iff_coordinate across, along] at long
  rw [vector, Point.sub_coordinate, Point.sub_coordinate, along, across, sub_self]
  exact ⟨rfl, rfl, sub_ne_zero.mpr long.symm, rfl⟩

theorem direction_of_first (along : turn.coordinate axis = start.coordinate axis)
    (short : turn = stop) (long : start ≠ stop) :
    let d := direction axis forward start turn stop
    d = stop.sub start ∧ d.coordinate axis = 0 ∧ d.coordinate axis.cross ≠ 0 := by
  intro d
  subst short
  have vector : d = turn.sub start := by
    simp [d, direction, Point.isZero_sub, long.symm]
  rw [vector, Point.sub_coordinate, Point.sub_coordinate, along, sub_self]
  refine ⟨rfl, rfl, sub_ne_zero.mpr fun across => long ?_⟩
  exact Point.eq_of_coordinates axis along.symm across.symm

theorem direction_of_neither (short : turn = stop) (same : start = stop) :
    direction axis forward start turn stop = unit axis forward := by
  simp [direction, Point.isZero_sub, short, same]

end Vectors

section Gaps

variable (source target : Bounds ℚ) (axis : Axis)

theorem mul_unit_eq_abs (delta : Point ℚ) :
    delta.coordinate axis * (unit axis (isForward axis delta) : Point ℚ).coordinate axis =
      |delta.coordinate axis| := by
  rw [(unit_coordinate ..).1, isForward_eq]
  rcases le_or_gt 0 (delta.coordinate axis) with ahead | behind
  · rw [decide_eq_true ahead, if_pos rfl, mul_one, abs_of_nonneg ahead]
  · rw [decide_eq_false behind.not_ge, if_neg Bool.false_ne_true, mul_neg_one, abs_of_neg behind]

/-- From side to side it is as far as from center to center, less half of both lengths. -/
theorem gap_mul_unit :
    let delta := target.center.sub source.center
    let forward := isForward axis delta
    (target.edge axis (!forward) - source.edge axis forward) *
        (unit axis forward : Point ℚ).coordinate axis =
      |delta.coordinate axis| - source.halfLengths target axis := by
  intro delta forward
  rw [← mul_unit_eq_abs, Point.sub_coordinate, Bounds.center_coordinate, Bounds.center_coordinate,
    Bounds.halfLengths, (unit_coordinate ..).1]
  cases forward with
  | true =>
      simp only [Bounds.edge, Bool.not_true, Bool.false_eq_true, if_false, if_true]
      ring
  | false =>
      simp only [Bounds.edge, Bool.not_false, Bool.false_eq_true, if_false, if_true]
      ring

variable {source target} [Angular ℚ] {settings : RouterSettings ℚ}
  (kind : RelationshipKind) (number : ℕ)

theorem connect_gap (sourceProper : source.Proper) (targetProper : target.Proper) :
    let delta := target.center.sub source.center
    let axis := dominantAxis delta
    let route := connect settings source target kind number
    (route.stop.coordinate axis - route.start.coordinate axis) *
        (unit axis (isForward axis delta) : Point ℚ).coordinate axis =
      |delta.coordinate axis| - source.halfLengths target axis := by
  intro delta axis route
  have start : route.start.coordinate axis = source.edge axis (isForward axis delta) :=
    ((Bounds.onSide_atEnd _ _).mp (anchor_onSide sourceProper _ _)).1
  have stop : route.stop.coordinate axis = target.edge axis (!isForward axis delta) :=
    ((Bounds.onSide_atEnd _ _).mp (anchor_onSide targetProper _ _)).1
  rw [start, stop]
  exact gap_mul_unit source target axis

end Gaps

/-- The marker is turned by the direction of the last segment. That leads back if the rectangles
overlap on the dominant axis, and has no length if they touch. Then it is the direction of the first
segment, across the dominant axis, and if that has no length either, the direction to the target
along the dominant axis. -/
theorem router_direction [Angular ℚ] (settings : RouterSettings ℚ) (source target : Bounds ℚ)
    (sourceProper : source.isDegenerate = false) (targetProper : target.isDegenerate = false)
    (kind : RelationshipKind) (number : ℕ) :
    let delta := target.center.sub source.center
    let axis := dominantAxis delta
    let forward := isForward axis delta
    ∃ route, router settings source target kind number = .ok route ∧ route.axis = axis ∧
      let d := direction axis forward route.start route.bend route.stop
      route.marker = marker? settings kind route.stop (Angular.arctangent d.y d.x) ∧
      d ≠ ⟨0, 0⟩ ∧ (d.x = 0 ∨ d.y = 0) ∧
      (route.bend ≠ route.stop → d = route.stop.sub route.bend ∧
        d.coordinate axis ≠ 0 ∧ d.coordinate axis.cross = 0 ∧
        (d.coordinate axis * (unit axis forward : Point ℚ).coordinate axis < 0 ↔
          source.Overlaps target axis)) ∧
      (route.bend = route.stop → route.start ≠ route.stop → d = route.stop.sub route.start ∧
        d.coordinate axis = 0 ∧ d.coordinate axis.cross ≠ 0) ∧
      (route.bend = route.stop → route.start = route.stop →
        d.coordinate axis = (if 0 ≤ delta.coordinate axis then 1 else -1) ∧
        d.coordinate axis.cross = 0 ∧ 0 < delta.coordinate axis * d.coordinate axis) := by
  intro delta axis forward
  rw [Bounds.isDegenerate_eq_false] at sourceProper targetProper
  let route := connect settings source target kind number
  refine ⟨route, router_of_proper _ _ _ sourceProper targetProper, rfl, ?_⟩
  intro d
  obtain ⟨along, across⟩ : route.bend.coordinate axis = route.start.coordinate axis ∧
      route.bend.coordinate axis.cross = route.stop.coordinate axis.cross :=
    bend_coordinate route.start route.stop
  have gap : (route.stop.coordinate axis - route.start.coordinate axis) *
      (unit axis forward : Point ℚ).coordinate axis =
        |delta.coordinate axis| - source.halfLengths target axis :=
    connect_gap kind number sourceProper targetProper
  obtain ⟨unit_along, unit_across⟩ := unit_coordinate axis forward
  by_cases short : route.bend = route.stop
  · by_cases same : route.start = route.stop
    · have vector : d = unit axis forward := direction_of_neither forward short same
      have d_along : d.coordinate axis = if 0 ≤ delta.coordinate axis then 1 else -1 := by
        have sign : forward = decide (0 ≤ delta.coordinate axis) := isForward_eq axis delta
        rw [vector, unit_along, sign]
        simp only [decide_eq_true_eq]
      have d_across : d.coordinate axis.cross = 0 := vector ▸ unit_across
      have ahead : 0 < delta.coordinate axis * d.coordinate axis := by
        rw [same, sub_self, zero_mul] at gap
        rw [vector, mul_unit_eq_abs, sub_eq_zero.mp gap.symm]
        exact Bounds.halfLengths_pos sourceProper targetProper axis
      obtain ⟨length, straight⟩ :=
        Point.isStraight_of_coordinate (right_ne_zero_of_mul ahead.ne') d_across
      exact ⟨rfl, length, straight, fun long => absurd short long, fun _ long => absurd same long,
        fun _ _ => ⟨d_along, d_across, ahead⟩⟩
    · obtain ⟨vector, d_along, d_across⟩ := direction_of_first forward along short same
      obtain ⟨length, straight⟩ : d.IsStraight :=
        Point.isStraight_of_coordinate d_across (axis.cross_cross.symm ▸ d_along)
      exact ⟨rfl, length, straight, fun long => absurd short long,
        fun _ _ => ⟨vector, d_along, d_across⟩, fun _ point => absurd point same⟩
  · obtain ⟨vector, run, d_along, d_across⟩ := direction_of_last forward along across short
    obtain ⟨length, straight⟩ : d.IsStraight := Point.isStraight_of_coordinate d_along d_across
    have backwards : d.coordinate axis * (unit axis forward : Point ℚ).coordinate axis < 0 ↔
        source.Overlaps target axis := by
      have way : d.coordinate axis = route.stop.coordinate axis - route.start.coordinate axis := run
      rw [way, gap, sub_neg, Bounds.overlaps_iff]
    exact ⟨rfl, length, straight, fun _ => ⟨vector, d_along, d_across, backwards⟩,
      fun level => absurd level short, fun level => absurd level short⟩

/-- The shapes overlap, so that the last segment leads to the left, two right angles from the first
axis. -/
theorem router_direction_overlapping :
    letI := quarterTurns
    let left : Bounds ℚ := ⟨0, 0, 200, 50⟩
    let right : Bounds ℚ := ⟨150, 30, 350, 80⟩
    ∃ route, router .standard left right .composition 0 = .ok route ∧
      route.points = [⟨200, 25⟩, ⟨200, 55⟩, ⟨150, 55⟩] ∧
      route.marker.map Marker.rotation = some 2 := by
  let _ := quarterTurns
  intro left right
  have leftProper : left.isDegenerate = false := by decide +kernel
  have rightProper : right.isDegenerate = false := by decide +kernel
  obtain ⟨route, routed, -, marker, -, -, last, -⟩ :=
    router_direction .standard left right leftProper rightProper .composition 0
  have drawn : (router .standard left right .composition 0).map Route.points =
      .ok [⟨200, 25⟩, ⟨200, 55⟩, ⟨150, 55⟩] := by decide +kernel
  have points := Route.points_of_ok routed drawn
  obtain ⟨-, turns, arrives⟩ := Route.points_eq.mp points
  have turned : route.bend ≠ route.stop := by
    rw [turns, arrives]
    decide +kernel
  obtain ⟨vector, -⟩ := last turned
  rw [vector, turns, arrives] at marker
  refine ⟨route, routed, points, ?_⟩
  rw [marker]
  decide +kernel

end Orthogonal

end ClassDiagram
