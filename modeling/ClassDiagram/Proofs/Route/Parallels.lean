import ClassDiagram.Proofs.Route.Anchors
import Mathlib.Tactic.FieldSimp
import Mathlib.Tactic.Linarith
import Mathlib.Tactic.Ring

/-! Parallel relationships in exact numbers. With a positive stride every number has a distance from
the middle of its own, and all of them fit on the edges, so that no two parallel routes start, end
or arrive at the same place. -/

namespace ClassDiagram

def Bounds.IsCorner (b : Bounds ℚ) (p : Point ℚ) : Prop :=
  ∀ axis, p.coordinate axis = b.low axis ∨ p.coordinate axis = b.high axis

def Route.lastSegment (r : Route ℚ) : Set (Point ℚ) :=
  { p | ∃ t, 0 ≤ t ∧ t ≤ 1 ∧ p = r.bend.lerp r.stop t }

namespace Orthogonal

section Offsets

variable {stride halfExtent : ℚ}

def reach (stride halfExtent : ℚ) (slot : ℕ) : ℚ := step stride halfExtent slot * slot

/-- Slots are a stride apart as long as there is room, and then closer and closer together. -/
theorem reach_eq (slot : ℕ) : reach stride halfExtent slot =
    min (stride * slot) (halfExtent - halfExtent / (slot + 1)) := by
  have parts : (slot : ℚ) + 1 ≠ 0 := by positivity
  have whole : halfExtent / (slot + 1) * slot = halfExtent - halfExtent / (slot + 1) := by
    field_simp
    ring
  rw [reach, step, Scalar.least_eq, min_mul_of_nonneg _ _ slot.cast_nonneg, ← whole]
  rfl

theorem reach_zero (stride halfExtent : ℚ) : reach stride halfExtent 0 = 0 := by
  rw [reach, Nat.cast_zero, mul_zero]

theorem reach_strictMono (positive : 0 < stride) (room : 0 < halfExtent) :
    StrictMono (reach stride halfExtent) := by
  refine strictMono_nat_of_lt_succ fun slot => ?_
  rw [reach_eq, reach_eq]
  have later : (slot : ℚ) < (slot + 1 : ℕ) := Nat.cast_lt.mpr slot.lt_succ_self
  refine min_lt_min (mul_lt_mul_of_pos_left later positive) (sub_lt_sub_left ?_ halfExtent)
  exact div_lt_div_of_pos_left room (by positivity) (add_lt_add_left later 1)

theorem reach_lt (room : 0 < halfExtent) (slot : ℕ) : reach stride halfExtent slot < halfExtent := by
  rw [reach_eq]
  exact (min_le_right _ _).trans_lt (sub_lt_self _ (by positivity))

theorem reach_nonneg (positive : 0 < stride) (room : 0 < halfExtent) (slot : ℕ) :
    0 ≤ reach stride halfExtent slot := by
  rw [← reach_zero stride halfExtent]
  exact (reach_strictMono positive room).monotone (Nat.zero_le slot)

theorem parallelOffset_odd (k : ℕ) :
    parallelOffset stride halfExtent (2 * k + 1) = reach stride halfExtent (k + 1) := by
  have here : slot (2 * k + 1) = k + 1 := by unfold slot; omega
  have odd : (2 * k + 1) % 2 = 1 := by omega
  rw [parallelOffset, here, if_neg k.succ_ne_zero, if_pos odd]
  rfl

theorem parallelOffset_even (k : ℕ) :
    parallelOffset stride halfExtent (2 * k) = -reach stride halfExtent k := by
  have here : slot (2 * k) = k := by unfold slot; omega
  have even : ¬ 2 * k % 2 = 1 := by omega
  rw [parallelOffset, here, if_neg even]
  split
  next middle =>
    rw [middle, reach_zero, neg_zero]
    rfl
  next => exact neg_mul ..

theorem abs_parallelOffset_lt (positive : 0 < stride) (room : 0 < halfExtent) (number : ℕ) :
    |parallelOffset stride halfExtent number| < halfExtent := by
  obtain ⟨k, rfl | rfl⟩ := number.even_or_odd'
  · rw [parallelOffset_even, abs_neg, abs_of_nonneg (reach_nonneg positive room _)]
    exact reach_lt room k
  · rw [parallelOffset_odd, abs_of_nonneg (reach_nonneg positive room _)]
    exact reach_lt room (k + 1)

theorem parallelOffset_injective (positive : 0 < stride) (room : 0 < halfExtent) :
    Function.Injective (parallelOffset stride halfExtent) := by
  have increasing := reach_strictMono positive room
  -- Odd numbers lie on the positive side, even ones do not.
  have apart : ∀ j k, parallelOffset stride halfExtent (2 * j + 1) ≠
      parallelOffset stride halfExtent (2 * k) := by
    intro j k
    rw [parallelOffset_odd, parallelOffset_even]
    have beyond := (reach_nonneg positive room j).trans_lt (increasing j.lt_succ_self)
    exact ((neg_nonpos.mpr (reach_nonneg positive room k)).trans_lt beyond).ne'
  intro number other same
  obtain ⟨j, rfl | rfl⟩ := number.even_or_odd' <;>
    obtain ⟨k, rfl | rfl⟩ := other.even_or_odd'
  · rw [parallelOffset_even, parallelOffset_even, neg_inj] at same
    rw [increasing.injective same]
  · exact absurd same.symm (apart k j)
  · exact absurd same (apart j k)
  · rw [parallelOffset_odd, parallelOffset_odd] at same
    rw [Nat.succ_injective (increasing.injective same)]

end Offsets

section Edges

variable {source target b : Bounds ℚ}

theorem halfExtent_eq (axis : Axis) (source target : Bounds ℚ) :
    halfExtent axis source target =
      min (source.high axis.cross - source.low axis.cross)
        (target.high axis.cross - target.low axis.cross) / 2 := by
  cases axis <;> exact congrArg (· / 2) (Scalar.least_eq ..)

theorem halfExtent_pos (sourceProper : source.Proper) (targetProper : target.Proper)
    (axis : Axis) : 0 < halfExtent axis source target := by
  rw [halfExtent_eq]
  exact half_pos (lt_min (sub_pos.mpr (sourceProper _)) (sub_pos.mpr (targetProper _)))

theorem edgePoint_inside {axis : Axis} {offset : ℚ}
    (fits : |offset| < (b.high axis.cross - b.low axis.cross) / 2) (positive : Bool) :
    b.low axis.cross < (b.edgePoint axis positive offset).coordinate axis.cross ∧
      (b.edgePoint axis positive offset).coordinate axis.cross < b.high axis.cross := by
  rw [(b.edgePoint_coordinate ..).2, b.center_coordinate]
  obtain ⟨before, behind⟩ := abs_lt.mp fits
  constructor <;> linarith

theorem anchor_eq_edgePoint {axis : Axis} {offset : ℚ} (proper : b.Proper)
    (fits : |offset| < (b.high axis.cross - b.low axis.cross) / 2) (positive : Bool) :
    anchor b axis positive offset = b.edgePoint axis positive offset := by
  rw [anchor_eq_clamp]
  refine Point.eq_of_coordinates axis ?_ ?_
  · obtain ⟨lower, upper⟩ := Bounds.edge_mem proper axis positive
    rw [Bounds.clamp_coordinate, (b.edgePoint_coordinate ..).1, Scalar.clamp_of_mem lower upper]
  · obtain ⟨lower, upper⟩ := edgePoint_inside fits positive
    rw [Bounds.clamp_coordinate, Scalar.clamp_of_mem lower.le upper.le]

theorem edgePoint_injective (axis : Axis) (positive : Bool) :
    Function.Injective (b.edgePoint axis positive) := by
  intro offset other same
  have across := congrArg (Point.coordinate · axis.cross) same
  rwa [(b.edgePoint_coordinate ..).2, (b.edgePoint_coordinate ..).2, add_right_inj] at across

theorem not_isCorner {axis : Axis} {p : Point ℚ} (lower : b.low axis < p.coordinate axis)
    (upper : p.coordinate axis < b.high axis) : ¬ b.IsCorner p := by
  intro corner
  rcases corner axis with low | high
  · exact lower.ne' low
  · exact upper.ne high

end Edges

section Routes

variable [Angular ℚ] {settings : RouterSettings ℚ} {source target : Bounds ℚ}
  (kind : RelationshipKind) (number : ℕ)

theorem connect_unclamped (positive : 0 < settings.stride)
    (sourceProper : source.Proper)
    (targetProper : target.Proper) :
    let delta := target.center.sub source.center
    let axis := dominantAxis delta
    let offset := parallelOffset settings.stride (halfExtent axis source target) number
    let route := connect settings source target kind number
    route.start = source.edgePoint axis (isForward axis delta) offset ∧
      route.stop = target.edgePoint axis (!isForward axis delta) offset ∧
      ¬ source.IsCorner route.start ∧ ¬ target.IsCorner route.stop := by
  intro delta axis offset route
  have fits : |offset| < halfExtent axis source target :=
    abs_parallelOffset_lt positive (halfExtent_pos sourceProper targetProper axis) number
  rw [halfExtent_eq] at fits
  -- Half of the shorter side is no more than half of either side.
  have fitsSource := fits.trans_le (div_le_div_of_nonneg_right (min_le_left _ _) zero_le_two)
  have fitsTarget := fits.trans_le (div_le_div_of_nonneg_right (min_le_right _ _) zero_le_two)
  have start : route.start = source.edgePoint axis (isForward axis delta) offset :=
    anchor_eq_edgePoint sourceProper fitsSource _
  have stop : route.stop = target.edgePoint axis (!isForward axis delta) offset :=
    anchor_eq_edgePoint targetProper fitsTarget _
  rw [start, stop]
  obtain ⟨lower, upper⟩ := edgePoint_inside fitsSource (isForward axis delta)
  obtain ⟨lower', upper'⟩ := edgePoint_inside fitsTarget (!isForward axis delta)
  exact ⟨rfl, rfl, not_isCorner lower upper, not_isCorner lower' upper'⟩

theorem lastSegment_coordinate {kind : RelationshipKind} {number : ℕ} {p : Point ℚ}
    (there : p ∈ (connect settings source target kind number).lastSegment) :
    let route := connect settings source target kind number
    p.coordinate route.axis.cross = route.stop.coordinate route.axis.cross := by
  intro route
  obtain ⟨t, -, -, rfl⟩ := there
  have level : route.bend.coordinate route.axis.cross = route.stop.coordinate route.axis.cross :=
    (bend_coordinate route.start route.stop).2
  rw [Point.lerp_level level, level]

theorem connect_apart {number : ℕ} (positive : 0 < settings.stride)
    (sourceProper : source.Proper) (targetProper : target.Proper) (kind' : RelationshipKind)
    {number' : ℕ} (other : number' ≠ number) :
    let route := connect settings source target kind number
    let route' := connect settings source target kind' number'
    route'.start ≠ route.start ∧ route'.stop ≠ route.stop ∧
      ∀ p ∈ route'.lastSegment, p ∉ route.lastSegment := by
  intro route route'
  have apart := (parallelOffset_injective positive
    (halfExtent_pos sourceProper targetProper route.axis)).ne other
  obtain ⟨start, stop, -⟩ : route.start = _ ∧ route.stop = _ ∧ _ :=
    connect_unclamped kind number positive sourceProper targetProper
  obtain ⟨start', stop', -⟩ : route'.start = _ ∧ route'.stop = _ ∧ _ :=
    connect_unclamped kind' number' positive sourceProper targetProper
  refine ⟨?_, ?_, fun p there here => apart ?_⟩
  · rw [start, start']
    exact (edgePoint_injective _ _).ne apart
  · rw [stop, stop']
    exact (edgePoint_injective _ _).ne apart
  · have level : route'.stop.coordinate route.axis.cross = route.stop.coordinate route.axis.cross :=
      (lastSegment_coordinate there).symm.trans (lastSegment_coordinate here)
    rw [stop, stop'] at level
    exact add_left_cancel
      (((target.edgePoint_coordinate ..).2.symm.trans level).trans (target.edgePoint_coordinate ..).2)

end Routes

/-- With a positive stride, the numbers fan out from the middle of the shorter side, alternately to
both sides and each slot beyond the one before. All anchors are inside of the sides, so that they
need not be moved, and no two of them or of the last segments meet. -/
theorem parallel_routes_apart [Angular ℚ] (settings : RouterSettings ℚ) (source target : Bounds ℚ)
    (positive : 0 < settings.stride) (sourceProper : source.isDegenerate = false)
    (targetProper : target.isDegenerate = false) :
    let delta := target.center.sub source.center
    let axis := dominantAxis delta
    let forward := isForward axis delta
    let h := halfExtent axis source target
    let offset := parallelOffset settings.stride h
    h = min (source.high axis.cross - source.low axis.cross)
        (target.high axis.cross - target.low axis.cross) / 2 ∧
      offset 0 = 0 ∧
      (∃ d : ℕ → ℚ, d 0 = 0 ∧ StrictMono d ∧ (∀ k, d k < h) ∧
        ∀ k, offset (2 * k + 1) = d (k + 1) ∧ offset (2 * k + 2) = -d (k + 1)) ∧
      ∀ kind number, ∃ route, router settings source target kind number = .ok route ∧
        route.axis = axis ∧ route.start = source.edgePoint axis forward (offset number) ∧
        route.stop = target.edgePoint axis (!forward) (offset number) ∧
        ¬ source.IsCorner route.start ∧ ¬ target.IsCorner route.stop ∧
        ∀ kind' number' route', number' ≠ number →
          router settings source target kind' number' = .ok route' →
            route'.start ≠ route.start ∧ route'.stop ≠ route.stop ∧
              ∀ p ∈ route'.lastSegment, p ∉ route.lastSegment := by
  intro delta axis forward h offset
  rw [Bounds.isDegenerate_eq_false] at sourceProper targetProper
  have room : 0 < h := halfExtent_pos sourceProper targetProper axis
  refine ⟨halfExtent_eq axis source target, rfl, ⟨reach settings.stride h, reach_zero _ _,
    reach_strictMono positive room, reach_lt room,
    fun k => ⟨parallelOffset_odd k, parallelOffset_even (k + 1)⟩⟩, fun kind number => ?_⟩
  obtain ⟨start, stop, startInside, stopInside⟩ :=
    connect_unclamped kind number positive sourceProper targetProper
  refine ⟨_, router_of_proper _ _ _ sourceProper targetProper, rfl, start, stop, startInside,
    stopInside, fun kind' number' route' other routed => ?_⟩
  rw [router_of_proper _ _ _ sourceProper targetProper, Except.ok.injEq] at routed
  subst routed
  exact connect_apart kind positive sourceProper targetProper kind' other

theorem parallel_routes_apart_short :
    letI := quarterTurns
    let long : Bounds ℚ := ⟨0, 0, 100, 200⟩
    let short : Bounds ℚ := ⟨400, 0, 500, 50⟩
    ∃ one two, router .standard long short .association 1 = .ok one ∧
      router .standard long short .composition 2 = .ok two ∧
      one.points = [⟨100, 225 / 2⟩, ⟨100, 75 / 2⟩, ⟨400, 75 / 2⟩] ∧
      two.points = [⟨100, 175 / 2⟩, ⟨100, 25 / 2⟩, ⟨400, 25 / 2⟩] ∧
      ∀ p ∈ two.lastSegment, p ∉ one.lastSegment := by
  let _ := quarterTurns
  intro long short
  have positive : 0 < (RouterSettings.standard : RouterSettings ℚ).stride := by decide +kernel
  have longProper : long.isDegenerate = false := by decide +kernel
  have shortProper : short.isDegenerate = false := by decide +kernel
  obtain ⟨-, -, -, each⟩ :=
    parallel_routes_apart .standard long short positive longProper shortProper
  obtain ⟨one, routed, -, -, -, -, -, apart⟩ := each .association 1
  obtain ⟨two, routed', -⟩ := each .composition 2
  obtain ⟨-, -, disjoint⟩ := apart .composition 2 two (by decide) routed'
  have drawn : (router .standard long short .association 1).map Route.points =
      .ok [⟨100, 225 / 2⟩, ⟨100, 75 / 2⟩, ⟨400, 75 / 2⟩] := by decide +kernel
  have drawn' : (router .standard long short .composition 2).map Route.points =
      .ok [⟨100, 175 / 2⟩, ⟨100, 25 / 2⟩, ⟨400, 25 / 2⟩] := by decide +kernel
  rw [routed] at drawn
  rw [routed'] at drawn'
  exact ⟨one, two, routed, routed', Except.ok.inj drawn, Except.ok.inj drawn', disjoint⟩

end Orthogonal

end ClassDiagram
