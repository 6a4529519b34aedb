import ClassDiagram.Proofs.Route.Exact
import ClassDiagram.Route.Orthogonal

/-! Where a route starts, bends and ends, in exact numbers. Its ends are on the sides of the
rectangles that face each other, whatever the settings and the number are. -/

namespace ClassDiagram

inductive Side where
  | left
  | right
  | top
  | bottom
  deriving DecidableEq, Repr

namespace Side

def opposite : Side → Side
  | .left => .right
  | .right => .left
  | .top => .bottom
  | .bottom => .top

def atEnd (axis : Axis) (positive : Bool) : Side :=
  match axis with
  | .horizontal => if positive then .right else .left
  | .vertical => if positive then .bottom else .top

theorem opposite_atEnd (axis : Axis) (positive : Bool) :
    (atEnd axis positive).opposite = atEnd axis !positive := by
  cases axis <;> cases positive <;> rfl

/-- The side of a rectangle that faces what is displaced from it. No displacement counts as one to
the right or downwards. -/
def facing (dx dy : ℚ) : Side :=
  if |dy| < |dx| then
    if 0 ≤ dx then .right else .left
  else if 0 ≤ dy then .bottom else .top

end Side

namespace Bounds

variable {b : Bounds ℚ} {p : Point ℚ}

def OnSide (b : Bounds ℚ) (p : Point ℚ) : Side → Prop
  | .left => p.x = b.minX ∧ b.minY ≤ p.y ∧ p.y ≤ b.maxY
  | .right => p.x = b.maxX ∧ b.minY ≤ p.y ∧ p.y ≤ b.maxY
  | .top => p.y = b.minY ∧ b.minX ≤ p.x ∧ p.x ≤ b.maxX
  | .bottom => p.y = b.maxY ∧ b.minX ≤ p.x ∧ p.x ≤ b.maxX

def edge (b : Bounds ℚ) (axis : Axis) (positive : Bool) : ℚ :=
  if positive then b.high axis else b.low axis

/-- The point at `offset` from the middle of a side, which may be outside of it. -/
def edgePoint (b : Bounds ℚ) (axis : Axis) (positive : Bool) (offset : ℚ) : Point ℚ :=
  match axis with
  | .horizontal => ⟨b.edge .horizontal positive, b.center.y + offset⟩
  | .vertical => ⟨b.center.x + offset, b.edge .vertical positive⟩

theorem edgePoint_coordinate (b : Bounds ℚ) (axis : Axis) (positive : Bool) (offset : ℚ) :
    (b.edgePoint axis positive offset).coordinate axis = b.edge axis positive ∧
      (b.edgePoint axis positive offset).coordinate axis.cross =
        b.center.coordinate axis.cross + offset := by
  cases axis <;> exact ⟨rfl, rfl⟩

theorem edge_mem (proper : b.Proper) (axis : Axis) (positive : Bool) :
    b.low axis ≤ b.edge axis positive ∧ b.edge axis positive ≤ b.high axis := by
  cases positive with
  | true => exact ⟨proper.ordered axis, le_rfl⟩
  | false => exact ⟨le_rfl, proper.ordered axis⟩

theorem onSide_atEnd (axis : Axis) (positive : Bool) :
    b.OnSide p (.atEnd axis positive) ↔
      p.coordinate axis = b.edge axis positive ∧ b.low axis.cross ≤ p.coordinate axis.cross ∧
        p.coordinate axis.cross ≤ b.high axis.cross := by
  cases axis <;> cases positive <;> rfl

theorem onBoundary_of_onSide {side : Side} (proper : b.Proper) (there : b.OnSide p side) :
    b.onBoundary p = true := by
  have wide : b.minX ≤ b.maxX := proper.ordered .horizontal
  have tall : b.minY ≤ b.maxY := proper.ordered .vertical
  cases side with
  | left | right | top | bottom =>
      obtain ⟨edge, lower, upper⟩ := there
      simp [onBoundary, contains, edge, lower, upper, wide, tall]

theorem clamp?_eq_some (proper : b.Proper) (p : Point ℚ) : b.clamp? p = some (b.clamp p) := by
  have wide : b.minX ≤ b.maxX := proper.ordered .horizontal
  have tall : b.minY ≤ b.maxY := proper.ordered .vertical
  simp [clamp?, isOrdered, wide, tall]

end Bounds

namespace Orthogonal

section Coordinates

variable {b : Bounds ℚ} {axis : Axis}

theorem dominantAxis_eq_horizontal {delta : Point ℚ} :
    dominantAxis delta = .horizontal ↔ |delta.y| < |delta.x| := by
  rw [dominantAxis, Scalar.magnitude_eq, Scalar.magnitude_eq]
  split
  next less => exact iff_of_true rfl less
  next other => exact iff_of_false nofun other

theorem isForward_eq (axis : Axis) (delta : Point ℚ) :
    isForward axis delta = decide (0 ≤ delta.coordinate axis) := by
  cases axis <;> rfl

theorem isForward_sub (axis : Axis) (p q : Point ℚ) :
    isForward axis (q.sub p) = decide (p.coordinate axis ≤ q.coordinate axis) := by
  rw [isForward_eq, Point.sub_coordinate, decide_eq_decide, sub_nonneg]

theorem atEnd_isForward (delta : Point ℚ) :
    Side.atEnd (dominantAxis delta) (isForward (dominantAxis delta) delta) =
      .facing delta.x delta.y := by
  rw [Side.facing, isForward_eq, dominantAxis, Scalar.magnitude_eq, Scalar.magnitude_eq]
  split <;> simp only [Side.atEnd, decide_eq_true_eq] <;> rfl

theorem anchor_eq_clamp (b : Bounds ℚ) (axis : Axis) (positive : Bool) (offset : ℚ) :
    anchor b axis positive offset = b.clamp (b.edgePoint axis positive offset) := by
  cases axis <;> rfl

theorem anchor_onSide (proper : b.Proper) (positive : Bool) (offset : ℚ) :
    b.OnSide (anchor b axis positive offset) (.atEnd axis positive) := by
  obtain ⟨lower, upper⟩ := Bounds.edge_mem proper axis positive
  rw [Bounds.onSide_atEnd, anchor_eq_clamp, Bounds.clamp_coordinate, Bounds.clamp_coordinate,
    (b.edgePoint_coordinate ..).1]
  exact ⟨Scalar.clamp_of_mem lower upper, Scalar.clamp_mem (proper.ordered axis.cross) _⟩

theorem bend_coordinate (start stop : Point ℚ) :
    (bend axis start stop).coordinate axis = start.coordinate axis ∧
      (bend axis start stop).coordinate axis.cross = stop.coordinate axis.cross := by
  cases axis <;> exact ⟨rfl, rfl⟩

end Coordinates

section Routes

variable [Angular ℚ] (settings : RouterSettings ℚ) {source target : Bounds ℚ}
  (kind : RelationshipKind) (number : ℕ)

theorem router_of_proper (sourceProper : source.Proper) (targetProper : target.Proper) :
    router settings source target kind number =
      .ok (connect settings source target kind number) := by
  rw [← Bounds.isDegenerate_eq_false] at sourceProper targetProper
  simp [router, sourceProper, targetProper]

theorem connect_ends (sourceProper : source.Proper) (targetProper : target.Proper) :
    let delta := target.center.sub source.center
    let route := connect settings source target kind number
    source.OnSide route.start (.facing delta.x delta.y) ∧
      target.OnSide route.stop (Side.facing delta.x delta.y).opposite := by
  intro delta route
  rw [← atEnd_isForward delta, Side.opposite_atEnd]
  exact ⟨anchor_onSide sourceProper _ _, anchor_onSide targetProper _ _⟩

end Routes

/-- A degenerate rectangle is refused, the source before the target. All other rectangles are
ordered, so that a point can be kept on them, and are connected between the sides that face each
other. The first segment crosses the dominant axis and the last one runs along it. -/
theorem router_on_facing_sides [Angular ℚ] (settings : RouterSettings ℚ)
    (source target : Bounds ℚ) (kind : RelationshipKind) (number : ℕ) :
    let result := router settings source target kind number
    let dx := target.center.x - source.center.x
    let dy := target.center.y - source.center.y
    (result = .error (.degenerateShape .source) ↔ source.isDegenerate = true) ∧
      (result = .error (.degenerateShape .target) ↔
        source.isDegenerate = false ∧ target.isDegenerate = true) ∧
      (source.isDegenerate = false → target.isDegenerate = false → ∃ route, result = .ok route ∧
        (∀ p, source.clamp? p = some (source.clamp p)) ∧
        (∀ p, target.clamp? p = some (target.clamp p)) ∧
        (route.axis = .horizontal ↔ |dy| < |dx|) ∧
        source.onBoundary route.start = true ∧ source.OnSide route.start (.facing dx dy) ∧
        target.onBoundary route.stop = true ∧
        target.OnSide route.stop (Side.facing dx dy).opposite ∧
        route.bend.coordinate route.axis = route.start.coordinate route.axis ∧
        route.bend.coordinate route.axis.cross = route.stop.coordinate route.axis.cross) := by
  intro result dx dy
  refine ⟨?_, ?_, fun sourceProper targetProper => ?_⟩
  · cases sourceCase : source.isDegenerate <;> cases targetCase : target.isDegenerate <;>
      simp [result, router, sourceCase, targetCase]
  · cases sourceCase : source.isDegenerate <;> cases targetCase : target.isDegenerate <;>
      simp [result, router, sourceCase, targetCase]
  · rw [Bounds.isDegenerate_eq_false] at sourceProper targetProper
    obtain ⟨start, stop⟩ := connect_ends settings kind number sourceProper targetProper
    exact ⟨_, router_of_proper settings kind number sourceProper targetProper,
      Bounds.clamp?_eq_some sourceProper, Bounds.clamp?_eq_some targetProper,
      dominantAxis_eq_horizontal, Bounds.onBoundary_of_onSide sourceProper start, start,
      Bounds.onBoundary_of_onSide targetProper stop, stop, bend_coordinate _ _⟩

theorem router_on_facing_sides_nested :
    letI := quarterTurns
    let outer : Bounds ℚ := ⟨0, 0, 100, 200⟩
    let inner : Bounds ℚ := ⟨20, 50, 60, 90⟩
    ∃ route, router ⟨-3, 6, 12, 10⟩ outer inner .composition 7 = .ok route ∧
      route.points = [⟨38, 0⟩, ⟨28, 0⟩, ⟨28, 90⟩] ∧
      outer.OnSide route.start .top ∧ inner.OnSide route.stop .bottom := by
  let _ := quarterTurns
  intro outer inner
  have outerProper : outer.isDegenerate = false := by decide +kernel
  have innerProper : inner.isDegenerate = false := by decide +kernel
  obtain ⟨-, -, connected⟩ := router_on_facing_sides ⟨-3, 6, 12, 10⟩ outer inner .composition 7
  obtain ⟨route, routed, -, -, -, -, start, -, stop, -⟩ := connected outerProper innerProper
  have up : Side.facing (inner.center.x - outer.center.x) (inner.center.y - outer.center.y) =
      .top := by decide +kernel
  rw [up] at start stop
  have drawn : (router ⟨-3, 6, 12, 10⟩ outer inner .composition 7).map Route.points =
      .ok [⟨38, 0⟩, ⟨28, 0⟩, ⟨28, 90⟩] := by decide +kernel
  rw [routed] at drawn
  exact ⟨route, routed, Except.ok.inj drawn, start, stop⟩

end Orthogonal

end ClassDiagram
