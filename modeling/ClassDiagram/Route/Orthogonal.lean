import ClassDiagram.Route.Basic

/-!
Orthogonal routes with a single bend.

The displacement of the centers picks the dominant axis. The path leaves the edge of the source
that faces the target and enters the edge of the target that faces the source. The bend takes
its coordinate on the dominant axis from the start and the other one from the end, so the last
segment runs along the dominant axis.

Parallel relationships fan out from the middle of the edge: number 0 sits on the middle, 1 and 2
one step to either side, 3 and 4 two steps, and so on. The step of slot `k` is the stride, capped
at a `k + 1`-th part of half the shorter facing edge, so that every slot fits on the edge.
-/

namespace ClassDiagram

open Scalar

variable {α : Type}

structure RouterSettings (α : Type) where
  stride : α
  labelOffset : α
  markerLength : α
  markerWidth : α
  deriving DecidableEq, Repr

namespace RouterSettings

def standard [Scalar α] : RouterSettings α := ⟨ofNat 40, ofNat 6, ofNat 12, ofNat 10⟩

end RouterSettings

namespace Orthogonal

variable [Scalar α]

def dominantAxis (delta : Point α) : Axis :=
  if magnitude delta.y < magnitude delta.x then .horizontal else .vertical

/-- Whether the connection runs to the right, or downwards. No displacement counts as such. -/
def isForward (axis : Axis) (delta : Point α) : Bool :=
  match axis with
  | .horizontal => decide (zero ≤ delta.x)
  | .vertical => decide (zero ≤ delta.y)

def halfExtent (axis : Axis) (source target : Bounds α) : α :=
  match axis with
  | .horizontal => half (least source.height target.height)
  | .vertical => half (least source.width target.width)

def slot (number : Nat) : Nat := (number + 1) / 2

def step (stride halfExtent : α) (slot : Nat) : α :=
  least stride (halfExtent / (ofNat slot + one))

/-- The signed distance from the middle of the edge. Odd numbers lie on the positive side. -/
def parallelOffset (stride halfExtent : α) (number : Nat) : α :=
  let k := slot number
  if k = 0 then zero
  else if number % 2 = 1 then step stride halfExtent k * ofNat k
  else -step stride halfExtent k * ofNat k

def anchor (b : Bounds α) (axis : Axis) (positiveEdge : Bool) (offset : α) : Point α :=
  match axis with
  | .horizontal => b.clamp ⟨if positiveEdge then b.maxX else b.minX, b.center.y + offset⟩
  | .vertical => b.clamp ⟨b.center.x + offset, if positiveEdge then b.maxY else b.minY⟩

def bend (axis : Axis) (start stop : Point α) : Point α :=
  match axis with
  | .horizontal => ⟨start.x, stop.y⟩
  | .vertical => ⟨stop.x, start.y⟩

def unit (axis : Axis) (forward : Bool) : Point α :=
  let along := if forward then one else -one
  match axis with
  | .horizontal => ⟨along, zero⟩
  | .vertical => ⟨zero, along⟩

/-- The direction in which the path arrives: that of the last segment that has a length. -/
def direction (axis : Axis) (forward : Bool) (start bend stop : Point α) : Point α :=
  if !(stop.sub bend).isZero then stop.sub bend
  else if !(stop.sub start).isZero then stop.sub start
  else unit axis forward

def outline (settings : RouterSettings α) : MarkerStyle → List (Point α)
  | .openTriangle =>
    [⟨zero, zero⟩, ⟨-settings.markerLength, -half settings.markerWidth⟩,
      ⟨-settings.markerLength, half settings.markerWidth⟩]
  | .openDiamond | .filledDiamond =>
    [⟨zero, zero⟩, ⟨half (-settings.markerLength), -half settings.markerWidth⟩,
      ⟨-settings.markerLength, zero⟩, ⟨half (-settings.markerLength), half settings.markerWidth⟩]

def marker? [Angular α] (settings : RouterSettings α) (kind : RelationshipKind) (tip : Point α)
    (rotation : α) : Option (Marker α) :=
  (MarkerStyle.ofKind? kind).map fun style =>
    { style, tip, rotation
      outline := (outline settings style).map fun p => (p.rotate rotation).add tip }

def placement (settings : RouterSettings α) (axis : Axis) (bend stop : Point α) (quarters : Nat) :
    Placement α :=
  let position := bend.lerp stop (ofNat quarters / ofNat 4)
  match axis with
  | .horizontal => ⟨position.add ⟨zero, -settings.labelOffset⟩, zero⟩
  | .vertical => ⟨position.add ⟨settings.labelOffset, zero⟩, ofNat 90⟩

def connect [Angular α] (settings : RouterSettings α) (source target : Bounds α)
    (kind : RelationshipKind) (number : Nat) : Route α :=
  let delta := target.center.sub source.center
  let axis := dominantAxis delta
  let forward := isForward axis delta
  let offset := parallelOffset settings.stride (halfExtent axis source target) number
  let start := anchor source axis forward offset
  let stop := anchor target axis (!forward) offset
  let bend := bend axis start stop
  let direction := direction axis forward start bend stop
  { axis, start, bend, stop
    marker := marker? settings kind stop (Angular.arctangent direction.y direction.x)
    sourceMultiplicity := placement settings axis bend stop 1
    label := placement settings axis bend stop 2
    targetMultiplicity := placement settings axis bend stop 3 }

/-- The orthogonal router. It refuses degenerate rectangles; the others are ordered, so that an
anchor can be kept on them. -/
def router [Angular α] (settings : RouterSettings α) : Router α := fun source target kind number =>
  if source.isDegenerate then .error (.degenerateShape .source)
  else if target.isDegenerate then .error (.degenerateShape .target)
  else .ok (connect settings source target kind number)

end Orthogonal

end ClassDiagram
