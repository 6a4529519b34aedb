import ClassDiagram.Geometry
import ClassDiagram.Identifier
import ClassDiagram.Kind

/-! Connectors: a path with one bend, the marker at its end, and the places of its texts. -/

namespace ClassDiagram

inductive Endpoint where
  | source
  | target
  deriving DecidableEq, Repr

def Endpoint.text : Endpoint → String
  | .source => "source"
  | .target => "target"

inductive RouteError where
  | degenerateShape (endpoint : Endpoint)
  | missingGeometry (entity : EntityId)
  deriving DecidableEq, Repr

def RouteError.message : RouteError → String
  | .degenerateShape endpoint => endpoint.text ++ " shape is degenerate"
  | .missingGeometry entity => "no geometry for " ++ entity.text

inductive Axis where
  | horizontal
  | vertical
  deriving DecidableEq, Repr

inductive MarkerStyle where
  | openTriangle
  | openDiamond
  | filledDiamond
  deriving DecidableEq, Repr

namespace MarkerStyle

def ofKind? : RelationshipKind → Option MarkerStyle
  | .association => none
  | .aggregation => some .openDiamond
  | .composition => some .filledDiamond
  | .inheritance => some .openTriangle

def isFilled (style : MarkerStyle) : Bool := style == .filledDiamond

end MarkerStyle

/-- A marker whose tip is the end of the path; the outline starts at the tip. -/
structure Marker (α : Type) where
  style : MarkerStyle
  tip : Point α
  rotation : α
  outline : List (Point α)
  deriving DecidableEq, Repr

structure Placement (α : Type) where
  position : Point α
  degrees : α
  deriving DecidableEq, Repr

structure Route (α : Type) where
  axis : Axis
  start : Point α
  bend : Point α
  stop : Point α
  marker : Option (Marker α)
  sourceMultiplicity : Placement α
  label : Placement α
  targetMultiplicity : Placement α
  deriving DecidableEq, Repr

def Route.points {α : Type} (r : Route α) : List (Point α) := [r.start, r.bend, r.stop]

/-- A way to connect a source and a target rectangle. The number tells apart the relationships
that connect the same two entities in the same direction. -/
abbrev Router (α : Type) :=
  Bounds α → Bounds α → RelationshipKind → Nat → Except RouteError (Route α)

end ClassDiagram
