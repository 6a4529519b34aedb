import ClassDiagram.Route.Reroute
import ClassDiagram.Svg.Element

/-! The preview of a model as a tree of SVG elements. Every shape is drawn in its rectangle,
packages first so that what is nested in them stays visible, and then the routed connectors. -/

namespace ClassDiagram.Preview

open Scalar Svg

variable {α : Type} [Scalar α]

def margin : α := ofNat 20

def lineHeight : α := ofNat 16

def textInset : α := ofNat 6

def fontSize : α := ofNat 12

def outlined (m : Model) (shapes : Shapes α) : Except RouteError (List (Entity × Bounds α)) :=
  m.entities.items.mapM fun entity => do
    let bounds ← shapes.require entity.id
    return (entity, bounds)

/-- Packages before classes and interfaces, otherwise in the given order. -/
def drawingOrder (outlines : List (Entity × Bounds α)) : List (Entity × Bounds α) :=
  outlines.filter (·.1.kind = .package) ++ outlines.filter (·.1.kind ≠ .package)

def extent : List (Entity × Bounds α) → Bounds α
  | [] => .origin
  | first :: rest => rest.foldl (fun acc shape => acc.merge shape.2) first.2

def viewBox (outlines : List (Entity × Bounds α)) : Bounds α :=
  (extent outlines).pad (.uniform margin)

def textAttributes (position : Point α) : List (Attribute α) :=
  [⟨"x", .number position.x⟩, ⟨"y", .number position.y⟩,
    ⟨"font-family", .word "sans-serif"⟩, ⟨"font-size", .number fontSize⟩]

def centered : Attribute α := ⟨"text-anchor", .word "middle"⟩

def rectangle (entity : Entity) (b : Bounds α) : Element α :=
  let fill := if entity.kind = .package then "#f4f4f4" else "white"
  .node "rect"
    [⟨"x", .number b.minX⟩, ⟨"y", .number b.minY⟩, ⟨"width", .number b.width⟩,
      ⟨"height", .number b.height⟩, ⟨"fill", .word fill⟩, ⟨"stroke", .word "black"⟩]
    []

def stereotype (entity : Entity) (b : Bounds α) : List (Element α) :=
  if entity.kind = .interface then
    [.text (textAttributes ⟨b.center.x, b.minY + lineHeight⟩ ++ [centered]) "«interface»"]
  else []

def titleBaseline (entity : Entity) (b : Bounds α) : α :=
  let first := b.minY + lineHeight
  if entity.kind = .interface then first + lineHeight else first

def title (entity : Entity) (b : Bounds α) : Element α :=
  .text
    (textAttributes ⟨b.center.x, titleBaseline entity b⟩ ++
      [centered, ⟨"font-weight", .word "bold"⟩])
    entity.title

def separator (b : Bounds α) (y : α) : Element α :=
  .node "line"
    [⟨"x1", .number b.minX⟩, ⟨"y1", .number y⟩, ⟨"x2", .number b.maxX⟩, ⟨"y2", .number y⟩,
      ⟨"stroke", .word "black"⟩]
    []

def memberRows (entity : Entity) (b : Bounds α) : List (Element α) :=
  if entity.members.isEmpty then []
  else
    let y := titleBaseline entity b + half lineHeight
    separator b y :: entity.members.mapIdx fun index entry =>
      .text (textAttributes ⟨b.minX + textInset, y + lineHeight * ofNat (index + 1)⟩)
        entry.2.text

def shapeGroup (entity : Entity) (b : Bounds α) : Element α :=
  .node "g" []
    (rectangle entity b :: stereotype entity b ++ title entity b :: memberRows entity b)

def path (route : Route α) : Element α :=
  .node "polyline"
    [⟨"points", .points route.points⟩, ⟨"fill", .word "none"⟩, ⟨"stroke", .word "black"⟩] []

def markerShape (marker : Marker α) : Element α :=
  let fill := if marker.style.isFilled then "black" else "white"
  .node "polygon"
    [⟨"points", .points marker.outline⟩, ⟨"fill", .word fill⟩, ⟨"stroke", .word "black"⟩] []

def caption (axis : Axis) (placement : Placement α) (content : String) : List (Element α) :=
  if content.isEmpty then []
  else
    let anchor := if axis = .horizontal then "middle" else "start"
    let turned : List (Attribute α) :=
      if placement.degrees == zero then []
      else [⟨"transform", .rotation placement.degrees placement.position⟩]
    [.text (textAttributes placement.position ++ ⟨"text-anchor", .word anchor⟩ :: turned) content]

def connectorGroup (r : Relationship) (route : Route α) : Element α :=
  .node "g" []
    (path route :: (route.marker.map markerShape).toList ++
      caption route.axis route.sourceMultiplicity r.sourceMultiplicity ++
      caption route.axis route.label r.label ++
      caption route.axis route.targetMultiplicity r.targetMultiplicity)

def connectorGroups (m : Model) (routes : Routes α) : List (Element α) :=
  routes.filterMap fun entry =>
    (m.relationships.find? entry.1).map fun r => connectorGroup r entry.2

def document (m : Model) (outlines : List (Entity × Bounds α)) (routes : Routes α) : Element α :=
  let box := viewBox outlines
  .node "svg"
    [⟨"xmlns", .word "http://www.w3.org/2000/svg"⟩,
      ⟨"viewBox", .numbers [box.minX, box.minY, box.width, box.height]⟩,
      ⟨"width", .number box.width⟩, ⟨"height", .number box.height⟩]
    [.node "g" [⟨"class", .word "shapes"⟩] (outlines.map fun shape => shapeGroup shape.1 shape.2),
      .node "g" [⟨"class", .word "relationships"⟩] (connectorGroups m routes)]

def render (m : Model) (shapes : Shapes α) (routes : Routes α) : Except RouteError (Element α) := do
  let outlines ← outlined m shapes
  return document m (drawingOrder outlines) routes

end ClassDiagram.Preview
