import ClassDiagram.Proofs.Route.Routing

/-! What is in a preview: a group for every shape, packages first, and a group for every connector
whose relationship exists. The descriptions below read the finished tree of elements. -/

namespace ClassDiagram

variable {α : Type}

namespace Svg.Element

def tag : Element α → String
  | .node tag _ _ => tag
  | .text _ _ => "text"

def children : Element α → List (Element α)
  | .node _ _ children => children
  | .text _ _ => []

def content? : Element α → Option String
  | .node _ _ _ => none
  | .text _ content => some content

def attribute? (name : String) : Element α → Option (Value α)
  | .node _ attributes _ | .text attributes _ => (attributes.find? (·.name = name)).map (·.value)

def parts (group : Element α) : List String := group.children.map tag

def texts (group : Element α) : List String := group.children.filterMap content?

/-- The text stands at a place of a route, and is turned as the place says. -/
structure StandsAt [Scalar α] (placement : Placement α) (content : String)
    (element : Element α) : Prop where
  content : element.content? = some content
  x : element.attribute? "x" = some (.number placement.position.x)
  y : element.attribute? "y" = some (.number placement.position.y)
  turned : element.attribute? "transform" =
    if placement.degrees == Scalar.zero then none
    else some (.rotation placement.degrees placement.position)

/-- One rectangle, the words of an interface, the title, and the members below a line. -/
structure DrawsEntity [Scalar α] (entity : Entity) (b : Bounds α) (group : Element α) :
    Prop where
  tag : group.tag = "g"
  parts : group.parts = "rect" :: (if entity.kind = .interface then ["text"] else []) ++
    "text" :: if entity.members = [] then [] else "line" :: entity.members.map fun _ => "text"
  texts : group.texts = (if entity.kind = .interface then ["«interface»"] else []) ++
    entity.title :: entity.members.map (·.2.text)
  placed : ∃ outline rest, group.children = outline :: rest ∧
    ["x", "y", "width", "height"].map outline.attribute? =
      [b.minX, b.minY, b.width, b.height].map (some ∘ .number)

/-- One path, the outline of the marker if there is one, and the texts that are not empty. -/
structure DrawsConnector [Scalar α] (r : Relationship) (route : Route α) (group : Element α) :
    Prop where
  tag : group.tag = "g"
  parts : ∃ path markers texts, group.children = path :: markers ++ texts ∧
    path.tag = "polyline" ∧
    path.attribute? "points" = some (.points [route.start, route.bend, route.stop]) ∧
    List.Forall₂ (fun marker element => element.tag = "polygon" ∧
      element.attribute? "points" = some (.points marker.outline)) route.marker.toList markers ∧
    List.Forall₂ (fun caption element => element.StandsAt caption.2 caption.1)
      ([(r.sourceMultiplicity, route.sourceMultiplicity), (r.label, route.label),
        (r.targetMultiplicity, route.targetMultiplicity)].filter (·.1 ≠ ""))
      texts

end Svg.Element

def Entity.DrawnBefore (a b : Entity) : Prop :=
  if a.kind = .package ↔ b.kind = .package then a.id.number < b.id.number else a.kind = .package

namespace Preview

open Svg

section Order

theorem drawingOrder_perm (outlines : List (Entity × Bounds α)) :
    (drawingOrder outlines).Perm outlines := by
  have apart := List.filter_append_perm (·.1.kind = .package) outlines
  simpa [drawingOrder] using apart

theorem mem_drawingOrder {outlines : List (Entity × Bounds α)} {outline : Entity × Bounds α} :
    outline ∈ drawingOrder outlines ↔ outline ∈ outlines :=
  (drawingOrder_perm outlines).mem_iff

theorem pairwise_drawingOrder {outlines : List (Entity × Bounds α)}
    (increasing : outlines.Pairwise fun a b => a.1.id.number < b.1.id.number) :
    (drawingOrder outlines).Pairwise fun a b => a.1.DrawnBefore b.1 := by
  rw [drawingOrder, List.pairwise_append]
  have within : ∀ p : Entity × Bounds α → Bool,
      (∀ a b, p a = true → p b = true → (a.1.kind = .package ↔ b.1.kind = .package)) →
      (outlines.filter p).Pairwise fun a b => a.1.DrawnBefore b.1 := by
    intro p alike
    refine (increasing.filter p).imp_of_mem fun {a b} left right less => ?_
    rw [Entity.DrawnBefore, if_pos]
    · exact less
    · exact alike a b (List.mem_filter.mp left).2 (List.mem_filter.mp right).2
  refine ⟨within _ ?_, within _ ?_, fun a left b right => ?_⟩
  · intro a b here there
    exact iff_of_true (of_decide_eq_true here) (of_decide_eq_true there)
  · intro a b here there
    exact iff_of_false (of_decide_eq_true here) (of_decide_eq_true there)
  · have first : a.1.kind = .package := of_decide_eq_true (List.mem_filter.mp left).2
    have other : b.1.kind ≠ .package := of_decide_eq_true (List.mem_filter.mp right).2
    rw [Entity.DrawnBefore, if_neg]
    · exact first
    · exact fun same => other (same.mp first)

end Order

variable [Scalar α]

section Shapes

variable (entity : Entity) (b : Bounds α)

theorem stereotype_parts : (stereotype entity b).map Element.tag =
    if entity.kind = .interface then ["text"] else [] := by
  rw [stereotype]
  split <;> rfl

theorem stereotype_texts : (stereotype entity b).filterMap Element.content? =
    if entity.kind = .interface then ["«interface»"] else [] := by
  rw [stereotype]
  split <;> rfl

theorem memberRows_nil (empty : entity.members = []) : memberRows entity b = [] := by
  rw [memberRows, empty]
  rfl

theorem memberRows_eq (occupied : entity.members ≠ []) : ∃ rows : List (Element α),
    memberRows entity b = separator b (titleBaseline entity b + Scalar.half lineHeight) :: rows ∧
    List.Forall₂ (fun entry row => row.tag = "text" ∧ row.content? = some entry.2.text)
      entity.members rows := by
  let y := titleBaseline entity b + Scalar.half lineHeight
  let row (index : Nat) (entry : MemberId × Member) : Element α :=
    .text (textAttributes ⟨b.minX + textInset, y + lineHeight * Scalar.ofNat (index + 1)⟩)
      entry.2.text
  refine ⟨entity.members.mapIdx row, ?_, (forall₂_mapIdx row entity.members).imp ?_⟩
  · rw [memberRows, if_neg]
    simpa using occupied
  · rintro entry _ ⟨index, rfl⟩
    exact ⟨rfl, rfl⟩

theorem memberRows_parts : (memberRows entity b).map Element.tag =
    if entity.members = [] then [] else "line" :: entity.members.map fun _ => "text" := by
  split
  next empty => rw [memberRows_nil entity b empty, List.map_nil]
  next occupied =>
    obtain ⟨rows, exact, each⟩ := memberRows_eq entity b occupied
    rw [exact, List.map_cons, map_eq_map each fun entry row here => here.1.symm]
    rfl

theorem memberRows_texts :
    (memberRows entity b).filterMap Element.content? = entity.members.map (·.2.text) := by
  by_cases empty : entity.members = []
  · rw [memberRows_nil entity b empty, empty, List.filterMap_nil, List.map_nil]
  · obtain ⟨rows, exact, each⟩ := memberRows_eq entity b empty
    have contents := filterMap_eq_filterMap each fun entry row here => here.2.symm
    rw [exact, List.filterMap_cons_none rfl, ← contents, List.filterMap_eq_map']

theorem shapeGroup_draws : (shapeGroup entity b).DrawsEntity entity b where
  tag := rfl
  parts := by
    rw [Element.parts, shapeGroup, Element.children, List.map_append, List.map_cons, List.map_cons,
      stereotype_parts, memberRows_parts]
    rfl
  texts := by
    have titled : (title entity b).content? = some entity.title := rfl
    rw [Element.texts, shapeGroup, Element.children, List.filterMap_append,
      List.filterMap_cons_none rfl, List.filterMap_cons_some titled, stereotype_texts,
      memberRows_texts]
  placed := ⟨_, _, rfl, rfl⟩

theorem shapeGroups_draw {shapes : Shapes α} {outlines : List (Entity × Bounds α)}
    (placed : ∀ outline ∈ outlines, shapes outline.1.id = some outline.2) :
    List.Forall₂ (fun entity group => ∃ b, shapes entity.id = some b ∧
        group.DrawsEntity entity b)
      (outlines.map (·.1)) (outlines.map fun outline => shapeGroup outline.1 outline.2) := by
  rw [List.forall₂_map_left_iff, List.forall₂_map_right_iff, List.forall₂_same]
  exact fun outline member => ⟨outline.2, placed outline member, shapeGroup_draws _ _⟩

end Shapes

section Connectors

theorem caption_eq (axis : Axis) (placement : Placement α) (content : String) :
    List.Forall₂ (fun (caption : String × Placement α) element =>
        element.StandsAt caption.2 caption.1)
      ([(content, placement)].filter (·.1 ≠ "")) (caption axis placement content) := by
  rw [caption]
  split
  next empty =>
    rw [List.filter_cons_of_neg (by simpa using String.isEmpty_iff.mp empty)]
    exact .nil
  next filled =>
    rw [List.filter_cons_of_pos (by simpa [String.isEmpty_iff] using filled)]
    refine .cons ⟨rfl, rfl, rfl, ?_⟩ .nil
    -- The words of the anchor are looked past for either direction of the path.
    cases axis <;> cases placement.degrees == Scalar.zero <;> rfl

theorem connectorGroup_draws (r : Relationship) (route : Route α) :
    (connectorGroup r route).DrawsConnector r route where
  tag := rfl
  parts := by
    have markers : List.Forall₂ (fun marker element => element.tag = "polygon" ∧
        element.attribute? "points" = some (.points marker.outline))
        route.marker.toList (route.marker.map markerShape).toList := by
      cases route.marker with
      | none => exact .nil
      | some marker => exact .cons ⟨rfl, rfl⟩ .nil
    have captions := List.rel_append
      (caption_eq route.axis route.sourceMultiplicity r.sourceMultiplicity)
      (List.rel_append (caption_eq route.axis route.label r.label)
        (caption_eq route.axis route.targetMultiplicity r.targetMultiplicity))
    beta_reduce at captions
    rw [← List.filter_append, ← List.filter_append] at captions
    refine ⟨path route, _, _, ?_, rfl, rfl, markers, captions⟩
    rw [connectorGroup, Element.children, List.append_assoc, List.append_assoc]

theorem connectorGroups_draw {m : Model} (filed : m.relationships.Filed) (routes : Routes α) :
    List.Forall₂ (fun entry group => ∃ r ∈ m.relationships.items, r.id = entry.1 ∧
        group.DrawsConnector r entry.2)
      (routes.filter (·.1 ∈ m.relationships.items.map (·.id))) (connectorGroups m routes) := by
  let draw (entry : RelationshipId × Route α) : Option (Element α) :=
    (m.relationships.find? entry.1).map (connectorGroup · entry.2)
  have exists_iff : ∀ entry, (draw entry).isSome =
      decide (entry.1 ∈ m.relationships.items.map (·.id)) := by
    intro entry
    rw [Bool.eq_iff_iff, decide_eq_true_iff, List.mem_map, Option.isSome_map,
      Option.isSome_iff_exists]
    exact exists_congr fun r => filed.find?_eq_some
  have drawn := forall₂_filterMap draw routes
  rw [List.filter_congr fun entry _ => exists_iff entry] at drawn
  refine drawn.imp fun entry group made => ?_
  obtain ⟨r, found, rfl⟩ := Option.map_eq_some_iff.mp made
  obtain ⟨present, same⟩ := filed.find?_eq_some.mp found
  exact ⟨r, present, same, connectorGroup_draws r entry.2⟩

end Connectors

theorem render_eq_error {m : Model} {shapes : Shapes α} {routes : Routes α} {e : RouteError}
    (increasing : m.entities.items.Pairwise (·.id.number < ·.id.number)) :
    render m shapes routes = .error e ↔ ∃ entity ∈ m.entities.items,
      shapes entity.id = none ∧ e = .missingGeometry entity.id ∧
        ∀ other ∈ m.entities.items, shapes other.id = none →
          entity.id.number ≤ other.id.number := by
  let outlined (entity : Entity) : Prop := ∃ b, shapes entity.id = some b
  have missing_iff {entity : Entity} : ¬ outlined entity ↔ shapes entity.id = none := by
    rw [Option.eq_none_iff_forall_ne_some]
    exact not_exists
  have earliest {entity : Entity} := first_iff_least increasing outlined (a := entity)
  rw [(render_yields m shapes routes).eq_error, head?_flatMap_eq_some]
  simp only [Shapes.absent_eq_nil, Shapes.head?_absent]
  constructor
  · rintro ⟨front, entity, back, split, before, missing, rfl⟩
    obtain ⟨present, least⟩ := earliest.mp ⟨front, back, split, before⟩
    exact ⟨entity, present, missing, rfl, fun other member none =>
      least other member (missing_iff.mpr none)⟩
  · rintro ⟨entity, present, missing, rfl, least⟩
    obtain ⟨front, back, split, before⟩ :=
      earliest.mpr ⟨present, fun other member none => least other member (missing_iff.mp none)⟩
    exact ⟨front, entity, back, split, before, missing, rfl⟩

end Preview

namespace Model

/-- After every run a preview fails only if some entity has no rectangle, and then on account of the
earliest one. Otherwise it shows every entity once, packages first and then in the order of
creation, and, in the order of the routes, a connector for each one whose relationship exists. -/
theorem run_render [Scalar α] (operations : List Operation) (shapes : Shapes α)
    (routes : Routes α) :
    let m := Model.empty.run operations
    let entities := m.entities.items
    let relationships := m.relationships.items
    (∀ e, Preview.render m shapes routes = .error e ↔ ∃ entity ∈ entities,
      shapes entity.id = none ∧ e = .missingGeometry entity.id ∧
        ∀ other ∈ entities, shapes other.id = none → entity.id.number ≤ other.id.number) ∧
    ((∀ entity ∈ entities, ∃ b, shapes entity.id = some b) →
      ∃ svg below above order, Preview.render m shapes routes = .ok svg ∧
        svg.tag = "svg" ∧ svg.children = [below, above] ∧ below.tag = "g" ∧ above.tag = "g" ∧
        order.Perm entities ∧ order.Pairwise Entity.DrawnBefore ∧
        List.Forall₂ (fun entity group => ∃ b, shapes entity.id = some b ∧
          group.DrawsEntity entity b) order below.children ∧
        List.Forall₂ (fun entry group => ∃ r ∈ relationships, r.id = entry.1 ∧
            group.DrawsConnector r entry.2)
          (routes.filter (·.1 ∈ relationships.map (·.id))) above.children) := by
  intro m entities relationships
  have h : m.Sound := sound_run operations
  have increasing : entities.Pairwise (·.id.number < ·.id.number) := h.ordered.increasing
  refine ⟨fun e => Preview.render_eq_error increasing, fun outlined => ?_⟩
  obtain ⟨outlines, each, drawn⟩ := Preview.exists_render m shapes routes outlined
  have shown : outlines.map (·.1) = entities := by
    rw [← map_eq_map each fun entity outline here => here.1.symm, List.map_id']
  have placed : ∀ outline ∈ outlines, shapes outline.1.id = some outline.2 := by
    intro outline member
    obtain ⟨entity, -, rfl, found⟩ := exists_of_mem_right each member
    exact found
  rw [← shown, List.pairwise_map] at increasing
  have perm := (Preview.drawingOrder_perm outlines).map (·.1)
  rw [shown] at perm
  refine ⟨_, _, _, (Preview.drawingOrder outlines).map (·.1), drawn, rfl, rfl, rfl, rfl, perm,
    List.pairwise_map.mpr (Preview.pairwise_drawingOrder increasing),
    Preview.shapeGroups_draw fun outline member => ?_,
    Preview.connectorGroups_draw h.filed routes⟩
  exact placed outline (Preview.mem_drawingOrder.mp member)

/-- Here the interface is in the package, which was made later. The first of the routes is stale. -/
theorem run_render_nested :
    let m := Model.empty.run
      [.createEntity .interface "Item", .createEntity .package "Sales",
        .createEntity .plainClass "Order", .nest ⟨1⟩ ⟨2⟩,
        .addNewMember ⟨1⟩ .attribute "public" "price" "Money",
        .relate ⟨3⟩ ⟨1⟩ .association "" "*" "contains"]
    let shape : EntityId → Bounds ℚ := fun entity => ⟨0, 0, 100 * entity.number, 80⟩
    let place : Placement ℚ := ⟨⟨150, 20⟩, 0⟩
    let route : Route ℚ :=
      ⟨.horizontal, ⟨100, 40⟩, ⟨200, 40⟩, ⟨200, 40⟩, none, place, place, place⟩
    let routes : Routes ℚ := [(⟨7⟩, route), (⟨1⟩, route)]
    (∃ svg, Preview.render m (fun id => some (shape id)) routes = .ok svg ∧
      svg.children.map (fun layer => layer.children.map fun group => (group.parts, group.texts)) =
        [[(["rect", "text"], ["Sales"]),
          (["rect", "text", "text", "line", "text"], ["«interface»", "Item", "+ price: Money"]),
          (["rect", "text"], ["Order"])],
        [(["polyline", "text", "text"], ["contains", "*"])]]) ∧
      Preview.render m (fun id => if id = ⟨1⟩ then some (shape id) else none) routes =
        .error (.missingGeometry ⟨2⟩) := by
  intro m shape place route routes
  constructor
  · obtain ⟨svg, -, -, -, drawn, -⟩ :=
      (run_render _ (fun id => some (shape id)) routes).2 fun entity _ => ⟨_, rfl⟩
    have read : (Preview.render m (fun id => some (shape id)) routes).map (fun svg =>
        svg.children.map fun layer => layer.children.map fun group => (group.parts, group.texts)) =
        .ok [[(["rect", "text"], ["Sales"]),
          (["rect", "text", "text", "line", "text"], ["«interface»", "Item", "+ price: Money"]),
          (["rect", "text"], ["Order"])],
        [(["polyline", "text", "text"], ["contains", "*"])]] := by
      decide +kernel
    rw [drawn] at read
    exact ⟨svg, drawn, Except.ok.inj read⟩
  · refine ((run_render _ _ routes).1 _).mpr ⟨⟨⟨2⟩, .package, "Sales", none, []⟩, ?_, rfl, rfl, ?_⟩
    · decide +kernel
    · decide +kernel

end Model

end ClassDiagram
