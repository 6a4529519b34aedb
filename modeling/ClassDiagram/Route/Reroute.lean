import ClassDiagram.Model.Basic
import ClassDiagram.Route.Basic

/-! Routing the relationships of a model: all of them, or those that touch one entity, which is
enough after that entity moved or one of its relationships changed. -/

namespace ClassDiagram

variable {α : Type}

abbrev Shapes (α : Type) := EntityId → Option (Bounds α)

abbrev Routes (α : Type) := List (RelationshipId × Route α)

/-- Puts routes that were computed anew into earlier ones: what is not kept goes, a new route takes
the place of the earlier one, and those without an earlier one come last. -/
def Routes.patch (routes : Routes α) (kept : RelationshipId → Bool) (anew : Routes α) : Routes α :=
  (routes.filter fun entry => kept entry.1).map
      (fun entry => (entry.1, (anew.lookup entry.1).getD entry.2)) ++
    anew.filter fun entry => (routes.lookup entry.1).isNone

def Shapes.require (shapes : Shapes α) (entity : EntityId) : Except RouteError (Bounds α) :=
  match shapes entity with
  | some bounds => .ok bounds
  | none => .error (.missingGeometry entity)

namespace Model

/-- The place of a relationship among those with the same source and target, and the first one if
it is not among them. -/
def parallelNumber (m : Model) (r : Relationship) : Nat :=
  ((m.relationships.between r.source r.target).findIdx? (·.id = r.id)).getD 0

def routeOne (m : Model) (router : Router α) (shapes : Shapes α) (r : Relationship) :
    Except RouteError (RelationshipId × Route α) := do
  let source ← shapes.require r.source
  let target ← shapes.require r.target
  let route ← router source target r.kind (m.parallelNumber r)
  return (r.id, route)

def reroute (m : Model) (router : Router α) (shapes : Shapes α) : Except RouteError (Routes α) :=
  m.relationships.items.mapM (m.routeOne router shapes)

def rerouteTouching (m : Model) (router : Router α) (shapes : Shapes α) (entity : EntityId) :
    Except RouteError (Routes α) :=
  (m.relationships.touching entity).mapM (m.routeOne router shapes)

end Model

end ClassDiagram
