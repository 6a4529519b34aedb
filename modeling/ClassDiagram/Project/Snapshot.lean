import ClassDiagram.Project.Record
import ClassDiagram.Route.Reroute

/-! Taking a snapshot of a model as a project. The key of an entity is its title, or the title
with the first number from two on that makes it unlike the keys of earlier entities. -/

namespace ClassDiagram

namespace Snapshot

def numbered (title : String) (number : Nat) : String := title ++ "-" ++ toString number

def firstFree (used : List String) (title : String) : Nat → Nat → String
  | 0, number => numbered title number
  | fuel + 1, number =>
    if used.contains (numbered title number) then firstFree used title fuel (number + 1)
    else numbered title number

/-- There are fewer used keys than candidates, so one of these is free. -/
def uniqueKey (used : List String) (title : String) : String :=
  if used.contains title then firstFree used title used.length 2 else title

/-- The keys for titles, in order, where `used` holds those of earlier entities. -/
def keys (used : List String) : List String → List String
  | [] => []
  | title :: titles =>
    let key := uniqueKey used title
    key :: keys (key :: used) titles

end Snapshot

namespace Model

def keyed (m : Model) : List (EntityId × String) :=
  (m.entities.items.map (·.id)).zip (Snapshot.keys [] (m.entities.items.map (·.title)))

def keyOf (m : Model) (id : EntityId) : String := (m.keyed.lookup id).getD ""

def entityRecord (m : Model) (shapes : Shapes Float32) (entity : Entity) : EntityRecord where
  key := m.keyOf entity.id
  kind := entity.kind
  title := entity.title
  members := entity.members.map fun entry => .ofMember entry.2
  package := entity.parent.map m.keyOf
  bounds := (shapes entity.id).map .ofBounds

def relationshipRecord (m : Model) (r : Relationship) : RelationshipRecord where
  source := m.keyOf r.source
  target := m.keyOf r.target
  kind := r.kind
  sourceMultiplicity := r.sourceMultiplicity
  targetMultiplicity := r.targetMultiplicity
  label := r.label

def snapshot (m : Model) (name : String) (shapes : Shapes Float32) : Project where
  name := name
  entities := m.entities.items.map (m.entityRecord shapes)
  relationships := m.relationships.items.map m.relationshipRecord

end Model

end ClassDiagram
