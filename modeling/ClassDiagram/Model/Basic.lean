import ClassDiagram.Model.Relationships

/-! A class-diagram model: entities, and relationships whose ends are entities of the model. A
change either gives a new model or says why it is refused. -/

namespace ClassDiagram

structure Model where
  entities : Entities := {}
  relationships : Relationships := {}
  deriving DecidableEq, Repr

namespace Model

def empty : Model := {}

section Entities

def createEntity (m : Model) (kind : EntityKind) (title : String) :
    Except ModelError (EntityId × Model) := do
  let (id, entities) ← m.entities.create kind title
  return (id, { m with entities })

def renameEntity (m : Model) (id : EntityId) (title : String) : Except ModelError Model := do
  return { m with entities := ← m.entities.rename id title }

/-- Removes an entity, what is nested in it, and every relationship that has one of these as an
end. An unknown entity is as good as removed. -/
def removeEntity (m : Model) (id : EntityId) : Model :=
  let doomed := m.entities.doomed id
  { entities := m.entities.remove doomed
    relationships := doomed.foldl Relationships.detach m.relationships }

end Entities

section Members

def addMember (m : Model) (entity : EntityId) (member : Member) :
    Except ModelError (MemberId × Model) := do
  let (id, entities) ← m.entities.addMember entity member
  return (id, { m with entities })

def addNewMember (m : Model) (entity : EntityId) (kind : MemberKind)
    (visibility name typeName : String) : Except ModelError (MemberId × Model) := do
  let (id, entities) ← m.entities.addNewMember entity kind visibility name typeName
  return (id, { m with entities })

def removeMember (m : Model) (entity : EntityId) (member : MemberId) :
    Except ModelError Model := do
  return { m with entities := ← m.entities.removeMember entity member }

def setMemberVisibility (m : Model) (entity : EntityId) (member : MemberId) (word : String) :
    Except ModelError Model := do
  return { m with entities := ← m.entities.editMember entity member (·.setVisibility word) }

def renameMember (m : Model) (entity : EntityId) (member : MemberId) (name : String) :
    Except ModelError Model := do
  return { m with entities := ← m.entities.editMember entity member (·.rename name) }

def setMemberType (m : Model) (entity : EntityId) (member : MemberId) (typeName : String) :
    Except ModelError Model := do
  return { m with entities := ← m.entities.editMember entity member (·.setType typeName) }

def moveMember (m : Model) (entity : EntityId) (member : MemberId) (index : Nat) :
    Except ModelError Model := do
  return { m with entities := ← m.entities.moveMember entity member index }

end Members

section Nesting

def nest (m : Model) (child package : EntityId) : Except ModelError Model := do
  return { m with entities := ← m.entities.nest child package }

def unnest (m : Model) (child : EntityId) : Except ModelError Model := do
  return { m with entities := ← m.entities.unnest child }

def children (m : Model) (package : EntityId) : Except ModelError (List EntityId) := do
  let _ ← m.entities.require package
  return (m.entities.children package).map (·.id)

end Nesting

section Relationships

def relate (m : Model) (source target : EntityId) (kind : RelationshipKind)
    (sourceMultiplicity targetMultiplicity label : String) :
    Except ModelError (RelationshipId × Model) := do
  let _ ← m.entities.require source
  let _ ← m.entities.require target
  let (id, relationships) :=
    m.relationships.add source target kind sourceMultiplicity targetMultiplicity label
  return (id, { m with relationships })

def unrelate (m : Model) (id : RelationshipId) : Model :=
  { m with relationships := m.relationships.remove id }

def setLabel (m : Model) (id : RelationshipId) (label : String) : Except ModelError Model := do
  return { m with relationships := ← m.relationships.setLabel id label }

def setMultiplicities (m : Model) (id : RelationshipId) (source target : String) :
    Except ModelError Model := do
  return { m with relationships := ← m.relationships.setMultiplicities id source target }

def setKind (m : Model) (id : RelationshipId) (kind : RelationshipKind) :
    Except ModelError Model := do
  return { m with relationships := ← m.relationships.setKind id kind }

end Relationships

end Model

end ClassDiagram
