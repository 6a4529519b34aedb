import ClassDiagram.Model.Entities

/-!
The relationships of a model, in insertion order, with two indices from an entity to the
relationships that leave it and that reach it. Numbers grow, so sorting restores insertion order.
-/

namespace ClassDiagram

structure Relationship where
  id : RelationshipId
  source : EntityId
  target : EntityId
  kind : RelationshipKind
  sourceMultiplicity : String
  targetMultiplicity : String
  label : String
  deriving DecidableEq, Repr

def Relationship.touches (r : Relationship) (entity : EntityId) : Bool :=
  r.source = entity || r.target = entity

/-- The relationships filed under each entity. An entity without any has no entry. -/
abbrev Index := List (EntityId × List RelationshipId)

namespace Index

def ids (index : Index) (entity : EntityId) : List RelationshipId :=
  (List.lookup entity index).getD []

def insert (entity : EntityId) (id : RelationshipId) : Index → Index
  | [] => [(entity, [id])]
  | (e, ids) :: rest =>
    if e = entity then (e, ids ++ [id]) :: rest else (e, ids) :: insert entity id rest

def erase (entity : EntityId) (id : RelationshipId) : Index → Index
  | [] => []
  | (e, ids) :: rest =>
    if e = entity then
      let left := ids.filter (· ≠ id)
      if left.isEmpty then rest else (e, left) :: rest
    else (e, ids) :: erase entity id rest

end Index

structure Relationships where
  ids : Sequence := {}
  items : List Relationship := []
  outgoing : Index := []
  incoming : Index := []
  deriving DecidableEq, Repr

def increasing (ids : List RelationshipId) : List RelationshipId :=
  (ids.mergeSort fun a b => a.number ≤ b.number).eraseReps

namespace Relationships

def find? (rs : Relationships) (id : RelationshipId) : Option Relationship :=
  rs.items.find? (·.id = id)

def require (rs : Relationships) (id : RelationshipId) : Except ModelError Relationship :=
  match rs.find? id with
  | some relationship => .ok relationship
  | none => .error (.notFound (.relationship id))

def touching (rs : Relationships) (entity : EntityId) : List Relationship :=
  (increasing (rs.outgoing.ids entity ++ rs.incoming.ids entity)).filterMap rs.find?

def between (rs : Relationships) (source target : EntityId) : List Relationship :=
  ((rs.outgoing.ids source).filterMap rs.find?).filter (·.target = target)

def add (rs : Relationships) (source target : EntityId) (kind : RelationshipKind)
    (sourceMultiplicity targetMultiplicity label : String) : RelationshipId × Relationships :=
  let id : RelationshipId := ⟨rs.ids.fresh⟩
  let relationship : Relationship :=
    { id, source, target, kind
      sourceMultiplicity := Text.trimmed sourceMultiplicity
      targetMultiplicity := Text.trimmed targetMultiplicity
      label := Text.trimmed label }
  (id,
    { ids := rs.ids.advance
      items := rs.items ++ [relationship]
      outgoing := rs.outgoing.insert source id
      incoming := rs.incoming.insert target id })

def replace (rs : Relationships) (relationship : Relationship) : Relationships :=
  { rs with items := rs.items.map fun r => if r.id = relationship.id then relationship else r }

def setLabel (rs : Relationships) (id : RelationshipId) (label : String) :
    Except ModelError Relationships := do
  let r ← rs.require id
  return rs.replace { r with label := Text.trimmed label }

def setMultiplicities (rs : Relationships) (id : RelationshipId) (source target : String) :
    Except ModelError Relationships := do
  let r ← rs.require id
  return rs.replace
    { r with
      sourceMultiplicity := Text.trimmed source
      targetMultiplicity := Text.trimmed target }

def setKind (rs : Relationships) (id : RelationshipId) (kind : RelationshipKind) :
    Except ModelError Relationships := do
  let r ← rs.require id
  return rs.replace { r with kind }

def remove (rs : Relationships) (id : RelationshipId) : Relationships :=
  match rs.find? id with
  | none => rs
  | some r =>
    { rs with
      items := rs.items.eraseP (·.id = id)
      outgoing := rs.outgoing.erase r.source id
      incoming := rs.incoming.erase r.target id }

def detach (rs : Relationships) (entity : EntityId) : Relationships :=
  ((rs.touching entity).map (·.id)).foldl remove rs

end Relationships

end ClassDiagram
