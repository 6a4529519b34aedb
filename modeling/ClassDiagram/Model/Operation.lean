import ClassDiagram.Model.Basic

/-! The changes to a model as data, and the model as a transition system: a change answers
something and leads to a next model, which is the same one when the change is refused. -/

namespace ClassDiagram

inductive Operation where
  | createEntity (kind : EntityKind) (title : String)
  | renameEntity (entity : EntityId) (title : String)
  | removeEntity (entity : EntityId)
  | addMember (entity : EntityId) (member : Member)
  | addNewMember (entity : EntityId) (kind : MemberKind) (visibility name typeName : String)
  | removeMember (entity : EntityId) (member : MemberId)
  | setMemberVisibility (entity : EntityId) (member : MemberId) (word : String)
  | renameMember (entity : EntityId) (member : MemberId) (name : String)
  | setMemberType (entity : EntityId) (member : MemberId) (typeName : String)
  | moveMember (entity : EntityId) (member : MemberId) (index : Nat)
  | nest (child package : EntityId)
  | unnest (child : EntityId)
  | relate (source target : EntityId) (kind : RelationshipKind)
      (sourceMultiplicity targetMultiplicity label : String)
  | unrelate (relationship : RelationshipId)
  | setLabel (relationship : RelationshipId) (label : String)
  | setMultiplicities (relationship : RelationshipId) (source target : String)
  | setKind (relationship : RelationshipId) (kind : RelationshipKind)
  deriving DecidableEq, Repr

inductive Outcome where
  | done
  | entity (id : EntityId)
  | member (id : MemberId)
  | relationship (id : RelationshipId)
  deriving DecidableEq, Repr

namespace Model

def perform (m : Model) : Operation → Except ModelError (Outcome × Model)
  | .createEntity kind title => (m.createEntity kind title).map fun (id, m) => (.entity id, m)
  | .renameEntity entity title => (m.renameEntity entity title).map (.done, ·)
  | .removeEntity entity => .ok (.done, m.removeEntity entity)
  | .addMember entity member => (m.addMember entity member).map fun (id, m) => (.member id, m)
  | .addNewMember entity kind visibility name typeName =>
    (m.addNewMember entity kind visibility name typeName).map fun (id, m) => (.member id, m)
  | .removeMember entity member => (m.removeMember entity member).map (.done, ·)
  | .setMemberVisibility entity member word =>
    (m.setMemberVisibility entity member word).map (.done, ·)
  | .renameMember entity member name => (m.renameMember entity member name).map (.done, ·)
  | .setMemberType entity member typeName => (m.setMemberType entity member typeName).map (.done, ·)
  | .moveMember entity member index => (m.moveMember entity member index).map (.done, ·)
  | .nest child package => (m.nest child package).map (.done, ·)
  | .unnest child => (m.unnest child).map (.done, ·)
  | .relate source target kind sourceMultiplicity targetMultiplicity label =>
    (m.relate source target kind sourceMultiplicity targetMultiplicity label).map
      fun (id, m) => (.relationship id, m)
  | .unrelate relationship => .ok (.done, m.unrelate relationship)
  | .setLabel relationship label => (m.setLabel relationship label).map (.done, ·)
  | .setMultiplicities relationship source target =>
    (m.setMultiplicities relationship source target).map (.done, ·)
  | .setKind relationship kind => (m.setKind relationship kind).map (.done, ·)

def step (m : Model) (operation : Operation) : Except ModelError Outcome × Model :=
  match m.perform operation with
  | .ok (outcome, next) => (.ok outcome, next)
  | .error e => (.error e, m)

def run (m : Model) (operations : List Operation) : Model :=
  operations.foldl (fun m operation => (m.step operation).2) m

end Model

end ClassDiagram
