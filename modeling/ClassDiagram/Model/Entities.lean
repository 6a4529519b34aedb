import ClassDiagram.Member

/-! The entities of a model, in creation order, with their members and their nesting. Entities and
members draw their numbers from one sequence. -/

namespace ClassDiagram

structure Entity where
  id : EntityId
  kind : EntityKind
  title : String
  parent : Option EntityId := none
  members : List (MemberId × Member) := []
  deriving DecidableEq, Repr

namespace Entity

def member? (e : Entity) (id : MemberId) : Option Member :=
  (e.members.find? (·.1 = id)).map (·.2)

end Entity

/-- The members without the one that is moved, and that one put back at `index`, or at the end if
there are fewer members. -/
def moveMember (id : MemberId) (index : Nat) (members : List (MemberId × Member)) :
    List (MemberId × Member) :=
  match members.find? (·.1 = id) with
  | none => members
  | some entry =>
    let others := members.eraseP (·.1 = id)
    others.take index ++ entry :: others.drop index

structure Entities where
  ids : Sequence := {}
  items : List Entity := []
  deriving DecidableEq, Repr

namespace Entities

def find? (es : Entities) (id : EntityId) : Option Entity := es.items.find? (·.id = id)

def contains (es : Entities) (id : EntityId) : Bool := es.items.any (·.id = id)

def require (es : Entities) (id : EntityId) : Except ModelError Entity :=
  match es.find? id with
  | some entity => .ok entity
  | none => .error (.notFound (.entity id))

def children (es : Entities) (package : EntityId) : List Entity :=
  es.items.filter (·.parent = some package)

def topLevel (es : Entities) : List Entity := es.items.filter (·.parent = none)

def replace (es : Entities) (entity : Entity) : Entities :=
  { es with items := es.items.map fun e => if e.id = entity.id then entity else e }

def create (es : Entities) (kind : EntityKind) (title : String) :
    Except ModelError (EntityId × Entities) := do
  let title ← Field.title.require title
  let id : EntityId := ⟨es.ids.fresh⟩
  return (id, { ids := es.ids.advance, items := es.items ++ [{ id, kind, title }] })

def rename (es : Entities) (id : EntityId) (title : String) : Except ModelError Entities := do
  let entity ← es.require id
  let title ← (Subject.entity id).blame (Field.title.require title)
  return es.replace { entity with title }

def addMember (es : Entities) (id : EntityId) (member : Member) :
    Except ModelError (MemberId × Entities) := do
  let entity ← es.require id
  if entity.kind.holdsMembers then
    let memberId : MemberId := ⟨es.ids.fresh⟩
    let es := es.replace { entity with members := entity.members ++ [(memberId, member)] }
    return (memberId, { es with ids := es.ids.advance })
  else
    throw (.validation .kind (some (.entity id)) (.memberless entity.kind))

def addNewMember (es : Entities) (id : EntityId) (kind : MemberKind)
    (visibility name typeName : String) : Except ModelError (MemberId × Entities) := do
  let _ ← es.require id
  let member ← (Subject.entity id).blame do
    Member.make kind (← Visibility.parse visibility) name typeName
  es.addMember id member

def removeMember (es : Entities) (id : EntityId) (member : MemberId) :
    Except ModelError Entities := do
  let entity ← es.require id
  return es.replace { entity with members := entity.members.filter (·.1 ≠ member) }

def requireMember (es : Entities) (id : EntityId) (member : MemberId) :
    Except ModelError Member := do
  let entity ← es.require id
  match entity.member? member with
  | some m => return m
  | none => throw (.notFound (.member id member))

def editMember (es : Entities) (id : EntityId) (member : MemberId)
    (edit : Member → Except ModelError Member) : Except ModelError Entities := do
  let entity ← es.require id
  let old ← es.requireMember id member
  let new ← (Subject.member id member).blame (edit old)
  return es.replace
    { entity with members := entity.members.map fun m => if m.1 = member then (m.1, new) else m }

def moveMember (es : Entities) (id : EntityId) (member : MemberId) (index : Nat) :
    Except ModelError Entities := do
  let entity ← es.require id
  let _ ← es.requireMember id member
  return es.replace { entity with members := ClassDiagram.moveMember member index entity.members }

/-- Only packages contain entities, and only entities that are no packages are nested. -/
def nest (es : Entities) (child package : EntityId) : Except ModelError Entities := do
  let container ← es.require package
  let entity ← es.require child
  if container.kind ≠ .package then
    throw (.validation .nesting (some (.entity package)) (.notContainer container.kind))
  else if entity.kind = .package then
    throw (.validation .nesting (some (.entity child)) .nestedPackage)
  else
    return es.replace { entity with parent := some package }

def unnest (es : Entities) (child : EntityId) : Except ModelError Entities := do
  let entity ← es.require child
  return es.replace { entity with parent := none }

/-- What goes when an entity is removed: the entities nested in it, and then itself. -/
def doomed (es : Entities) (id : EntityId) : List EntityId :=
  if es.contains id then (es.children id).map (·.id) ++ [id] else []

def remove (es : Entities) (ids : List EntityId) : Entities :=
  { es with items := es.items.filter fun e => !ids.contains e.id }

end Entities

end ClassDiagram
