import ClassDiagram.Model.Operation

/-! The same changes made in place, look-up by look-up and write by write. What was written before
a refusal stays written here, so that a change which checks too late would leave its traces. -/

namespace ClassDiagram

/-- A change of a state in place, which may be refused half-way. -/
abbrev InPlace (σ α : Type) := ExceptT ModelError (StateM σ) α

namespace InPlace

section Steps

variable {σ τ α : Type}

def outcome (change : InPlace σ α) (s : σ) : Except ModelError α × σ := change.run.run s

def check (result : σ → Except ModelError α) : InPlace σ α :=
  ExceptT.mk fun s => (result s, s)

def write (f : σ → σ) : InPlace σ Unit := ExceptT.mk fun s => (.ok (), f s)

/-- A change of a part of the state, which `put` writes back, whatever came of the change. -/
def within (part : σ → τ) (put : σ → τ → σ) (change : InPlace τ α) : InPlace σ α :=
  ExceptT.mk fun s =>
    let (result, t) := change.outcome (part s)
    (result, put s t)

end Steps

section Entities

def drawNumber : InPlace Entities Nat := do
  let number ← check fun es => .ok es.ids.fresh
  write fun es => { es with ids := es.ids.advance }
  return number

def require (id : EntityId) : InPlace Entities Entity := check (·.require id)

def create (kind : EntityKind) (title : String) : InPlace Entities EntityId := do
  let ⟨title, _⟩ ← check fun _ => Field.title.require title
  let number ← drawNumber
  write fun es => { es with items := es.items ++ [{ id := ⟨number⟩, kind, title }] }
  return ⟨number⟩

def rename (id : EntityId) (title : String) : InPlace Entities Unit := do
  let entity ← require id
  let ⟨title, _⟩ ← check fun _ => (Subject.entity id).blame (Field.title.require title)
  write (·.replace { entity with title })

def addMember (id : EntityId) (member : Member) : InPlace Entities MemberId := do
  let entity ← require id
  if entity.kind.holdsMembers then
    let number ← drawNumber
    write (·.replace { entity with members := entity.members ++ [(⟨number⟩, member)] })
    return ⟨number⟩
  else
    throw (.validation .kind (some (.entity id)) (.memberless entity.kind))

def addNewMember (id : EntityId) (kind : MemberKind) (visibility name typeName : String) :
    InPlace Entities MemberId := do
  let _ ← require id
  let visibility ← check fun _ => (Subject.entity id).blame (Visibility.parse visibility)
  let member ← check fun _ => (Subject.entity id).blame (Member.make kind visibility name typeName)
  addMember id member

def removeMember (id : EntityId) (member : MemberId) : InPlace Entities Unit := do
  let entity ← require id
  write (·.replace { entity with members := entity.members.filter (·.1 ≠ member) })

def setVisibility (word : String) : InPlace Member Unit := do
  let visibility ← check fun _ => Visibility.parse word
  write fun m => { m with visibility }

def renameMember (name : String) : InPlace Member Unit := do
  let ⟨name, name_filled⟩ ← check fun _ => Field.name.require name
  write fun m => { m with name, name_filled }

def setType (typeName : String) : InPlace Member Unit := do
  let ⟨typeName, type_filled⟩ ← check fun m => m.typeField.require typeName
  write fun m => { m with typeName, type_filled }

def editMember (id : EntityId) (member : MemberId) (edit : InPlace Member Unit) :
    InPlace Entities Unit := do
  let entity ← require id
  let old ← check (·.requireMember id member)
  let (result, new) := edit.outcome old
  write (·.replace
    { entity with members := entity.members.map fun m => if m.1 = member then (m.1, new) else m })
  check fun _ => (Subject.member id member).blame result

def moveMember (id : EntityId) (member : MemberId) (index : Nat) : InPlace Entities Unit := do
  let entity ← require id
  let moved ← check (·.requireMember id member)
  let others := entity.members.eraseP (·.1 = member)
  write (·.replace { entity with members := others })
  let place := min index others.length
  write (·.replace { entity with members := others.insertIdx place (member, moved) })

def nest (child package : EntityId) : InPlace Entities Unit := do
  let container ← require package
  let entity ← require child
  if container.kind ≠ .package then
    throw (.validation .nesting (some (.entity package)) (.notContainer container.kind))
  if entity.kind = .package then
    throw (.validation .nesting (some (.entity child)) .nestedPackage)
  write (·.replace { entity with parent := some package })

def unnest (child : EntityId) : InPlace Entities Unit := do
  let entity ← require child
  write (·.replace { entity with parent := none })

end Entities

section Relationships

def drawRelationship : InPlace Relationships RelationshipId := do
  let id ← check fun rs => .ok ⟨rs.ids.fresh⟩
  write fun rs => { rs with ids := rs.ids.advance }
  return id

def relate (entities : Entities) (source target : EntityId) (kind : RelationshipKind)
    (sourceMultiplicity targetMultiplicity label : String) :
    InPlace Relationships RelationshipId := do
  let _ ← check fun _ => entities.require source
  let _ ← check fun _ => entities.require target
  let id ← drawRelationship
  let relationship : Relationship :=
    { id, source, target, kind
      sourceMultiplicity := Text.trimmed sourceMultiplicity
      targetMultiplicity := Text.trimmed targetMultiplicity
      label := Text.trimmed label }
  write fun rs => { rs with items := rs.items ++ [relationship] }
  write fun rs => { rs with outgoing := rs.outgoing.insert source id }
  write fun rs => { rs with incoming := rs.incoming.insert target id }
  return id

def redraw (id : RelationshipId) (edit : Relationship → Relationship) :
    InPlace Relationships Unit := do
  let r ← check (·.require id)
  write (·.replace (edit r))

end Relationships

section Model

variable {α : Type}

def onEntities (change : InPlace Entities α) : InPlace Model α :=
  within Model.entities (fun m entities => { m with entities }) change

def onRelationships (change : InPlace Relationships α) : InPlace Model α :=
  within Model.relationships (fun m relationships => { m with relationships }) change

def perform : Operation → InPlace Model Outcome
  | .createEntity kind title => do return .entity (← onEntities (create kind title))
  | .renameEntity entity title => do onEntities (rename entity title); return .done
  | .removeEntity entity => do write (·.removeEntity entity); return .done
  | .addMember entity member => do return .member (← onEntities (addMember entity member))
  | .addNewMember entity kind visibility name typeName => do
    return .member (← onEntities (addNewMember entity kind visibility name typeName))
  | .removeMember entity member => do onEntities (removeMember entity member); return .done
  | .setMemberVisibility entity member word => do
    onEntities (editMember entity member (setVisibility word)); return .done
  | .renameMember entity member name => do
    onEntities (editMember entity member (renameMember name)); return .done
  | .setMemberType entity member typeName => do
    onEntities (editMember entity member (setType typeName)); return .done
  | .moveMember entity member index => do
    onEntities (moveMember entity member index); return .done
  | .nest child package => do onEntities (nest child package); return .done
  | .unnest child => do onEntities (unnest child); return .done
  | .relate source target kind sourceMultiplicity targetMultiplicity label => do
    let entities ← check fun m => .ok m.entities
    return .relationship (← onRelationships
      (relate entities source target kind sourceMultiplicity targetMultiplicity label))
  | .unrelate relationship => do write (·.unrelate relationship); return .done
  | .setLabel relationship label => do
    onRelationships (redraw relationship fun r => { r with label := Text.trimmed label })
    return .done
  | .setMultiplicities relationship source target => do
    onRelationships (redraw relationship fun r =>
      { r with
        sourceMultiplicity := Text.trimmed source
        targetMultiplicity := Text.trimmed target })
    return .done
  | .setKind relationship kind => do
    onRelationships (redraw relationship fun r => { r with kind }); return .done

end Model

end InPlace

end ClassDiagram
