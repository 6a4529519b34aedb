import ClassDiagram.Project.Snapshot

/-! Rebuilding a model from a project, by the changes that a user would make. First all entities
are created, then they are nested, so that a record may name a package further down, and then
they are related. -/

namespace ClassDiagram

structure LoadedProject where
  name : String
  model : Model := .empty
  bounds : List (EntityId × Bounds Float32) := []
  keys : List (String × EntityId) := []
  deriving Repr

namespace LoadedProject

def shapes (p : LoadedProject) : Shapes Float32 := fun id => p.bounds.lookup id

def setBounds (p : LoadedProject) (id : EntityId) (b : Bounds Float32) : LoadedProject :=
  { p with bounds := (id, b) :: p.bounds.filter (·.1 ≠ id) }

def entityId? (p : LoadedProject) (key : String) : Option EntityId := p.keys.lookup key

def resolve (p : LoadedProject) (key : String) : Except DiagramError EntityId :=
  match p.entityId? key with
  | some id => .ok id
  | none => .error (.project (.unknownKey key))

def addRecordedMember (entity : EntityId) (m : Model) (record : MemberRecord) :
    Except DiagramError Model := do
  let member ← record.toMember
  let (_, m) ← (m.addMember entity member).mapError .model
  return m

def addEntity (p : LoadedProject) (record : EntityRecord) : Except DiagramError LoadedProject := do
  if (p.entityId? record.key).isSome then
    throw (.project (.duplicateKey record.key))
  let (id, m) ← (p.model.createEntity record.kind record.title).mapError .model
  let m ← record.members.foldlM (addRecordedMember id) m
  let p := { p with model := m, keys := p.keys ++ [(record.key, id)] }
  return match record.bounds with
    | some shape => p.setBounds id shape.bounds
    | none => p

def nestEntity (p : LoadedProject) (record : EntityRecord) : Except DiagramError LoadedProject :=
  match record.package with
  | none => .ok p
  | some package => do
    let child ← p.resolve record.key
    let container ← p.resolve package
    return { p with model := ← (p.model.nest child container).mapError .model }

def addRelationship (p : LoadedProject) (record : RelationshipRecord) :
    Except DiagramError LoadedProject := do
  let source ← p.resolve record.source
  let target ← p.resolve record.target
  let (_, m) ←
    (p.model.relate source target record.kind record.sourceMultiplicity record.targetMultiplicity
      record.label).mapError .model
  return { p with model := m }

def replay (project : Project) : Except DiagramError LoadedProject := do
  let p ← project.entities.foldlM addEntity { name := project.name }
  let p ← project.entities.foldlM nestEntity p
  project.relationships.foldlM addRelationship p

def snapshot (p : LoadedProject) : Project := p.model.snapshot p.name p.shapes

end LoadedProject

structure Library where
  projects : List (String × Project) := []
  deriving Repr

namespace Library

def save (library : Library) (project : Project) : Except DiagramError Library :=
  if (Text.trimmed project.name).isEmpty then .error (.project .blankName)
  else .ok ⟨(project.name, project) :: library.projects.filter (·.1 ≠ project.name)⟩

def find? (library : Library) (name : String) : Option Project := library.projects.lookup name

def size (library : Library) : Nat := library.projects.length

end Library

end ClassDiagram
