import ClassDiagram.Model.Basic

/-! The declarations of a model as text: a header, a line for each member or a block for each
nested entity, a closing brace, and comments that trace the relationships. -/

namespace ClassDiagram

structure CodegenSettings where
  indent : String := "  "
  trace : Bool := true
  deriving DecidableEq, Repr

/-- A line of text that is indented `depth` times. A line without text stays empty. -/
structure Line where
  depth : Nat
  text : String
  deriving DecidableEq, Repr

namespace Line

def blank : Line := ⟨0, ""⟩

def nested (line : Line) : Line := { line with depth := line.depth + 1 }

def written (indent : String) (line : Line) : List Char :=
  if line.text.isEmpty then []
  else (List.replicate line.depth indent.toList).flatten ++ line.text.toList

end Line

def separated : List (List Line) → List Line
  | [] => []
  | [block] => block
  | block :: next :: rest => block ++ Line.blank :: separated (next :: rest)

def Member.declaration (m : Member) : String :=
  match m.kind with
  | .attribute => m.visibility.keyword ++ " " ++ m.typeName ++ " " ++ m.name ++ ";"
  | .operation => m.visibility.keyword ++ " " ++ m.typeName ++ " " ++ m.name ++ " \x7b \x7d"

namespace Model

/-- The source of the first inheritance that reaches the entity. -/
def superclass? (m : Model) (entity : EntityId) : Option Entity :=
  ((m.relationships.touching entity).find? fun r =>
    r.kind = .inheritance && r.target = entity).bind fun r => m.entities.find? r.source

def header (m : Model) (entity : Entity) : String :=
  let base := entity.kind.keyword ++ " " ++ entity.title
  match m.superclass? entity.id with
  | some parent => base ++ " extends " ++ parent.title ++ " \x7b"
  | none => base ++ " \x7b"

def trace? (m : Model) (r : Relationship) : Option String := do
  let source ← m.entities.find? r.source
  let target ← m.entities.find? r.target
  return "// " ++ r.kind.name ++ ": " ++ source.title ++ " -> " ++ target.title

def traces (m : Model) (entity : EntityId) : List String :=
  ((m.relationships.touching entity).filter (·.kind ≠ .inheritance)).filterMap m.trace?

def declaration (m : Model) (trace : Bool) : Nat → Entity → List Line
  | depth, entity =>
    let body : List Line :=
      match entity.kind, depth with
      | .package, 0 => []
      | .package, depth + 1 =>
        (separated ((m.entities.children entity.id).map (m.declaration trace depth))).map Line.nested
      | _, _ => entity.members.map fun entry => ⟨1, entry.2.declaration⟩
    ⟨0, m.header entity⟩ :: body ++ ⟨0, "\x7d"⟩ ::
      if trace then (m.traces entity.id).map (⟨0, ·⟩) else []

/-- As many levels as there are entities show everything that is nested. -/
def fullDepth (m : Model) : Nat := m.entities.items.length + 1

def declarationLines (m : Model) (settings : CodegenSettings) (entity : Entity) : List Line :=
  m.declaration settings.trace m.fullDepth entity

def allLines (m : Model) (settings : CodegenSettings) : List Line :=
  separated (m.entities.topLevel.map (m.declarationLines settings))

end Model

def writeLines (indent : String) (lines : List Line) : String :=
  String.ofList (Text.joined ['\n'] (lines.map (Line.written indent)))

namespace Model

def generate (m : Model) (settings : CodegenSettings) (entity : EntityId) :
    Except ModelError String := do
  let entity ← m.entities.require entity
  return writeLines settings.indent (m.declarationLines settings entity)

def generateAll (m : Model) (settings : CodegenSettings) : String :=
  writeLines settings.indent (m.allLines settings)

end Model

end ClassDiagram
