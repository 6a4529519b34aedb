import ClassDiagram.Project.Record
import ClassDiagram.Toml.Reader
import ClassDiagram.Toml.Writer

/-! Projects as TOML. The fields of each record are written in a fixed order. When a record is
read, unknown fields are ignored and those with a default may be left out. -/

namespace ClassDiagram

open Toml

namespace MemberRecord

def encode : MemberRecord → Value
  | .line text => .string text
  | .fields kind visibility name typeName =>
    .table
      [("visibility", .string visibility.keyword), ("name", .string name),
        ("type", .string typeName), ("operation", .boolean (kind == .operation))]

/-- Which of the two it is shows only after the whole member has been kept. -/
def decode : Value → Option MemberRecord
  | .string text => some (.line text)
  | .table t => do
    guard (Value.table t).isKeepable
    let visibility ← Table.required t "visibility" fun v => v.string?.bind Visibility.ofKeyword?
    let name ← Table.required t "name" Value.string?
    let typeName ← Table.required t "type" Value.string?
    let operation ← Table.optional t "operation" false Value.boolean?
    return .fields (if operation then .operation else .attribute) visibility name typeName
  | _ => none

end MemberRecord

namespace ShapeRecord

def order : List String := ["x", "y", "width", "height"]

def encode (s : ShapeRecord) : Value :=
  .table [("x", .float s.x), ("y", .float s.y), ("width", .float s.width), ("height", .float s.height)]

def decode (v : Value) : Option ShapeRecord := do
  let t ← v.record? order
  return {
    x := ← Table.required t "x" Value.number?
    y := ← Table.required t "y" Value.number?
    width := ← Table.required t "width" Value.number?
    height := ← Table.required t "height" Value.number? }

end ShapeRecord

namespace EntityRecord

def order : List String := ["key", "kind", "title", "members", "package", "bounds"]

def encode (e : EntityRecord) : Value :=
  .table
    ([("key", .string e.key), ("kind", .string e.kind.keyword), ("title", .string e.title),
        ("members", .array (e.members.map MemberRecord.encode))] ++
      (e.package.map fun key => ("package", .string key)).toList ++
      (e.bounds.map fun shape => ("bounds", shape.encode)).toList)

def decode (v : Value) : Option EntityRecord := do
  let t ← v.record? order
  return {
    key := ← Table.required t "key" Value.string?
    kind := ← Table.required t "kind" fun v => v.word?.bind EntityKind.ofKeyword?
    title := ← Table.required t "title" Value.string?
    members := ← Table.optional t "members" [] fun v => v.array?.bind (·.mapM MemberRecord.decode)
    package := ← Table.optional t "package" none fun v => v.string?.map some
    bounds := ← Table.optional t "bounds" none fun v => (ShapeRecord.decode v).map some }

end EntityRecord

namespace RelationshipRecord

def order : List String :=
  ["source", "target", "kind", "source_multiplicity", "target_multiplicity", "label"]

def encode (r : RelationshipRecord) : Value :=
  .table
    [("source", .string r.source), ("target", .string r.target), ("kind", .string r.kind.keyword),
      ("source_multiplicity", .string r.sourceMultiplicity),
      ("target_multiplicity", .string r.targetMultiplicity), ("label", .string r.label)]

def decode (v : Value) : Option RelationshipRecord := do
  let t ← v.record? order
  return {
    source := ← Table.required t "source" Value.string?
    target := ← Table.required t "target" Value.string?
    kind := ← Table.optional t "kind" .association fun v => v.word?.bind RelationshipKind.ofKeyword?
    sourceMultiplicity := ← Table.optional t "source_multiplicity" "" Value.string?
    targetMultiplicity := ← Table.optional t "target_multiplicity" "" Value.string?
    label := ← Table.optional t "label" "" Value.string? }

end RelationshipRecord

namespace Project

def encode (p : Project) : Table :=
  [("name", .string p.name), ("entities", .array (p.entities.map EntityRecord.encode)),
    ("relationships", .array (p.relationships.map RelationshipRecord.encode))]

def order : List String := ["name", "entities", "relationships"]

def decode (t : Table) : Option Project := do
  let t ← t.knowing? order
  return {
    name := ← Table.required t "name" Value.string?
    entities := ← Table.optional t "entities" [] fun v => v.array?.bind (·.mapM EntityRecord.decode)
    relationships :=
      ← Table.optional t "relationships" [] fun v => v.array?.bind (·.mapM RelationshipRecord.decode) }

def write (p : Project) : String := Toml.write p.encode

def read (source : String) : Except DiagramError Project :=
  match (Toml.parse source).bind decode with
  | some project => .ok project
  | none => .error (.project .malformed)

end Project

end ClassDiagram
