import ClassDiagram.DiagramError
import ClassDiagram.Geometry
import ClassDiagram.Member
import ClassDiagram.Notation.Reader

/-! Projects: plain records of a model, in which entities are named by keys. -/

namespace ClassDiagram

inductive MemberRecord where
  | line (text : String)
  | fields (kind : MemberKind) (visibility : Visibility) (name typeName : String)
  deriving DecidableEq, Repr

namespace MemberRecord

/-- The notation is used exactly when it reads back as the same member. -/
def ofMember (m : Member) : MemberRecord :=
  match Notation.parseMember m.text with
  | .ok read => if read = m then .line m.text else .fields m.kind m.visibility m.name m.typeName
  | .error _ => .fields m.kind m.visibility m.name m.typeName

def toMember : MemberRecord → Except DiagramError Member
  | .line text => (Notation.parseMember text).mapError (.parse · text)
  | .fields kind visibility name typeName =>
    (Member.make kind visibility name typeName).mapError .model

end MemberRecord

structure ShapeRecord where
  x : Float32
  y : Float32
  width : Float32
  height : Float32
  deriving BEq, Repr

namespace ShapeRecord

def ofBounds (b : Bounds Float32) : ShapeRecord := ⟨b.minX, b.minY, b.width, b.height⟩

def bounds (s : ShapeRecord) : Bounds Float32 := .ofTopLeft s.x s.y s.width s.height

end ShapeRecord

structure EntityRecord where
  key : String
  kind : EntityKind
  title : String
  members : List MemberRecord := []
  package : Option String := none
  bounds : Option ShapeRecord := none
  deriving BEq, Repr

structure RelationshipRecord where
  source : String
  target : String
  kind : RelationshipKind := .association
  sourceMultiplicity : String := ""
  targetMultiplicity : String := ""
  label : String := ""
  deriving BEq, Repr

/-- Two projects with equal records are the same, where numbers are compared as numbers. -/
structure Project where
  name : String
  entities : List EntityRecord := []
  relationships : List RelationshipRecord := []
  deriving BEq, Repr

end ClassDiagram
