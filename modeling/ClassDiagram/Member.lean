import ClassDiagram.ModelError

/-! Attributes and operations. The name and the type of a member are filled texts, which is part
of what a member is: `Member.make` and the setters refuse any others. -/

namespace ClassDiagram

inductive MemberKind where
  | attribute
  | operation
  deriving DecidableEq, Repr

def MemberKind.typeField : MemberKind → Field
  | .attribute => .dataType
  | .operation => .returnType

structure Member where
  kind : MemberKind
  visibility : Visibility
  name : String
  typeName : String
  name_filled : Text.IsFilled name
  type_filled : Text.IsFilled typeName
  deriving DecidableEq, Repr

namespace Member

def make (kind : MemberKind) (visibility : Visibility) (name typeName : String) :
    Except ModelError Member := do
  let ⟨name, name_filled⟩ ← Field.name.require name
  let ⟨typeName, type_filled⟩ ← kind.typeField.require typeName
  return { kind, visibility, name, typeName, name_filled, type_filled }

def isOperation (m : Member) : Bool := m.kind == .operation

def typeField (m : Member) : Field := m.kind.typeField

def setVisibility (m : Member) (word : String) : Except ModelError Member := do
  let visibility ← Visibility.parse word
  return { m with visibility }

def rename (m : Member) (name : String) : Except ModelError Member := do
  let ⟨name, name_filled⟩ ← Field.name.require name
  return { m with name, name_filled }

def setType (m : Member) (typeName : String) : Except ModelError Member := do
  let ⟨typeName, type_filled⟩ ← m.typeField.require typeName
  return { m with typeName, type_filled }

def written (m : Member) : List Char :=
  m.visibility.marker :: ' ' :: m.name.toList ++
    (if m.isOperation then ['(', ')'] else []) ++ ':' :: ' ' :: m.typeName.toList

/-- The member in notation: `+ name: Type`, or `+ name(): Type` for an operation. -/
def text (m : Member) : String := String.ofList m.written

end Member

end ClassDiagram
