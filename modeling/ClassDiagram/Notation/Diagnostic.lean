import ClassDiagram.Text.Blank

/-! What is wrong with a piece of member notation, and where. Positions count bytes of UTF-8. -/

namespace ClassDiagram.Notation

structure Span where
  start : Nat
  stop : Nat
  deriving DecidableEq, Repr

namespace Span

/-- The span between two positions; it is empty when they are out of order. -/
def between (start stop : Nat) : Span := ⟨start, max stop start⟩

def length (s : Span) : Nat := s.stop - s.start

def isEmpty (s : Span) : Bool := s.start == s.stop

def shift (offset : Nat) (s : Span) : Span := ⟨s.start + offset, s.stop + offset⟩

end Span

inductive Code where
  | missingVisibility
  | missingName
  | unclosedParameters
  | missingSeparator
  | missingType
  | unexpectedInput
  | rejectedMember
  deriving DecidableEq, Repr

namespace Code

def all : List Code :=
  [.missingVisibility, .missingName, .unclosedParameters, .missingSeparator, .missingType,
    .unexpectedInput, .rejectedMember]

def text : Code → String
  | .missingVisibility => "E001"
  | .missingName => "E002"
  | .unclosedParameters => "E003"
  | .missingSeparator => "E004"
  | .missingType => "E005"
  | .unexpectedInput => "E006"
  | .rejectedMember => "E100"

def label : Code → String
  | .missingVisibility => "missing visibility"
  | .missingName => "missing name"
  | .unclosedParameters => "unclosed parameter list"
  | .missingSeparator => "missing type separator"
  | .missingType => "missing type"
  | .unexpectedInput => "unexpected input"
  | .rejectedMember => "rejected member"

def ofText? (word : String) : Option Code := all.find? (·.text == word)

end Code

structure Diagnostic where
  code : Code
  message : String
  span : Span := ⟨0, 0⟩
  help : Option String := none
  deriving DecidableEq, Repr

namespace Diagnostic

def text (d : Diagnostic) : String := "error[" ++ d.code.text ++ "]: " ++ d.message

def shift (offset : Nat) (d : Diagnostic) : Diagnostic := { d with span := d.span.shift offset }

end Diagnostic

structure ParseError where
  diagnostics : List Diagnostic
  deriving DecidableEq, Repr

namespace ParseError

def shift (offset : Nat) (e : ParseError) : ParseError :=
  ⟨e.diagnostics.map (Diagnostic.shift offset)⟩

def message (e : ParseError) : String :=
  match e.diagnostics with
  | [] => ""
  | [only] => only.text
  | first :: more => first.text ++ " (+" ++ toString more.length ++ " more)"

end ParseError

end ClassDiagram.Notation
