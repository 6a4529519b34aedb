import ClassDiagram.Identifier
import ClassDiagram.Kind
import ClassDiagram.Text.Trim

/-! Why a model refuses a change or a query, and the wording of each refusal. -/

namespace ClassDiagram

inductive Field where
  | title
  | name
  | dataType
  | returnType
  | visibility
  | kind
  | nesting
  deriving DecidableEq, Repr

def Field.text : Field → String
  | .title => "title"
  | .name => "name"
  | .dataType => "data type"
  | .returnType => "return type"
  | .visibility => "visibility"
  | .kind => "kind"
  | .nesting => "nesting"

inductive Subject where
  | entity (id : EntityId)
  | member (owner : EntityId) (id : MemberId)
  | relationship (id : RelationshipId)
  deriving DecidableEq, Repr

def Subject.text : Subject → String
  | .entity id => id.text
  | .member owner id => id.text ++ " of " ++ owner.text
  | .relationship id => id.text

inductive Refusal where
  | blank
  | unknownVisibility (word : String)
  | unknownEntityKind (word : String)
  | unknownRelationshipKind (word : String)
  | memberless (kind : EntityKind)
  | notContainer (kind : EntityKind)
  | nestedPackage
  deriving DecidableEq, Repr

def Refusal.text : Refusal → String
  | .blank => "must not be empty"
  | .unknownVisibility word => "`" ++ word ++ "` is not one of public, private, protected"
  | .unknownEntityKind word => "unknown entity kind `" ++ word ++ "`"
  | .unknownRelationshipKind word => "unknown relationship kind `" ++ word ++ "`"
  | .memberless kind => "a " ++ kind.keyword ++ " cannot hold members"
  | .notContainer kind => "entities can only be nested in a package, not a " ++ kind.keyword
  | .nestedPackage => "packages cannot be nested"

inductive ModelError where
  | validation (field : Field) (subject : Option Subject) (refusal : Refusal)
  | notFound (missing : Subject)
  deriving DecidableEq, Repr

namespace ModelError

def message : ModelError → String
  | .validation field none refusal => "invalid " ++ field.text ++ ": " ++ refusal.text
  | .validation field (some subject) refusal =>
    "invalid " ++ field.text ++ " of " ++ subject.text ++ ": " ++ refusal.text
  | .notFound missing => missing.text ++ " does not exist"

/-- The error as one about `subject`. That something was not found stays what it was. -/
def about (subject : Subject) : ModelError → ModelError
  | .validation field _ refusal => .validation field (some subject) refusal
  | .notFound missing => .notFound missing

end ModelError

def Subject.blame {α : Type} (subject : Subject) (result : Except ModelError α) :
    Except ModelError α :=
  result.mapError (ModelError.about subject)

def Field.require (field : Field) (value : String) :
    Except ModelError { text : String // Text.IsFilled text } :=
  if left : (Text.trimmed value).isEmpty then .error (.validation field none .blank)
  else .ok ⟨Text.trimmed value, Text.isFilled_trimmed (eq_false_of_ne_true left)⟩

def EntityKind.parse (word : String) : Except ModelError EntityKind :=
  match EntityKind.ofKeyword? word with
  | some kind => .ok kind
  | none => .error (.validation .kind none (.unknownEntityKind word))

def RelationshipKind.parse (word : String) : Except ModelError RelationshipKind :=
  match RelationshipKind.ofName? word with
  | some kind => .ok kind
  | none => .error (.validation .kind none (.unknownRelationshipKind word))

def Visibility.parse (word : String) : Except ModelError Visibility :=
  match Visibility.ofKeyword? word with
  | some visibility => .ok visibility
  | none => .error (.validation .visibility none (.unknownVisibility word))

end ClassDiagram
