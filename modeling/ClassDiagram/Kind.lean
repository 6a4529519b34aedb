import ClassDiagram.Text.Blank

/-! The closed vocabularies of a class diagram and the words they are written with. -/

namespace ClassDiagram

inductive EntityKind where
  | plainClass
  | interface
  | package
  deriving DecidableEq, Repr

namespace EntityKind

def all : List EntityKind := [.plainClass, .interface, .package]

def keyword : EntityKind → String
  | .plainClass => "class"
  | .interface => "interface"
  | .package => "package"

/-- Classes and interfaces own members; packages own nested entities. -/
def holdsMembers (kind : EntityKind) : Bool := kind != .package

def ofKeyword? (word : String) : Option EntityKind := all.find? (·.keyword == word)

end EntityKind

inductive RelationshipKind where
  | association
  | aggregation
  | composition
  | inheritance
  deriving DecidableEq, Repr

namespace RelationshipKind

def all : List RelationshipKind := [.association, .aggregation, .composition, .inheritance]

def name : RelationshipKind → String
  | .association => "Association"
  | .aggregation => "Aggregation"
  | .composition => "Composition"
  | .inheritance => "Inheritance"

def keyword : RelationshipKind → String
  | .association => "association"
  | .aggregation => "aggregation"
  | .composition => "composition"
  | .inheritance => "inheritance"

def ofKeyword? (word : String) : Option RelationshipKind := all.find? (·.keyword == word)

/-- A name typed by a user counts in any mixture of upper and lower case. -/
def ofName? (word : String) : Option RelationshipKind :=
  all.find? fun kind => Text.sameLetters kind.name word

end RelationshipKind

inductive Visibility where
  | pub
  | priv
  | prot
  deriving DecidableEq, Repr

namespace Visibility

def all : List Visibility := [.pub, .priv, .prot]

def keyword : Visibility → String
  | .pub => "public"
  | .priv => "private"
  | .prot => "protected"

def marker : Visibility → Char
  | .pub => '+'
  | .priv => '-'
  | .prot => '#'

def ofKeyword? (word : String) : Option Visibility := all.find? (·.keyword == word)

end Visibility

end ClassDiagram
