/-! Identifiers of model elements, and the sequence they are drawn from. -/

namespace ClassDiagram

@[ext]
structure EntityId where
  number : Nat
  deriving DecidableEq, Repr

@[ext]
structure MemberId where
  number : Nat
  deriving DecidableEq, Repr

@[ext]
structure RelationshipId where
  number : Nat
  deriving DecidableEq, Repr

def EntityId.text (id : EntityId) : String := "entity#" ++ toString id.number

def MemberId.text (id : MemberId) : String := "member#" ++ toString id.number

def RelationshipId.text (id : RelationshipId) : String := "relationship#" ++ toString id.number

/-- A source of fresh numbers. It counts up from one, so later elements have larger numbers. -/
structure Sequence where
  last : Nat := 0
  deriving DecidableEq, Repr

namespace Sequence

def fresh (s : Sequence) : Nat := s.last + 1

def advance (s : Sequence) : Sequence := ⟨s.last + 1⟩

end Sequence

end ClassDiagram
