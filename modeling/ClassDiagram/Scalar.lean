/-!
Numbers that shapes and connectors are measured in. The geometry is written once over `Scalar`:
it runs on binary32, where every operation rounds, and it can be read over exact numbers as well.
-/

namespace ClassDiagram

class Scalar (α : Type) extends Add α, Sub α, Mul α, Div α, Neg α, LT α, LE α, BEq α where
  decLt : DecidableLT α
  decLe : DecidableLE α
  ofNat : Nat → α
  isFinite : α → Bool

instance Scalar.decidableLT {α : Type} [Scalar α] : DecidableLT α := Scalar.decLt

instance Scalar.decidableLE {α : Type} [Scalar α] : DecidableLE α := Scalar.decLe

namespace Scalar

variable {α : Type} [Scalar α]

def zero : α := ofNat 0

def one : α := ofNat 1

def half (x : α) : α := x / ofNat 2

def magnitude (x : α) : α := if x < zero then -x else x

/-- The smaller of two numbers, and of equal ones the second. A value that equals nothing, not even
itself, gives way. -/
def least (a b : α) : α := if a < b then a else if b == b then b else a

def greatest (a b : α) : α := if b < a then a else if b == b then b else a

def clamp (low high x : α) : α :=
  if x < low then low else if high < x then high else x

end Scalar

class Angular (α : Type) where
  sine : α → α
  cosine : α → α
  /-- The direction of the vector whose first coordinate is the second argument. -/
  arctangent : α → α → α

instance : Scalar Float32 where
  decLt := Float32.decLt
  decLe := Float32.decLe
  ofNat := Float32.ofNat
  isFinite := Float32.isFinite

instance : Angular Float32 where
  sine := Float32.sin
  cosine := Float32.cos
  arctangent := Float32.atan2

end ClassDiagram
