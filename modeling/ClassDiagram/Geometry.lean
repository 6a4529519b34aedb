import ClassDiagram.Scalar

/-! Points and rectangles. The first axis runs to the right and the second one downwards. -/

namespace ClassDiagram

open Scalar

variable {α : Type}

structure Point (α : Type) where
  x : α
  y : α
  deriving DecidableEq, Repr

namespace Point

variable [Scalar α]

def isZero (p : Point α) : Bool := p.x == zero && p.y == zero

def add (p q : Point α) : Point α := ⟨p.x + q.x, p.y + q.y⟩

def sub (p q : Point α) : Point α := ⟨p.x - q.x, p.y - q.y⟩

def lerp (p q : Point α) (t : α) : Point α := ⟨p.x + (q.x - p.x) * t, p.y + (q.y - p.y) * t⟩

/-- The point turned about the origin; positive angles turn the first axis towards the second. -/
def rotate [Angular α] (p : Point α) (angle : α) : Point α :=
  let sine := Angular.sine angle
  let cosine := Angular.cosine angle
  ⟨p.x * cosine - p.y * sine, p.x * sine + p.y * cosine⟩

end Point

structure Insets (α : Type) where
  top : α
  right : α
  bottom : α
  left : α

def Insets.uniform (distance : α) : Insets α := ⟨distance, distance, distance, distance⟩

structure Bounds (α : Type) where
  minX : α
  minY : α
  maxX : α
  maxY : α
  deriving DecidableEq, Repr

namespace Bounds

variable [Scalar α]

def ofTopLeft (x y width height : α) : Bounds α := ⟨x, y, x + width, y + height⟩

def origin : Bounds α := ⟨zero, zero, zero, zero⟩

def center (b : Bounds α) : Point α := ⟨half (b.minX + b.maxX), half (b.minY + b.maxY)⟩

def width (b : Bounds α) : α := b.maxX - b.minX

def height (b : Bounds α) : α := b.maxY - b.minY

/-- A rectangle is degenerate unless its edges are finite and its sides are positive. -/
def isDegenerate (b : Bounds α) : Bool :=
  !(isFinite b.minX && isFinite b.minY && isFinite b.maxX && isFinite b.maxY) ||
    decide (b.width ≤ zero) || decide (b.height ≤ zero)

def contains (b : Bounds α) (p : Point α) : Bool :=
  decide (b.minX ≤ p.x) && decide (p.x ≤ b.maxX) && decide (b.minY ≤ p.y) && decide (p.y ≤ b.maxY)

def onBoundary (b : Bounds α) (p : Point α) : Bool :=
  b.contains p && (p.x == b.minX || p.x == b.maxX || p.y == b.minY || p.y == b.maxY)

def isOrdered (b : Bounds α) : Bool := decide (b.minX ≤ b.maxX) && decide (b.minY ≤ b.maxY)

def clamp (b : Bounds α) (p : Point α) : Point α :=
  ⟨Scalar.clamp b.minX b.maxX p.x, Scalar.clamp b.minY b.maxY p.y⟩

def clamp? (b : Bounds α) (p : Point α) : Option (Point α) :=
  if b.isOrdered then some (b.clamp p) else none

def merge (a b : Bounds α) : Bounds α :=
  ⟨least a.minX b.minX, least a.minY b.minY, greatest a.maxX b.maxX, greatest a.maxY b.maxY⟩

def pad (b : Bounds α) (insets : Insets α) : Bounds α :=
  ⟨b.minX - insets.left, b.minY - insets.top, b.maxX + insets.right, b.maxY + insets.bottom⟩

end Bounds

end ClassDiagram
