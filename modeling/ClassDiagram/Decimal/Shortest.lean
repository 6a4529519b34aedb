/-!
The shortest decimal that reads back as a given binary number.

A positive binary number is `significand * 2 ^ exponent`. Every real closer to it than to its
neighbours reads back as it, and so do the two midpoints when the significand is even. On a grid
of multiples of a power of ten, if any point lies in that interval then one of the two points
around the number does, so it is enough to look at those two.
-/

namespace ClassDiagram.Decimal

structure Binary where
  significand : Nat
  exponent : Int
  -- At a power of two the neighbour below is only half as far away as the one above.
  narrowBelow : Bool := false
  deriving DecidableEq, Repr

structure Digits where
  digits : Nat
  exponent : Int
  deriving DecidableEq, Repr

/-- The reals that read back as a binary number, in units of `1 / scale`. -/
structure Interval where
  low : Nat
  value : Nat
  high : Nat
  closed : Bool
  scale : Nat
  deriving Repr

def Binary.interval (b : Binary) : Interval :=
  let quarter := b.exponent - 2
  let up := Nat.pow 2 quarter.toNat
  { low := (4 * b.significand - if b.narrowBelow then 1 else 2) * up
    value := 4 * b.significand * up
    high := (4 * b.significand + 2) * up
    closed := b.significand % 2 == 0
    scale := Nat.pow 2 (-quarter).toNat }

namespace Interval

def holds (i : Interval) (place : Int) (count : Nat) : Bool :=
  let point := count * Nat.pow 10 place.toNat * i.scale
  let shrink := Nat.pow 10 (-place).toNat
  if i.closed then i.low * shrink ≤ point && point ≤ i.high * shrink
  else i.low * shrink < point && point < i.high * shrink

def floor (i : Interval) (place : Int) : Nat :=
  i.value * Nat.pow 10 (-place).toNat / (i.scale * Nat.pow 10 place.toNat)

def upperHalf (i : Interval) (place : Int) (count : Nat) : Bool :=
  (2 * count + 1) * Nat.pow 10 place.toNat * i.scale ≤ 2 * i.value * Nat.pow 10 (-place).toNat

/-- The point of the grid of `10 ^ place` that reads back and is nearest, if there is one. Halfway
between two such points the upper one is taken. -/
def nearest? (i : Interval) (place : Int) : Option Digits :=
  let below := i.floor place
  match i.holds place below, i.holds place (below + 1) with
  | true, true => some ⟨if i.upperHalf place below then below + 1 else below, place⟩
  | true, false => some ⟨below, place⟩
  | false, true => some ⟨below + 1, place⟩
  | false, false => none

end Interval

def search (i : Interval) : Nat → Int → Option Digits
  | 0, _ => none
  | count + 1, place => i.nearest? place <|> search i count (place - 1)

-- Numbers of binary32 lie between `10 ^ -46` and `10 ^ 39`, and nine digits tell two of them apart.
def topPlace : Int := 39

def gridCount : Nat := 95

def Binary.shortest (b : Binary) : Digits :=
  (search b.interval gridCount topPlace).getD ⟨b.significand, 0⟩

end ClassDiagram.Decimal
