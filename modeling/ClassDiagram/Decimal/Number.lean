import ClassDiagram.Decimal.Shortest

/-! The text of a binary32 number: the shortest digits that read back, written out in full without
an exponent. -/

namespace ClassDiagram.Decimal

inductive Reading where
  | notANumber
  | infinite (negative : Bool)
  | zero (negative : Bool)
  | finite (negative : Bool) (magnitude : Binary)
  deriving DecidableEq, Repr

def Reading.ofBits (bits : Nat) : Reading :=
  let negative := bits / 0x80000000 % 2 == 1
  let biased : Nat := bits / 0x800000 % 0x100
  let fraction : Nat := bits % 0x800000
  if biased = 255 then if fraction = 0 then .infinite negative else .notANumber
  else if biased = 0 then
    if fraction = 0 then .zero negative else .finite negative ⟨fraction, -149, false⟩
  else .finite negative ⟨0x800000 + fraction, (biased : Int) - 150, fraction == 0 && biased != 1⟩

/-- The digits with a point in their place, and zeros where there are no digits. -/
def Digits.positional (d : Digits) : List Char :=
  let written := Nat.toDigits 10 d.digits
  if 0 ≤ d.exponent then written ++ List.replicate d.exponent.toNat '0'
  else
    let places := (-d.exponent).toNat
    if written.length ≤ places then
      '0' :: '.' :: (List.replicate (places - written.length) '0' ++ written)
    else written.take (written.length - places) ++ '.' :: written.drop (written.length - places)

structure Style where
  wholeEnding : String
  notANumber : String

def plain : Style := ⟨"", "NaN"⟩

def sign (negative : Bool) : String := if negative then "-" else ""

def Reading.text (style : Style) : Reading → String
  | .notANumber => style.notANumber
  | .infinite negative => sign negative ++ "inf"
  | .zero negative => sign negative ++ "0" ++ style.wholeEnding
  | .finite negative magnitude =>
    let digits := magnitude.shortest
    sign negative ++ String.ofList digits.positional ++
      if 0 ≤ digits.exponent then style.wholeEnding else ""

def text (style : Style) (x : Float32) : String := (Reading.ofBits x.toBits.toNat).text style

end ClassDiagram.Decimal
