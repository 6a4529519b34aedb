import ClassDiagram.Text.Blank
import ClassDiagram.Toml.Quoted

/-!
The values that are written without quotation marks: booleans, numbers and date-times.

A numeral is read in two steps. Its shape is always checked, and a wrong one is refused. Whether
it stands for a number that can be held only matters to those who ask for that number; when it
does not, the numeral is `unreadable`.
-/

namespace ClassDiagram.Toml.Literal

/-- Digits, where an underscore may stand between two of them, without the underscores. -/
def digits? (isDigit : Char → Bool) (s : List Char) : Option (List Char) :=
  let parts := Text.splitAt '_' s
  if parts.all fun part => !part.isEmpty && part.all isDigit then some parts.flatten else none

def natural (base : Nat) (digits : List Char) : Nat :=
  digits.foldl (fun acc c => base * acc + (Quoted.hexDigit? c).getD 0) 0

def isBinaryDigit (c : Char) : Bool := c == '0' || c == '1'

def isOctalDigit (c : Char) : Bool := '0' ≤ c && c ≤ '7'

def isHexDigit (c : Char) : Bool := (Quoted.hexDigit? c).isSome

inductive Sign where
  | none
  | plus
  | minus
  deriving DecidableEq, Repr

def unsign : List Char → Sign × List Char
  | '+' :: rest => (.plus, rest)
  | '-' :: rest => (.minus, rest)
  | s => (.none, s)

def ofInteger (n : Int) : Value :=
  if -0x80000000000000000000000000000000 ≤ n && n ≤ 0xffffffffffffffffffffffffffffffff then
    .integer n
  else .unreadable

def based? (base : Nat) (isDigit : Char → Bool) (s : List Char) : Option Value :=
  if s.isEmpty then some .unreadable
  else (digits? isDigit s).map fun digits => ofInteger (natural base digits)

def areJoined : List (List Char) → Bool
  | [] => true
  | [part] => part.head?.any isHexDigit
  | part :: more =>
    part.head?.any isHexDigit && part.getLast?.any isHexDigit && areJoined more

def hasNeedlessZero (s : List Char) : Bool := s.head? == some '0' && s.length != 1

/-- A decimal integer after its sign. Behind the first underscore only the characters next to
underscores belong to the shape, but there are no blanks. -/
def decimal? (sign : Sign) (s : List Char) : Option Value :=
  match Text.splitAt '_' s with
  | [] => none
  | first :: more =>
    if first.isEmpty || !first.all Char.isDigit || !areJoined more then none
    else if hasNeedlessZero s || s.contains ' ' then none
    else
      let digits := (first :: more).flatten
      if !digits.all Char.isDigit then some .unreadable
      else if sign = .minus then some (ofInteger (-(natural 10 digits : Int)))
      else some (ofInteger (natural 10 digits))

/-- The binary64 number nearest to `digits * 10 ^ exponent`. Numbers far outside the range of the
format are told by their magnitude alone. -/
def binary64 (digits : Nat) (exponent : Int) : Float :=
  let magnitude := ((Nat.toDigits 10 digits).length : Int) + exponent
  if digits = 0 || magnitude < -400 then 0
  else if 400 < magnitude then 1 / 0
  else Float.ofScientific digits (exponent < 0) exponent.natAbs

def exponent? (s : List Char) : Option Int :=
  let (sign, s) := unsign s
  (digits? Char.isDigit s).map fun ds =>
    if sign = .minus then -(natural 10 ds : Int) else natural 10 ds

def isExponentMark (c : Char) : Bool := c == 'e' || c == 'E'

def whole? (s : List Char) : Option (List Char) :=
  if hasNeedlessZero s then none else digits? Char.isDigit s

def magnitude? (s : List Char) : Option Float := do
  let mantissa := s.takeWhile fun c => !isExponentMark c
  let marked := s.drop mantissa.length
  let whole := mantissa.takeWhile (· != '.')
  let pointed := mantissa.drop whole.length
  let whole ← whole? whole
  let fraction ← if pointed.isEmpty then some [] else digits? Char.isDigit (pointed.drop 1)
  let exponent ← if marked.isEmpty then some 0 else exponent? (marked.drop 1)
  return binary64 (natural 10 (whole ++ fraction)) (exponent - fraction.length)

open Float.Model in
def narrowed (x : Float) : Float32 :=
  .ofModel <| .pack <|
    match x.toModel.unpack with
    | .finite sign mantissa exponent _ => UnpackedFloat.round Format.binary32 sign mantissa exponent
    | other => other

def signed (sign : Sign) (x : Float) : Float32 := narrowed (if sign = .minus then -x else x)

/-- A float, read in binary64 first. Digits that overflow that format stand for no number. -/
def float? (sign : Sign) (s : List Char) : Option Value :=
  (magnitude? s).map fun x => if x.isFinite then .float (signed sign x) else .unreadable

def isFloatMark (c : Char) : Bool := c == '.' || isExponentMark c

def number? (s : List Char) : Option Value :=
  match unsign s with
  | (.none, '0' :: 'x' :: digits) => based? 16 isHexDigit digits
  | (.none, '0' :: 'o' :: digits) => based? 8 isOctalDigit digits
  | (.none, '0' :: 'b' :: digits) => based? 2 isBinaryDigit digits
  | (sign, s) =>
    if s = "inf".toList then some (.float (signed sign (1 / 0)))
    else if s = "nan".toList then some (.float (signed sign (0 / 0)))
    else if s.any isFloatMark then float? sign s
    else decimal? sign s

def fixed? (count : Nat) (s : List Char) : Option (Nat × List Char) :=
  let digits := s.take count
  if digits.length = count && digits.all Char.isDigit then
    some (natural 10 digits, s.drop count)
  else none

def mark? (c : Char) : List Char → Option (List Char)
  | d :: rest => if c = d then some rest else none
  | [] => none

def isLeap (year : Nat) : Bool := year % 4 == 0 && (year % 100 != 0 || year % 400 == 0)

def daysIn (year month : Nat) : Nat :=
  if month = 2 then if isLeap year then 29 else 28
  else if month = 4 || month = 6 || month = 9 || month = 11 then 30
  else 31

def date? (s : List Char) : Option (List Char) := do
  let (year, s) ← fixed? 4 s
  let (month, s) ← fixed? 2 (← mark? '-' s)
  let (day, s) ← fixed? 2 (← mark? '-' s)
  if 1 ≤ month && month ≤ 12 && 1 ≤ day && day ≤ daysIn year month then some s else none

def seconds? : List Char → Option (List Char)
  | ':' :: s => do
    let (second, s) ← fixed? 2 s
    if 60 < second then none
    else
      match s with
      | '.' :: s =>
        let fraction := s.takeWhile Char.isDigit
        if fraction.isEmpty then none else some (s.drop fraction.length)
      | s => some s
  | s => some s

def hourMinute? (s : List Char) : Option (List Char) := do
  let (hour, s) ← fixed? 2 s
  let (minute, s) ← fixed? 2 (← mark? ':' s)
  if hour ≤ 23 && minute ≤ 59 then some s else none

def time? (s : List Char) : Option (List Char) := do seconds? (← hourMinute? s)

def offset? : List Char → Option (List Char)
  | [] => some []
  | 'Z' :: s | 'z' :: s => some s
  | '+' :: s | '-' :: s => hourMinute? s
  | _ => none

def isDateTime (s : List Char) : Bool :=
  match date? s with
  | some [] => true
  | some (c :: rest) =>
    (c == 'T' || c == 't' || c == ' ') && ((time? rest).bind offset?) == some []
  | none => time? s == some []

def startsDateTime (s : List Char) : Bool :=
  s.head?.any Char.isDigit && (s.dropWhile Char.isDigit).head?.any fun c => c == '-' || c == ':'

def value? (s : List Char) : Option Value :=
  if s = "true".toList then some (.boolean true)
  else if s = "false".toList then some (.boolean false)
  else if startsDateTime s then
    if isDateTime s then some (.dateTime (String.ofList s)) else none
  else number? s

def isDelimiter (c : Char) : Bool :=
  Quoted.isIndent c || c == '\r' || c == '\n' || c == '#' || c == '=' || c == ',' || c == '[' ||
    c == ']' || c == '\x7b' || c == '\x7d'

/-- Whether a literal goes on after white space, as a date does with a time. -/
def goesOn (s : List Char) : Bool :=
  match s.dropWhile Quoted.isIndent with
  | [] => false
  | c :: _ => !isDelimiter c && c != '"' && c != '\'' && c != '.'

def word : List Char → List Char
  | [] => []
  | c :: rest =>
    if !isDelimiter c then c :: word rest
    else if Quoted.isIndent c && goesOn rest then c :: word rest
    else []

def read (s : List Char) : Option (Value × List Char) :=
  let word := word s
  (value? word).map fun value => (value, s.drop word.length)

end ClassDiagram.Toml.Literal
