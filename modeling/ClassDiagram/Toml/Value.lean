/-! TOML values. Floats are kept in binary32, the precision of every measure in a diagram. -/

namespace ClassDiagram.Toml

inductive Value where
  | string (text : String)
  | integer (n : Int)
  | float (x : Float32)
  /-- A numeral that stands for no number that can be held. It does no harm where nobody asks. -/
  | unreadable
  | boolean (b : Bool)
  | dateTime (text : String)
  | array (items : List Value)
  | table (entries : List (String × Value))
  deriving Repr

abbrev Table := List (String × Value)

def isBare (c : Char) : Bool := c.isAlphanum || c == '_' || c == '-'

def isControl (c : Char) : Bool := (c.toNat < 0x20 && c != '\t') || c.toNat == 0x7F

def isWord (n : Int) : Bool := -0x8000000000000000 ≤ n && n ≤ 0xffffffffffffffff

namespace Value

mutual

def everywhere (holds : Value → Bool) : Value → Bool
  | array items => everyItem holds items
  | table entries => everyEntry holds entries
  | value => holds value

def everyItem (holds : Value → Bool) : List Value → Bool
  | [] => true
  | value :: rest => value.everywhere holds && everyItem holds rest

def everyEntry (holds : Value → Bool) : List (String × Value) → Bool
  | [] => true
  | (_, value) :: rest => value.everywhere holds && everyEntry holds rest

end

/-- A value that is ignored still has to be read. -/
def isReadable : Value → Bool :=
  everywhere fun
    | unreadable => false
    | _ => true

/-- A value that is kept before its meaning is known has no integers beyond sixty-four bits. -/
def isKeepable : Value → Bool :=
  everywhere fun
    | unreadable => false
    | integer n => isWord n
    | _ => true

def string? : Value → Option String
  | string text => some text
  | _ => none

def boolean? : Value → Option Bool
  | boolean b => some b
  | _ => none

def number? : Value → Option Float32
  | integer n =>
    if !isWord n then none
    else if n < 0 then some (Int64.ofInt n).toFloat32
    else some (UInt64.ofNat n.toNat).toFloat32
  | float x => some x
  | _ => none

def array? : Value → Option (List Value)
  | array items => some items
  | _ => none

def isTable : Value → Bool
  | table _ => true
  | _ => false

end Value

namespace Table

def knowing? (known : List String) (t : Table) : Option Table :=
  if t.all fun entry => known.contains entry.1 || entry.2.isReadable then some t else none

def required {β : Type} (t : Table) (key : String) (decode : Value → Option β) : Option β :=
  (t.lookup key).bind decode

def optional {β : Type} (t : Table) (key : String) (default : β) (decode : Value → Option β) :
    Option β :=
  match t.lookup key with
  | none => some default
  | some value => decode value

end Table

namespace Value

/-- The entries of a record whose fields have the given order. A record may also be written as an
array of its fields; nobody asks for surplus ones. A date-time counts as a record without known
fields. -/
def record? (order : List String) : Value → Option Table
  | table entries => Table.knowing? order entries
  | array items => some (order.zip items)
  | dateTime _ => some []
  | _ => none

/-- The word of an enumeration, or a table whose one key is the word and whose value is empty. -/
def word? : Value → Option String
  | string text => some text
  | table [(word, table [])] => some word
  | table [(word, array [])] => some word
  | _ => none

end Value

end ClassDiagram.Toml
