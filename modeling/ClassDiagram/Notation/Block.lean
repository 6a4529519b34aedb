import ClassDiagram.Notation.Reader

/-! Blocks of member notation, one declaration to a line. Every malformed line is reported, at
positions that count from the start of the block. -/

namespace ClassDiagram.Notation

def dropReturn (line : List Char) : List Char :=
  if line.getLast? = some '\r' then line.dropLast else line

/-- Blank lines and lines that start with two slashes say nothing. -/
def isSilent (line : List Char) : Bool :=
  match Text.trimStart line with
  | [] => true
  | '/' :: '/' :: _ => true
  | _ => false

def readLine (line : List Char) : Option (Except Diagnostic Member) :=
  let line := dropReturn line
  if isSilent line then none else some (readMember line)

structure Reading where
  members : List Member := []
  diagnostics : List Diagnostic := []
  deriving DecidableEq, Repr

def readLines (offset : Nat) : List (List Char) → Reading
  | [] => {}
  | line :: lines =>
    let rest := readLines (offset + Text.byteSize line + 1) lines
    match readLine line with
    | none => rest
    | some (.ok member) => { rest with members := member :: rest.members }
    | some (.error d) => { rest with diagnostics := d.shift offset :: rest.diagnostics }

def parseMembers (source : String) : Except ParseError (List Member) :=
  let reading := readLines 0 (Text.splitAt '\n' source.toList)
  if reading.diagnostics.isEmpty then .ok reading.members else .error ⟨reading.diagnostics⟩

end ClassDiagram.Notation
