import ClassDiagram.Toml.Literal

/-!
Reading TOML documents.

While a document is read its tables are kept as nodes, which remember how they came to be: a
table may be opened by a header once, tables on the way to it may be opened later, and a table
that a dotted key made or went through is not opened any more. Values are closed from the start.
-/

namespace ClassDiagram.Toml

inductive Origin where
  | header
  | passage
  | dotted
  deriving DecidableEq, Repr

/-- A part of a document under construction. In an array of tables the last one is open. -/
inductive Node where
  | closed (value : Value)
  | table (origin : Origin) (entries : List (String × Node))
  | tables (done : List Value) (current : List (String × Node))

abbrev Entries := List (String × Node)

mutual

def Node.value : Node → Value
  | .closed value => value
  | .table _ entries => .table (entryValues entries)
  | .tables done current => .array (done ++ [.table (entryValues current)])

def entryValues : Entries → Table
  | [] => []
  | (key, node) :: rest => (key, node.value) :: entryValues rest

end

namespace Entries

def set (key : String) (node : Node) : Entries → Entries
  | [] => [(key, node)]
  | (k, old) :: rest => if k = key then (k, node) :: rest else (k, old) :: set key node rest

/-- Changes the table at the end of a path, and makes the tables that are missing on the way.
Dotted keys do not go through a table that a header opened. They go through an array of tables,
but do not change its open table itself. -/
def at? (dotted : Bool) (change : Entries → Option Entries) : List String → Entries → Option Entries
  | [], entries => change entries
  | key :: path, entries =>
    match entries.lookup key with
    | none => do
      let inner ← at? dotted change path []
      return entries.set key (.table (if dotted then .dotted else .passage) inner)
    | some (.table origin inner) =>
      if dotted && origin = .header then none
      else do
        let inner ← at? dotted change path inner
        return entries.set key (.table (if dotted then .dotted else origin) inner)
    | some (.tables done current) =>
      if dotted && path.isEmpty then none
      else do
        let current ← at? dotted change path current
        return entries.set key (.tables done current)
    | some (.closed _) => none

def define? (key : String) (value : Value) (entries : Entries) : Option Entries :=
  match entries.lookup key with
  | none => some (entries.set key (.closed value))
  | some _ => none

def open? (key : String) (entries : Entries) : Option Entries :=
  match entries.lookup key with
  | none => some (entries.set key (.table .header []))
  | some (.table .passage inner) => some (entries.set key (.table .header inner))
  | some _ => none

def openNext? (key : String) (entries : Entries) : Option Entries :=
  match entries.lookup key with
  | none => some (entries.set key (.tables [] []))
  | some (.tables done current) =>
    some (entries.set key (.tables (done ++ [.table (entryValues current)]) []))
  | some _ => none

end Entries

structure Path where
  through : List String
  last : String
  deriving DecidableEq, Repr

def Path.all (path : Path) : List String := path.through ++ [path.last]

namespace Entries

def assign? (path : Path) (value : Value) (entries : Entries) : Option Entries :=
  entries.at? true (define? path.last value) path.through

end Entries

namespace Reader

def skipIndent (s : List Char) : List Char := s.dropWhile Quoted.isIndent

def comment? : List Char → Option (List Char)
  | [] => some []
  | '\r' :: '\n' :: rest => some ('\r' :: '\n' :: rest)
  | c :: rest =>
    if c = '\n' then some (c :: rest) else if isControl c then none else comment? rest

def trivia? (inComment : Bool) : List Char → Option (List Char)
  | [] => some []
  | '\r' :: '\n' :: rest => trivia? false rest
  | c :: rest =>
    if c = '\n' then trivia? false rest
    else if inComment then if isControl c then none else trivia? true rest
    else if Quoted.isIndent c then trivia? false rest
    else if c = '#' then trivia? true rest
    else some (c :: rest)

def lineEnd? (s : List Char) : Option (List Char) := do
  let s ←
    match skipIndent s with
    | '#' :: rest => comment? rest
    | s => some s
  match s with
  | [] => some []
  | '\n' :: rest => some rest
  | '\r' :: '\n' :: rest => some rest
  | _ => none

def key? : List Char → Option (String × List Char)
  | '"' :: rest => Quoted.readLine '"' rest
  | '\'' :: rest => Quoted.readLine '\'' rest
  | s =>
    let bare := s.takeWhile isBare
    if bare.isEmpty then none else some (String.ofList bare, s.drop bare.length)

/-- The levels of arrays and inline tables that a value may have, and the parts of a key. -/
def maxDepth : Nat := 80

def path? : Nat → List Char → Option (Path × List Char)
  | 0, _ => none
  | parts + 1, s => do
    let (key, s) ← key? (skipIndent s)
    match skipIndent s with
    | '.' :: rest =>
      let (path, rest) ← path? parts rest
      return ({ path with through := key :: path.through }, rest)
    | rest => return (⟨[], key⟩, rest)

def deeper? : Nat → Option Nat
  | 0 => none
  | levels + 1 => some levels

mutual

/-- A value of at most `levels` levels. Steps nest no deeper than the value has characters, since
an opening bracket takes two of them and has a closing one. -/
def value? : Nat → Nat → List Char → Option (Value × List Char)
  | 0, _, _ => none
  | fuel + 1, levels, s =>
    match s with
    | '"' :: rest => do
      let (text, rest) ← Quoted.read '"' rest
      return (.string text, rest)
    | '\'' :: rest => do
      let (text, rest) ← Quoted.read '\'' rest
      return (.string text, rest)
    | '[' :: rest => do
      let (items, rest) ← items? fuel (← deeper? levels) rest
      return (.array items, rest)
    | '\x7b' :: rest => do
      let (entries, rest) ← fields? fuel (← deeper? levels) [] rest
      return (.table (entryValues entries), rest)
    | s => Literal.read s

def items? : Nat → Nat → List Char → Option (List Value × List Char)
  | 0, _, _ => none
  | fuel + 1, levels, s => do
    match ← trivia? false s with
    | ']' :: rest => return ([], rest)
    | s =>
      let (value, rest) ← value? fuel levels s
      match ← trivia? false rest with
      | ',' :: rest =>
        let (values, rest) ← items? fuel levels rest
        return (value :: values, rest)
      | ']' :: rest => return ([value], rest)
      | _ => none

def fields? : Nat → Nat → Entries → List Char → Option (Entries × List Char)
  | 0, _, _, _ => none
  | fuel + 1, levels, entries, s => do
    match ← trivia? false s with
    | '\x7d' :: rest => return (entries, rest)
    | s =>
      let (path, rest) ← path? maxDepth s
      match ← trivia? false rest with
      | '=' :: rest =>
        let (value, rest) ← value? fuel levels (← trivia? false rest)
        let entries ← entries.assign? path value
        match ← trivia? false rest with
        | ',' :: rest => fields? fuel levels entries rest
        | '\x7d' :: rest => return (entries, rest)
        | _ => none
      | _ => none

end

/-- A statement: a header, or a key with its value. `opened` is the path of the open table. -/
def statement? (opened : List String) (entries : Entries) (s : List Char) :
    Option (List String × Entries × List Char) :=
  match s with
  | '[' :: '[' :: rest => do
    let (path, rest) ← path? maxDepth rest
    match rest with
    | ']' :: ']' :: rest =>
      return (path.all, ← entries.at? false (Entries.openNext? path.last) path.through, rest)
    | _ => none
  | '[' :: rest => do
    let (path, rest) ← path? maxDepth rest
    match rest with
    | ']' :: rest =>
      return (path.all, ← entries.at? false (Entries.open? path.last) path.through, rest)
    | _ => none
  | s => do
    let (path, rest) ← path? maxDepth s
    match rest with
    | '=' :: rest =>
      let (value, rest) ← value? (s.length + 1) maxDepth (skipIndent rest)
      return (opened, ← entries.at? false (Entries.assign? path value) opened, rest)
    | _ => none

def statements? : Nat → List String → Entries → List Char → Option Entries
  | 0, _, _, _ => none
  | fuel + 1, opened, entries, s => do
    match ← trivia? false s with
    | [] => return entries
    | s =>
      let (opened, entries, rest) ← statement? opened entries s
      statements? fuel opened entries (← lineEnd? rest)

def dropMark : List Char → List Char
  | '\ufeff' :: rest => rest
  | s => s

end Reader

def parse (source : String) : Option Table :=
  let s := Reader.dropMark source.toList
  (Reader.statements? (s.length + 1) [] [] s).map entryValues

end ClassDiagram.Toml
