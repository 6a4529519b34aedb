import ClassDiagram.Decimal.Number
import ClassDiagram.Toml.Quoted

/-!
Writing TOML documents. The plain entries of a table come first. Tables, and arrays of nothing
but tables, follow as blocks of their own, each under a header.
-/

namespace ClassDiagram.Toml

def floatStyle : Decimal.Style := ⟨".0", "nan"⟩

def keyText (key : String) : String :=
  if !key.isEmpty && key.toList.all isBare then key else Quoted.text key

namespace Value

def isBlock : Value → Bool
  | table _ => true
  | array items => !items.isEmpty && items.all isTable
  | _ => false

mutual

def text : Value → String
  | string text => Quoted.text text
  | integer n => toString n
  | float x => Decimal.text floatStyle x
  | unreadable => ""
  | boolean b => if b then "true" else "false"
  | dateTime text => text
  | array items => "[" ++ ", ".intercalate (texts items) ++ "]"
  | table [] => "\x7b\x7d"
  | table entries => "\x7b " ++ ", ".intercalate (fieldTexts entries) ++ " \x7d"

def texts : List Value → List String
  | [] => []
  | value :: rest => value.text :: texts rest

def fieldTexts : Table → List String
  | [] => []
  | (key, value) :: rest => (keyText key ++ " = " ++ value.text) :: fieldTexts rest

end

end Value

def assignments (t : Table) : List String :=
  (t.filter (!·.2.isBlock)).map fun entry => keyText entry.1 ++ " = " ++ entry.2.text

def pathText (path : List String) : String := ".".intercalate (path.map keyText)

mutual

def blocks (path : List String) : Table → List (List String)
  | [] => []
  | (key, .table entries) :: rest =>
    (("[" ++ pathText (path ++ [key]) ++ "]") :: assignments entries) ::
      (blocks (path ++ [key]) entries ++ blocks path rest)
  | (key, .array items) :: rest =>
    (if (Value.array items).isBlock then itemBlocks (path ++ [key]) items else []) ++
      blocks path rest
  | _ :: rest => blocks path rest

def itemBlocks (path : List String) : List Value → List (List String)
  | [] => []
  | .table entries :: rest =>
    (("[[" ++ pathText path ++ "]]") :: assignments entries) ::
      (blocks path entries ++ itemBlocks path rest)
  | _ :: rest => itemBlocks path rest

end

/-- The document of a table. A blank line stands before each header but at the very start. -/
def write (t : Table) : String :=
  let sections := (assignments t :: blocks [] t).filter (!·.isEmpty)
  "\n".intercalate (sections.map fun lines => String.join (lines.map (· ++ "\n")))

end ClassDiagram.Toml
