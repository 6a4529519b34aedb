import ClassDiagram.Geometry

/-! Trees of SVG elements and how they are written: one element to a line, attributes in the order
of their names. -/

namespace ClassDiagram.Svg

/-- What an attribute holds. Numbers are kept as numbers until the tree is written. -/
inductive Value (α : Type) where
  | word (text : String)
  | number (x : α)
  | numbers (xs : List α)
  | points (ps : List (Point α))
  | rotation (degrees : α) (center : Point α)
  deriving Repr

structure Attribute (α : Type) where
  name : String
  value : Value α
  deriving Repr

inductive Element (α : Type) where
  | node (tag : String) (attributes : List (Attribute α)) (children : List (Element α))
  | text (attributes : List (Attribute α)) (content : String)
  deriving Repr

def escapeContent : Char → List Char
  | '&' => "&amp;".toList
  | '<' => "&lt;".toList
  | '>' => "&gt;".toList
  | c => [c]

def escapeAttribute : Char → List Char
  | '"' => "&quot;".toList
  | '\'' => "&apos;".toList
  | c => escapeContent c

def escaped (escape : Char → List Char) (text : String) : String :=
  String.ofList (text.toList.flatMap escape)

variable {α : Type}

namespace Value

def text (number : α → String) : Value α → String
  | word text => text
  | .number x => number x
  | numbers xs => " ".intercalate (xs.map number)
  | points ps => " ".intercalate (ps.map fun p => number p.x ++ "," ++ number p.y)
  | rotation degrees center =>
    "rotate(" ++ number degrees ++ " " ++ number center.x ++ " " ++ number center.y ++ ")"

end Value

def Attribute.text (number : α → String) (a : Attribute α) : String :=
  " " ++ a.name ++ "=\"" ++ escaped escapeAttribute (a.value.text number) ++ "\""

def opening (number : α → String) (tag : String) (attributes : List (Attribute α)) : String :=
  let sorted := attributes.mergeSort fun a b => a.name ≤ b.name
  tag ++ String.join (sorted.map (Attribute.text number))

mutual

def Element.lines (number : α → String) : Element α → List String
  | .node tag attributes [] => ["<" ++ opening number tag attributes ++ "/>"]
  | .node tag attributes (child :: children) =>
    ("<" ++ opening number tag attributes ++ ">") ::
      (child.lines number ++ allLines number children ++ ["</" ++ tag ++ ">"])
  | .text attributes content =>
    ["<" ++ opening number "text" attributes ++ ">", escaped escapeContent content, "</text>"]

def allLines (number : α → String) : List (Element α) → List String
  | [] => []
  | element :: rest => element.lines number ++ allLines number rest

end

def Element.write (number : α → String) (element : Element α) : String :=
  "\n".intercalate (element.lines number)

end ClassDiagram.Svg
