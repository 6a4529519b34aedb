import ClassDiagram.DiagramError

/-! Errors as they are shown to a user. Each diagnostic of a notation error is a report of its
own, with the notation as its source; every other error is one report. -/

namespace ClassDiagram.CommandLine

structure Label where
  text : String
  offset : Nat
  length : Nat
  primary : Bool := true
  deriving DecidableEq, Repr

structure Report where
  message : String
  code : String
  help : Option String := none
  source : Option String := none
  labels : Option (List Label) := none
  deriving DecidableEq, Repr

namespace Report

def ofDiagnostic (source : String) (d : Notation.Diagnostic) : Report where
  message := d.message
  code := d.code.text
  help := d.help
  source := some source
  labels := some [{ text := d.code.label, offset := d.span.start, length := d.span.length }]

def plain (error : DiagramError) (code : String) : Report := { message := error.message, code }

def all : DiagramError → List Report
  | .parse error source => error.diagnostics.map (ofDiagnostic source)
  | .files => [plain .files "umbra::io"]
  | .model error => [plain (.model error) "umbra::model"]
  | .route error =>
    [{ plain (.route error) "umbra::route" with
        help := some "give every entity a `bounds` table with a positive width and height" }]
  | .settings fault => [plain (.settings fault) "umbra::config"]
  | .project fault => [plain (.project fault) "umbra::project"]

end Report

end ClassDiagram.CommandLine
