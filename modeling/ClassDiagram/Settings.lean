import ClassDiagram.Declaration
import ClassDiagram.DiagramError
import ClassDiagram.Route.Orthogonal
import ClassDiagram.Toml.Reader

/-! Settings of code generation and routing, and how a settings file changes them. Every setting
that a file leaves out keeps its standard value. -/

namespace ClassDiagram

open Toml

structure Settings where
  codegen : CodegenSettings := {}
  router : RouterSettings Float32 := .standard
  deriving Repr

namespace CodegenSettings

def order : List String := ["indent", "trace_relationships"]

def decode (v : Value) : Option CodegenSettings := do
  let t ← v.record? order
  return {
    indent := ← Table.optional t "indent" "  " Value.string?
    trace := ← Table.optional t "trace_relationships" true Value.boolean? }

end CodegenSettings

namespace RouterSettings

def order : List String := ["stride", "label_offset", "marker_length", "marker_width"]

def decode (v : Value) : Option (RouterSettings Float32) := do
  let t ← v.record? order
  let standard : RouterSettings Float32 := .standard
  return {
    stride := ← Table.optional t "stride" standard.stride Value.number?
    labelOffset := ← Table.optional t "label_offset" standard.labelOffset Value.number?
    markerLength := ← Table.optional t "marker_length" standard.markerLength Value.number?
    markerWidth := ← Table.optional t "marker_width" standard.markerWidth Value.number? }

end RouterSettings

namespace Settings

def order : List String := ["codegen", "router"]

def decode (t : Table) : Option Settings := do
  let t ← t.knowing? order
  return {
    codegen := ← Table.optional t "codegen" {} CodegenSettings.decode
    router := ← Table.optional t "router" .standard RouterSettings.decode }

def read (source : String) : Except DiagramError Settings :=
  match (Toml.parse source).bind decode with
  | some settings => .ok settings
  | none => .error (.settings .malformed)

end Settings

end ClassDiagram
