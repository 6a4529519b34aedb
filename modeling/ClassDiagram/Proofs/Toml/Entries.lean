import ClassDiagram.Proofs.Lists
import ClassDiagram.Toml.Reader

/-! Documents under construction. What is written in one go only ever adds to the table that is
open, and that table is the last thing in the tables around it. -/

namespace ClassDiagram.Toml

namespace Entries

variable {key : String} {node old : Node} {entries : Entries}

theorem lookup_new (new : key ∉ entries.map (·.1)) : entries.lookup key = none :=
  lookup_eq_none_of_not_mem new

theorem set_new (new : key ∉ entries.map (·.1)) :
    entries.set key node = entries ++ [(key, node)] := by
  induction entries with
  | nil => rfl
  | cons entry rest ih =>
      rw [List.map_cons, List.mem_cons, not_or] at new
      rw [set, if_neg (Ne.symm new.1), ih new.2, List.cons_append]

theorem lookup_last (new : key ∉ entries.map (·.1)) :
    (entries ++ [(key, node)]).lookup key = some node := by
  rw [List.lookup_append, lookup_new new]
  simp

theorem set_last (new : key ∉ entries.map (·.1)) :
    Entries.set key node (entries ++ [(key, old)]) = entries ++ [(key, node)] := by
  induction entries with
  | nil => simp [set]
  | cons entry rest ih =>
      rw [List.map_cons, List.mem_cons, not_or] at new
      rw [List.cons_append, set, if_neg (Ne.symm new.1), ih new.2, List.cons_append]

theorem assign?_new {value : Value} (new : key ∉ entries.map (·.1)) :
    assign? ⟨[], key⟩ value entries = some (entries ++ [(key, .closed value)]) := by
  rw [assign?, at?, define?, lookup_new new, set_new new]

end Entries

theorem entryValues_eq (entries : Entries) :
    entryValues entries = entries.map fun entry => (entry.1, entry.2.value) := by
  induction entries with
  | nil => rfl
  | cons entry rest ih => rw [entryValues, ih, List.map_cons]

theorem entryValues_append (front back : Entries) :
    entryValues (front ++ back) = entryValues front ++ entryValues back := by
  simp only [entryValues_eq, List.map_append]

inductive Wrap where
  | table (origin : Origin)
  | tables (done : List Value)

def Wrap.node : Wrap → Entries → Node
  | .table origin => .table origin
  | .tables done => .tables done

/-- What is around the open table in the table next to it: the entries before it, and its key. -/
structure Frame where
  before : Entries
  key : String
  wrap : Wrap

abbrev Zipper := List Frame

namespace Zipper

def path (zipper : Zipper) : List String := zipper.map (·.key)

def plug : Zipper → Entries → Entries
  | [], entries => entries
  | frame :: rest, entries => frame.before ++ [(frame.key, frame.wrap.node (plug rest entries))]

def IsFresh (zipper : Zipper) : Prop := ∀ frame ∈ zipper, frame.key ∉ frame.before.map (·.1)

theorem plug_concat (zipper : Zipper) (frame : Frame) (entries : Entries) :
    plug (zipper ++ [frame]) entries =
      plug zipper (frame.before ++ [(frame.key, frame.wrap.node entries)]) := by
  induction zipper with
  | nil => rfl
  | cons first rest ih => rw [List.cons_append, plug, plug, ih]

/-- A change at the end of the path changes the open table. -/
theorem at?_plug {zipper : Zipper} (fresh : zipper.IsFresh) (change : Entries → Option Entries)
    (entries : Entries) :
    Entries.at? false change zipper.path (zipper.plug entries) =
      (change entries).map zipper.plug := by
  induction zipper with
  | nil =>
      rw [path, List.map_nil, Entries.at?]
      exact Option.map_id'.symm
  | cons frame rest ih =>
      obtain ⟨new, later⟩ := List.forall_mem_cons.mp fresh
      obtain ⟨before, key, wrap⟩ := frame
      have inner := ih later
      have step : ∀ node, Entries.set key node (before ++ [(key, wrap.node (plug rest entries))]) =
          before ++ [(key, node)] := fun node => Entries.set_last new
      rw [path, List.map_cons, plug, Entries.at?, Entries.lookup_last new]
      cases wrap with
      | table origin =>
          simp only [Wrap.node, path] at inner step ⊢
          rw [if_neg (by simp), inner]
          cases change entries with
          | none => rfl
          | some changed => exact congrArg some (step _)
      | tables done =>
          simp only [Wrap.node, path] at inner step ⊢
          rw [if_neg (by simp), inner]
          cases change entries with
          | none => rfl
          | some changed => exact congrArg some (step _)

end Zipper

end ClassDiagram.Toml
