import ClassDiagram.CommandLine.Arguments
import ClassDiagram.CommandLine.Files
import ClassDiagram.Project.Output

/-!
A run of the command: find the settings, read and replay the project, deliver the declarations,
and draw the preview if it is asked for.

All reading comes before the first writing. So a run is planned from what can be read, and the
plan is carried out afterwards.
-/

namespace ClassDiagram.CommandLine

structure Source where
  hasPath : String → Bool
  readText? : String → Option String

/-- The settings of the place where the command runs come before those of the user. -/
def localSettings : String := "umbra/config.toml"

def userSettings (home : String) : String := home ++ "/umbra/config.toml"

def readSettings (source : Source) (path : String) : Except DiagramError Settings :=
  if source.hasPath path then
    match source.readText? path with
    | some text => Settings.read text
    | none => .error .files
  else .error (.settings (.missingFile path))

def findSettings (source : Source) (home : Option String) (given : Option String) :
    Except DiagramError Settings :=
  match given with
  | some path => readSettings source path
  | none =>
    match (localSettings :: (home.map userSettings).toList).find? source.hasPath with
    | some path => readSettings source path
    | none => .ok {}

/-- The outputs of a run. The preview may fail, but only once the declarations are delivered. -/
structure Plan where
  declarations : String
  output : Option String
  preview : Option (String × Except DiagramError String)

def plan (source : Source) (home : Option String) (arguments : Arguments) :
    Except DiagramError Plan := do
  let settings ← findSettings source home arguments.config
  let text ←
    match source.readText? arguments.input with
    | some text => pure text
    | none => throw .files
  let project ← LoadedProject.parse text
  return {
    declarations := project.generate settings ++ "\n"
    output := arguments.output
    preview := arguments.svg.map fun path => (path, project.preview settings) }

structure Outcome where
  result : Except DiagramError Unit
  printed : String
  files : Files

def Files.source (files : Files) : Source := ⟨files.hasPath, files.readText?⟩

def Plan.drawPreview (p : Plan) (printed : String) (files : Files) : Outcome :=
  match p.preview with
  | none => ⟨.ok (), printed, files⟩
  | some (_, .error e) => ⟨.error e, printed, files⟩
  | some (path, .ok svg) =>
    match files.write? path svg with
    | some files => ⟨.ok (), printed, files⟩
    | none => ⟨.error .files, printed, files⟩

def Plan.execute (p : Plan) (files : Files) : Outcome :=
  match p.output with
  | none => p.drawPreview p.declarations files
  | some path =>
    match files.write? path p.declarations with
    | some files => p.drawPreview "" files
    | none => ⟨.error .files, "", files⟩

def run (home : Option String) (arguments : Arguments) (files : Files) : Outcome :=
  match plan files.source home arguments with
  | .error e => ⟨.error e, "", files⟩
  | .ok p => p.execute files

end ClassDiagram.CommandLine
