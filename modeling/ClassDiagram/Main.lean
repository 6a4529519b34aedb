import ClassDiagram.CommandLine.Report
import ClassDiagram.CommandLine.Run

/-! The command itself: it reads what a run may need, plans the run, and carries the plan out. -/

open ClassDiagram ClassDiagram.CommandLine

def probe (path : String) : IO (Option (Option ByteArray)) := do
  try
    let _ ← IO.FS.Handle.mk path .read
  catch
    | .permissionDenied .. => return some none
    | _ => return none
  try
    return some (some (← IO.FS.readBinFile path))
  catch _ => return some none

def gather (paths : List String) : IO Source := do
  let found ← paths.mapM fun path => return (path, ← probe path)
  let at? (path : String) : Option (Option ByteArray) := (found.lookup path).join
  return {
    hasPath := fun path => (at? path).isSome
    readText? := fun path => (at? path).join.bind String.fromUTF8? }

def configHome : IO (Option String) := do
  match ← IO.getEnv "XDG_CONFIG_HOME" with
  | some home => if Path.isAbsolute home then return some home
  | none => pure ()
  return (← IO.getEnv "HOME").map (· ++ "/.config")

def attempt (action : IO Unit) : IO (Except DiagramError Unit) := do
  try
    action
    return .ok ()
  catch _ => return .error .files

def deliver (p : Plan) : IO (Except DiagramError Unit) := do
  let delivered ←
    match p.output with
    | none => IO.print p.declarations; pure (.ok ())
    | some path => attempt (IO.FS.writeFile path p.declarations)
  match delivered, p.preview with
  | .error e, _ => return .error e
  | .ok (), none => return .ok ()
  | .ok (), some (_, .error e) => return .error e
  | .ok (), some (path, .ok svg) => attempt (IO.FS.writeFile path svg)

def execute (arguments : Arguments) : IO (Except DiagramError Unit) := do
  let home ← configHome
  let settings := localSettings :: (home.map userSettings).toList ++ arguments.config.toList
  let source ← gather (arguments.input :: settings)
  match plan source home arguments with
  | .error e => return .error e
  | .ok p => deliver p

def usage : String :=
  "Usage: [OPTIONS] <INPUT>\n  -o, --output <OUTPUT>\n      --svg <SVG>\n" ++
    "  -c, --config <CONFIG>\n      --log-level <LOG_LEVEL>\n"

def main (tokens : List String) : IO UInt32 := do
  match Arguments.parse tokens with
  | .error .help => IO.print usage; return 0
  | .error .version => IO.println "0.1.0"; return 0
  | .error _ => IO.eprint usage; return 2
  | .ok arguments =>
    match ← execute arguments with
    | .ok () => return 0
    | .error e =>
      for report in Report.all e do
        IO.eprintln ("[" ++ report.code ++ "] " ++ report.message)
      return 1
