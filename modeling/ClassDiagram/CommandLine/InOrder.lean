import ClassDiagram.CommandLine.Run

/-! A run made access by access. Each look at a path sees the files as they are at that moment, and
each write changes them at once, so that a run which reads again after it has written would read
what it wrote. -/

namespace ClassDiagram.CommandLine

inductive Access where
  | look (path : String)
  | read (path : String)
  | write (path content : String)
  | print (text : String)
  deriving DecidableEq, Repr

namespace Access

def isInput : Access → Bool
  | .look _ | .read _ => true
  | .write .. | .print _ => false

def text? : Access → Option String
  | .look _ | .read _ => none
  | .write _ text | .print text => some text

def printed : Access → String
  | .print text => text
  | .look _ | .read _ | .write .. => ""

end Access

def Files.text (files : Files) (path : String) : Except DiagramError String :=
  match files.readText? path with
  | some text => .ok text
  | none => .error .files

structure World where
  files : Files
  printed : String := ""
  accesses : List Access := []

def World.noting (w : World) (accesses : List Access) : World :=
  { w with accesses := w.accesses ++ accesses }

abbrev InOrder (α : Type) := ExceptT DiagramError (StateM World) α

namespace InOrder

section Steps

variable {α : Type}

def outcome (part : InOrder α) (w : World) : Except DiagramError α × World := part.run.run w

/-- An access that answers from the files as they are; nothing is changed. -/
def ask (access : Access) (answer : Files → Except DiagramError α) : InOrder α :=
  ExceptT.mk fun w => (answer w.files, w.noting [access])

def look (path : String) : InOrder Bool := ask (.look path) fun files => .ok (files.hasPath path)

def read (path : String) : InOrder String := ask (.read path) (·.text path)

def write (path content : String) : InOrder Unit :=
  ExceptT.mk fun w =>
    let w := w.noting [.write path content]
    match w.files.write? path content with
    | some files => (.ok (), { w with files })
    | none => (.error .files, w)

def print (text : String) : InOrder Unit :=
  ExceptT.mk fun w => (.ok (), { w.noting [.print text] with printed := w.printed ++ text })

def settle (result : Except DiagramError α) : InOrder α := ExceptT.mk fun w => (result, w)

end Steps

def loadSettings (path : String) : InOrder Settings := do
  if ← look path then
    let text ← read path
    settle (Settings.read text)
  else
    throw (.settings (.missingFile path))

def lookUpSettings (home given : Option String) : InOrder Settings :=
  match given with
  | some path => loadSettings path
  | none => do
    if ← look localSettings then
      loadSettings localSettings
    else
      match home with
      | none => return {}
      | some home =>
        if ← look (userSettings home) then loadSettings (userSettings home) else return {}

def prepare (home : Option String) (arguments : Arguments) : InOrder (Settings × LoadedProject) := do
  let settings ← lookUpSettings home arguments.config
  let text ← read arguments.input
  let project ← settle (LoadedProject.parse text)
  return (settings, project)

def handOver (output : Option String) (text : String) : InOrder Unit :=
  match output with
  | some path => write path text
  | none => print text

/-- The preview is drawn only now, when the declarations are on their way. -/
def draw (svg : Option String) (preview : Except DiagramError String) : InOrder Unit :=
  match svg with
  | none => return
  | some path => do
    let text ← settle preview
    write path text

def deliver (arguments : Arguments) (settings : Settings) (project : LoadedProject) :
    InOrder Unit := do
  handOver arguments.output (project.generate settings ++ "\n")
  draw arguments.svg (project.preview settings)

def perform (home : Option String) (arguments : Arguments) : InOrder Unit := do
  let (settings, project) ← prepare home arguments
  deliver arguments settings project

end InOrder

end ClassDiagram.CommandLine
