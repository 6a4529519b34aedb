import ClassDiagram.Text.Blank

/-!
Files as a map from paths to contents, seen from the directory that the command runs in.

A directory is there when a file lies below it. The working directory and the directories that
every system has are there in any case.
-/

namespace ClassDiagram.CommandLine

/-- The names that lead to a file from the root. -/
abbrev Path := List String

namespace Path

def names (text : String) : List String := (Text.splitAt '/' text.toList).map String.ofList

def isAbsolute (text : String) : Bool := text.toList.head? == some '/'

def nameLimit : Nat := 255

def textLimit : Nat := 4095

/-- The file that takes whatever is written to it and stays empty. -/
def nullDevice : Path := ["dev", "null"]

def fullDevice : Path := ["dev", "full"]

def standardDirectories : List Path :=
  [["bin"], ["boot"], ["dev"], ["etc"], ["home"], ["lib"], ["media"], ["mnt"], ["opt"], ["root"],
    ["run"], ["sbin"], ["srv"], ["tmp"], ["usr"], ["var"]]

end Path

structure Files where
  working : Path
  entries : List (Path × ByteArray)

namespace Files

def find? (files : Files) (path : Path) : Option ByteArray :=
  if path = Path.nullDevice then some ByteArray.empty else files.entries.lookup path

def isDirectory (files : Files) (path : Path) : Bool :=
  path.isPrefixOf files.working || Path.standardDirectories.contains path ||
    files.entries.any fun entry => path.isPrefixOf entry.1 && path != entry.1

/-- Goes on by one name from a path, which has to be a directory. Single dots stay where they
are, and double dots take one name back. The root lies above itself. -/
def enter? (files : Files) (path : Path) (name : String) : Option Path :=
  if !files.isDirectory path || Path.nameLimit < name.utf8ByteSize then none
  else if name = "" || name = "." then some path
  else if name = ".." then some path.dropLast
  else some (path ++ [name])

def resolve? (files : Files) (text : String) : Option Path :=
  if text.isEmpty || Path.textLimit < text.utf8ByteSize || text.toList.contains '\x00' then none
  else (Path.names text).foldlM files.enter? (if Path.isAbsolute text then [] else files.working)

def hasPath (files : Files) (text : String) : Bool :=
  (files.resolve? text).any fun path => (files.find? path).isSome || files.isDirectory path

def readText? (files : Files) (text : String) : Option String := do
  String.fromUTF8? (← files.find? (← files.resolve? text))

def put (path : Path) (bytes : ByteArray) : List (Path × ByteArray) → List (Path × ByteArray)
  | [] => [(path, bytes)]
  | (p, old) :: rest => if p = path then (p, bytes) :: rest else (p, old) :: put path bytes rest

def write? (files : Files) (text : String) (content : String) : Option Files := do
  let path ← files.resolve? text
  if files.isDirectory path || path = Path.fullDevice then none
  else if path = Path.nullDevice then some files
  else some { files with entries := put path content.toUTF8 files.entries }

end Files

end ClassDiagram.CommandLine
