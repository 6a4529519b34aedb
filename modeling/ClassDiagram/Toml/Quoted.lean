import ClassDiagram.Text.Blank
import ClassDiagram.Toml.Value

/-!
Quoted texts, read and written.

A text is read in two steps: first its raw characters up to the closing quotation marks, then
what they stand for. It is written in the first form that holds it: basic, literal, multi-line
basic, multi-line literal, and otherwise a basic form with escapes.
-/

namespace ClassDiagram.Toml.Quoted

def push (c : Char) (read : Option (List Char × List Char)) : Option (List Char × List Char) :=
  read.map fun (text, rest) => (c :: text, rest)

def rawLine (quote : Char) (escapes : Bool) : List Char → Option (List Char × List Char)
  | [] => none
  | c :: rest =>
    if c = quote then some ([], rest)
    else if escapes && c = '\\' then
      match rest with
      | [] => none
      | d :: rest => push c (push d (rawLine quote escapes rest))
    else push c (rawLine quote escapes rest)

/-- The raw characters up to three quotation marks. Up to two more belong to the text. -/
def rawBlock (quote : Char) (escapes : Bool) : List Char → Option (List Char × List Char)
  | [] => none
  | c :: rest =>
    let marks := ((c :: rest).takeWhile (· = quote)).length
    if 3 ≤ marks then
      some (List.replicate (min marks 5 - 3) quote, (c :: rest).drop (min marks 5))
    else if escapes && c = '\\' then
      match rest with
      | [] => none
      | d :: rest => push c (push d (rawBlock quote escapes rest))
    else push c (rawBlock quote escapes rest)

def hexDigit? (c : Char) : Option Nat :=
  if '0' ≤ c && c ≤ '9' then some (c.toNat - '0'.toNat)
  else if 'a' ≤ c && c ≤ 'f' then some (c.toNat - 'a'.toNat + 10)
  else if 'A' ≤ c && c ≤ 'F' then some (c.toNat - 'A'.toNat + 10)
  else none

def coded? (digits : List Char) : Option Char := do
  let values ← digits.mapM hexDigit?
  let code := values.foldl (fun acc digit => 16 * acc + digit) 0
  if code.isValidChar then some (Char.ofNat code) else none

def escape? : Char → Option Char
  | 'b' => some '\x08'
  | 't' => some '\t'
  | 'n' => some '\n'
  | 'f' => some '\x0c'
  | 'r' => some '\r'
  | 'e' => some '\x1b'
  | '"' => some '"'
  | '\\' => some '\\'
  | _ => none

def startsLine : List Char → Bool
  | '\n' :: _ => true
  | '\r' :: '\n' :: _ => true
  | _ => false

def isIndent (c : Char) : Bool := c == ' ' || c == '\t'

/-- What raw characters with escapes stand for. A block keeps its line ends as they are, but a
backslash at the end of a line drops all white space that follows, which `skipping` recalls. -/
def unescape (block : Bool) (skipping : Bool) : List Char → Option (List Char)
  | [] => some []
  | '\r' :: '\n' :: rest =>
    if block then
      if skipping then unescape block true rest
      else (unescape block false rest).map ('\r' :: '\n' :: ·)
    else none
  | '\\' :: 'x' :: a :: b :: rest => do
    let c ← coded? [a, b]
    return c :: (← unescape block false rest)
  | '\\' :: 'u' :: a :: b :: c :: d :: rest => do
    let c ← coded? [a, b, c, d]
    return c :: (← unescape block false rest)
  | '\\' :: 'U' :: a :: b :: c :: d :: e :: f :: g :: h :: rest => do
    let c ← coded? [a, b, c, d, e, f, g, h]
    return c :: (← unescape block false rest)
  | '\\' :: e :: rest =>
    if block && startsLine ((e :: rest).dropWhile isIndent) then unescape block true (e :: rest)
    else do
      let c ← escape? e
      return c :: (← unescape block false rest)
  | c :: rest =>
    if skipping && (isIndent c || c == '\n') then unescape block true rest
    else if isControl c && !(block && c == '\n') then none
    else (unescape block false rest).map (c :: ·)

def verbatim (block : Bool) : List Char → Option (List Char)
  | [] => some []
  | '\r' :: '\n' :: rest =>
    if block then (verbatim block rest).map ('\r' :: '\n' :: ·) else none
  | c :: rest =>
    if isControl c && !(block && c == '\n') then none else (verbatim block rest).map (c :: ·)

def decode (escapes block : Bool) (raw : List Char) : Option (List Char) :=
  if escapes then unescape block false raw else verbatim block raw

def dropFirstLineEnd : List Char → List Char
  | '\n' :: rest => rest
  | '\r' :: '\n' :: rest => rest
  | rest => rest

def readLine (quote : Char) (s : List Char) : Option (String × List Char) := do
  let (raw, rest) ← rawLine quote (quote == '"') s
  return (String.ofList (← decode (quote == '"') false raw), rest)

def readBlock (quote : Char) (s : List Char) : Option (String × List Char) := do
  let (raw, rest) ← rawBlock quote (quote == '"') (dropFirstLineEnd s)
  return (String.ofList (← decode (quote == '"') true raw), rest)

def read (quote : Char) : List Char → Option (String × List Char)
  | a :: b :: rest =>
    if a = quote && b = quote then readBlock quote rest else readLine quote (a :: b :: rest)
  | s => readLine quote s

def longestRun (mark : Char) (s : List Char) : Nat :=
  (s.foldl (fun (longest, current) c =>
    if c = mark then (max longest (current + 1), current + 1) else (longest, 0)) (0, 0)).1

def hasControl (s : List Char) : Bool := s.any fun c => isControl c && c != '\n'

def hexDigits (n : Nat) : List Char :=
  let digits := (Nat.toDigits 16 n).map Char.toUpper
  List.replicate (4 - digits.length) '0' ++ digits

def escapeOf? (block : Bool) (c : Char) : Option (List Char) :=
  match c with
  | '\x08' => some ['\\', 'b']
  | '\t' => some ['\\', 't']
  | '\n' => if block then none else some ['\\', 'n']
  | '\x0c' => some ['\\', 'f']
  | '\r' => some ['\\', 'r']
  | '\\' => some ['\\', '\\']
  | c => if isControl c then some ('\\' :: 'u' :: hexDigits c.toNat) else none

/-- Writes with escapes. A block can hold two quotation marks in a row, so the third one of a run
is escaped; `marks` counts those just written. -/
def escaped (block : Bool) (marks : Nat) : List Char → List Char
  | [] => []
  | '"' :: rest =>
    if block && marks < 2 then '"' :: escaped block (marks + 1) rest
    else '\\' :: '"' :: escaped block 0 rest
  | c :: rest => (escapeOf? block c).getD [c] ++ escaped block 0 rest

def enclosed (marks : List Char) (block : Bool) (body : List Char) : List Char :=
  marks ++ (if block then ['\n'] else []) ++ body ++ marks

def write (s : List Char) : List Char :=
  let lines := s.contains '\n'
  let double := ['"', '"', '"']
  let single := ['\'', '\'', '\'']
  if !hasControl s && !s.contains '\\' && !s.contains '"' && !lines then
    enclosed ['"'] false (escaped false 0 s)
  else if !hasControl s && !s.contains '\'' && !lines then enclosed ['\''] false s
  else if !hasControl s && !s.contains '\\' && longestRun '"' s ≤ 2 then
    enclosed double lines (escaped true 0 s)
  else if !hasControl s && longestRun '\'' s ≤ 2 then enclosed single lines s
  else if lines then enclosed double true (escaped true 0 s)
  else enclosed ['"'] false (escaped false 0 s)

def text (s : String) : String := String.ofList (write s.toList)

end ClassDiagram.Toml.Quoted
