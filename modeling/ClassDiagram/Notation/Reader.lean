import ClassDiagram.Member
import ClassDiagram.Notation.Diagnostic

/-!
Reading member notation.

```text
member     = spaces visibility spaces name [ "(" spaces ")" ] spaces ":" spaces type
visibility = "+" | "-" | "#" | ("public" | "private" | "protected") before a space
name       = anything up to "(", ":" or the end of the line, trimmed at its end
type       = anything up to the end of the line, trimmed at its end
```

Spaces are blanks and tabs. The reader decides each part from the characters at hand and never
goes back, so a text is wrong at the first part that is missing. A position is kept as what
remains of the text from there on.
-/

namespace ClassDiagram.Notation

inductive Part where
  | visibility
  | name
  | closing
  | separator
  | type
  deriving DecidableEq, Repr

namespace Part

def code : Part → Code
  | .visibility => .missingVisibility
  | .name => .missingName
  | .closing => .unclosedParameters
  | .separator => .missingSeparator
  | .type => .missingType

def message : Part → String
  | .visibility => "expected a visibility marker"
  | .name => "expected a member name"
  | .closing => "expected `)` to close the parameter list"
  | .separator => "expected `:` before the type"
  | .type => "expected a type after `:`"

def help : Part → Option String
  | .visibility =>
    some "start the member with `+`, `-`, `#`, `public`, `private` or `protected`"
  | .name => some "write the name between the visibility marker and `:`"
  | .closing => some "operations are written as `name(): Type`"
  | .separator => some "write members as `+ name: Type` or `+ name(): Type`"
  | .type => none

end Part

/-- A part that is missing: what remained where it should start, and what remained unread. -/
structure Gap where
  part : Part
  expected : List Char
  reached : List Char
  deriving DecidableEq, Repr

structure Declaration where
  visibility : Visibility
  name : List Char
  kind : MemberKind
  typeName : List Char
  deriving DecidableEq, Repr

def isSpace (c : Char) : Bool := c == ' ' || c == '\t'

def isLineEnd (c : Char) : Bool := c == '\n' || c == '\r'

def inName (c : Char) : Bool := c != '(' && c != ':' && !isLineEnd c

def inType (c : Char) : Bool := !isLineEnd c

def skipSpaces (s : List Char) : List Char := s.dropWhile isSpace

def marker? : List Char → Option (Visibility × List Char)
  | [] => none
  | c :: rest => (Visibility.all.find? (·.marker == c)).map (·, rest)

def keyword? (s : List Char) : Option (Visibility × List Char) :=
  Visibility.all.findSome? fun v => (v.keyword.toList.isPrefixOf? s).map (v, ·)

/-- A marker stands alone; a keyword needs a space after it. -/
def readVisibility (s : List Char) : Except Gap (Visibility × List Char) :=
  match marker? s with
  | some found => .ok found
  | none =>
    match keyword? s with
    | none => .error ⟨.visibility, s, s⟩
    | some (v, rest) =>
      if rest.head?.any isSpace then .ok (v, rest) else .error ⟨.visibility, s, rest⟩

def readRun (part : Part) (inside : Char → Bool) (s : List Char) :
    Except Gap (List Char × List Char) :=
  let run := Text.trimEnd (s.takeWhile inside)
  if run.isEmpty then .error ⟨part, s, s⟩ else .ok (run, s.dropWhile inside)

def readParameters (s : List Char) : Except Gap (MemberKind × List Char) :=
  match s with
  | '(' :: rest =>
    match skipSpaces rest with
    | ')' :: rest => .ok (.operation, rest)
    | unclosed => .error ⟨.closing, s, unclosed⟩
  | _ => .ok (.attribute, s)

def readSeparator (s : List Char) : Except Gap (List Char) :=
  match s with
  | ':' :: rest => .ok rest
  | _ => .error ⟨.separator, s, s⟩

def readDeclaration (s : List Char) : Except Gap (Declaration × List Char) := do
  let (visibility, s) ← readVisibility (skipSpaces s)
  let (name, s) ← readRun .name inName (skipSpaces s)
  let (kind, s) ← readParameters s
  let s ← readSeparator (skipSpaces s)
  let (typeName, s) ← readRun .type inType (skipSpaces s)
  return (⟨visibility, name, kind, typeName⟩, s)

def Declaration.validate (d : Declaration) : Except ModelError Member :=
  Member.make d.kind d.visibility (String.ofList d.name) (String.ofList d.typeName)

/-- The byte position at which `remaining` begins, as an end part of `source`. -/
def position (source remaining : List Char) : Nat :=
  Text.byteSize source - Text.byteSize remaining

def Gap.diagnostic (source : List Char) (gap : Gap) : Diagnostic where
  code := gap.part.code
  message := gap.part.message
  span := .between (position source gap.expected) (position source gap.reached)
  help := gap.part.help

def unexpectedInput (source remaining : List Char) : Diagnostic where
  code := .unexpectedInput
  message := "unexpected input after the type"
  span := .between (position source remaining) (Text.byteSize source)
  help := some "declare one member per line"

def rejectedMember (source : List Char) (error : ModelError) : Diagnostic where
  code := .rejectedMember
  message := error.message
  span := .between 0 (Text.byteSize source)

def readMember (source : List Char) : Except Diagnostic Member :=
  match readDeclaration source with
  | .error gap => .error (gap.diagnostic source)
  | .ok (declaration, []) => declaration.validate.mapError (rejectedMember source)
  | .ok (_, remaining) => .error (unexpectedInput source remaining)

def parseMember (source : String) : Except ParseError Member :=
  (readMember source.toList).mapError fun d => ⟨[d]⟩

end ClassDiagram.Notation
