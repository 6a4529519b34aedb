/-!
The arguments of the command.

Tokens are taken one after the other, and the first fault ends it. An option stays pending until
the next option or positional argument settles it, because only then is it known whether it got
its value.
-/

namespace ClassDiagram.CommandLine

inductive Opt where
  | output
  | svg
  | config
  | logLevel
  deriving DecidableEq, Repr

inductive Usage where
  | missingArgument
  | unknownArgument
  | invalidValue
  | tooManyValues
  | repeated
  | help
  | version
  deriving DecidableEq, Repr

structure Arguments where
  input : String
  output : Option String := none
  svg : Option String := none
  config : Option String := none
  logLevel : String := "info"
  deriving DecidableEq, Repr

structure Progress where
  input : Option String := none
  values : List (Opt × String) := []
  pending : Option (Opt × Option String) := none
  /-- After a double dash every token is positional. -/
  positionalOnly : Bool := false
  deriving DecidableEq, Repr

namespace Opt

def ofLong? : String → Option Opt
  | "output" => some .output
  | "svg" => some .svg
  | "config" => some .config
  | "log-level" => some .logLevel
  | _ => none

def ofShort? : Char → Option Opt
  | 'o' => some .output
  | 'c' => some .config
  | _ => none

end Opt

namespace Progress

def assign (p : Progress) (opt : Opt) (value : String) : Except Usage Progress :=
  if (p.values.lookup opt).isSome then .error .repeated
  else .ok { p with values := (opt, value) :: p.values }

def settle (p : Progress) : Except Usage Progress :=
  match p.pending with
  | none => .ok p
  | some (_, none) => .error .invalidValue
  | some (opt, some value) => { p with pending := none }.assign opt value

def option (p : Progress) (opt : Opt) (attached : Option String) : Except Usage Progress := do
  let p ← p.settle
  match attached with
  | some value => p.assign opt value
  | none => return { p with pending := some (opt, none) }

/-- A request for information ends the reading once the pending option is settled. -/
def ask (p : Progress) (usage : Usage) : Except Usage Progress := do
  let _ ← p.settle
  throw usage

def positional (p : Progress) (value : String) : Except Usage Progress :=
  match p.input with
  | some _ => .error .unknownArgument
  | none => do
    let p ← p.settle
    return { p with input := some value }

def long (p : Progress) (token : List Char) : Except Usage Progress :=
  let name := String.ofList (token.takeWhile (· != '='))
  let attached :=
    (token.dropWhile (· != '=')).tail?.map String.ofList
  match Opt.ofLong? name with
  | some opt => p.option opt attached
  | none =>
    if name = "help" || name = "version" then
      if attached.isSome then .error .tooManyValues
      else p.ask (if name = "help" then .help else .version)
    else .error .unknownArgument

def short (p : Progress) : List Char → Except Usage Progress
  | [] => .ok p
  | c :: rest =>
    match Opt.ofShort? c with
    | some opt =>
      p.option opt <|
        match rest with
        | [] => none
        | '=' :: value => some (String.ofList value)
        | value => some (String.ofList value)
    | none =>
      if c = 'h' then p.ask .help
      else if c = 'V' then p.ask .version
      else .error .unknownArgument

def plain (p : Progress) (token : String) : Except Usage Progress :=
  match p.pending with
  | some (opt, none) => .ok { p with pending := some (opt, some token) }
  | _ => p.positional token

def take (p : Progress) (token : String) : Except Usage Progress :=
  if p.positionalOnly then p.positional token
  else
    match token.toList with
    | ['-', '-'] => .ok { p with positionalOnly := true }
    | '-' :: '-' :: name => p.long name
    | ['-'] => p.plain token
    | '-' :: letters => p.short letters
    | _ => p.plain token

def finish (p : Progress) : Except Usage Arguments := do
  let p ← p.settle
  match p.input with
  | none => throw .missingArgument
  | some input =>
    return {
      input
      output := p.values.lookup .output
      svg := p.values.lookup .svg
      config := p.values.lookup .config
      logLevel := (p.values.lookup .logLevel).getD "info" }

end Progress

def Arguments.parse (tokens : List String) : Except Usage Arguments := do
  (← tokens.foldlM Progress.take {}).finish

end ClassDiagram.CommandLine
