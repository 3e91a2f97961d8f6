import BuildOrder.Cli.Run

/-! Command-line arguments. -/
namespace BuildOrder.Cli

inductive Request where
  | version
  | run (command : Command)
  deriving DecidableEq

/-- The arguments read so far; an option that is not given yet is `none`. -/
structure Draft where
  paths : List String := []
  dialect : Option (Option Dialect) := none
  config : Option String := none
  quiet : Bool := false
  json : Bool := false

inductive ValueOption where
  | dialect
  | config

namespace Draft

def addPath (d : Draft) (path : String) : Option Draft :=
  if path = "" then none else some { d with paths := d.paths ++ [path] }

def dialectOfName : String → Option (Option Dialect)
  | "auto" => some none
  | "module" => some (some .modules)
  | "include" => some (some .includes)
  | _ => none

/-- An option is given once at most. -/
def set (d : Draft) : ValueOption → String → Option Draft
  | .dialect, value => do
    if d.dialect.isSome then none
    else return { d with dialect := some (← dialectOfName value) }
  | .config, value =>
    if d.config.isSome ∨ value = "" then none else some { d with config := some value }

def setQuiet (d : Draft) : Option Draft :=
  if d.quiet then none else some { d with quiet := true }

def setJson (d : Draft) : Option Draft :=
  if d.json then none else some { d with json := true }

def input (d : Draft) : Option Input :=
  if d.paths = [] then none
  else some ⟨d.paths, d.dialect.getD none, d.config, d.quiet⟩

end Draft

/-- A draft, and the option that takes the next argument for its value if there is one. -/
abbrev Pending := Draft × Option ValueOption

/-- A value that stands in the argument of its option, perhaps after an equals sign. -/
def attached (d : Draft) (option : ValueOption) : List Char → Option Pending
  | [] => some (d, some option)
  | '=' :: value => (d.set option (String.ofList value)).map fun d => (d, none)
  | value => (d.set option (String.ofList value)).map fun d => (d, none)

/-- The letters after a dash. -/
def readLetters (d : Draft) : List Char → Option Pending
  | [] => some (d, none)
  | 'q' :: rest => do readLetters (← d.setQuiet) rest
  | 'd' :: rest => attached d .dialect rest
  | 'c' :: rest => attached d .config rest
  | _ => none

/-- The name after two dashes, with its value if an equals sign follows. -/
def readName (acceptsJson : Bool) (d : Draft) (text : List Char) : Option Pending :=
  let name := String.ofList (text.takeWhile (· ≠ '='))
  let value := text.dropWhile (· ≠ '=')
  match name with
  | "dialect" => attached d .dialect value
  | "config" => attached d .config value
  | "quiet" => if value = [] then d.setQuiet.map fun d => (d, none) else none
  | "json" => if acceptsJson ∧ value = [] then d.setJson.map fun d => (d, none) else none
  | _ => none

/-- A dash alone is no option. -/
def isOption (argument : String) : Bool :=
  argument.toList.head? = some '-' && argument ≠ "-"

def readArgument (acceptsJson : Bool) (d : Draft) (argument : String) : Option Pending :=
  match argument.toList with
  | '-' :: '-' :: name => readName acceptsJson d name
  | '-' :: c :: letters => readLetters d (c :: letters)
  | _ => (d.addPath argument).map fun d => (d, none)

/-- The arguments of a command. After two dashes alone all are paths. -/
def readArguments (acceptsJson : Bool) (d : Draft) : List String → Option Draft
  | [] => some d
  | "--" :: paths => paths.foldlM Draft.addPath d
  | argument :: rest =>
    match readArgument acceptsJson d argument, rest with
    | some (d, none), rest => readArguments acceptsJson d rest
    | some (d, some option), value :: rest =>
      if isOption value then none
      else
        match d.set option value with
        | some d => readArguments acceptsJson d rest
        | none => none
    | _, _ => none

/-- What the arguments ask for, if they are well formed. -/
def Request.parse : List String → Option Request
  | "order" :: rest => do
    let d ← readArguments true {} rest
    return .run (.order (← d.input) d.json)
  | "graph" :: rest => do
    let d ← readArguments false {} rest
    return .run (.graph (← d.input))
  | "--version" :: _ => some .version
  | argument :: _ => if ['-', 'V'].isPrefixOf argument.toList then some .version else none
  | [] => none

def programName : String := "srcorder"

/-- Malformed arguments end a run with the code 2. -/
def readCommand (arguments : List String) : Except Outcome Command :=
  match Request.parse arguments with
  | none => .error ⟨2, "", ""⟩
  | some .version => .error ⟨0, textLines [programName ++ " " ++ version], ""⟩
  | some (.run command) => .ok command

end BuildOrder.Cli
