import BuildOrder.Cli.Command
import BuildOrder.Config
import BuildOrder.Discovery
import BuildOrder.Graph.Report
import BuildOrder.Plan

/-! Runs of the command line, as functions of their environment. -/
namespace BuildOrder.Cli

structure Outcome where
  code : UInt8
  stdout : String
  stderr : String
  deriving DecidableEq

/-- Why a well-formed command fails. -/
inductive Failure where
  | directory (cause : ReadError)
  | config (cause : ConfigError)
  | walk (cause : WalkError)
  | order (cause : OrderError)
  deriving DecidableEq

/-- The message with its causes. -/
def Failure.message : Failure → String
  | directory e => "Failed to resolve working directory: " ++ e.message
  | config e => e.message ++ ": " ++ e.reason
  | walk e => e.message ++ ": " ++ e.cause
  | order e => e.message

/-- What a run depends on besides its arguments. -/
structure Environment where
  files : FileSystem
  walk : Walker
  readConfig : ConfigReader
  /-- The variable that overrides the output format, if it is set. -/
  formatVariable : Option String
  /-- The time of the run. -/
  time : String

/-- The configuration, and the files that the inputs stand for. -/
def prepare (env : Environment) (input : Input) : Except Failure (Config × List String) := do
  let directory ← env.files.currentDirectory.mapError .directory
  let config ← (Config.find env.readConfig env.files input.config directory
    env.formatVariable).mapError .config
  let paths ← (Discovery.expand env.files env.walk config.extensions input.paths).mapError .walk
  return (config, paths)

/-- The configuration, and the linked groups of the files. -/
def load (env : Environment) (input : Input) : Except Failure (Config × List Group) := do
  let (config, paths) ← prepare env input
  let groups ← (analyzeGroups env.files input.dialect config.extensions paths).mapError .order
  return (config, groups)

def textLines (lines : List String) : String :=
  String.join (lines.map (· ++ "\n"))

def warningText (input : Input) (groups : List Group) : String :=
  if input.quiet then ""
  else
    textLines (groups.flatMap fun group =>
      group.analysis.warnings.map fun warning => "warning: " ++ warning.message)

def failed (warnings : String) (e : Failure) : Outcome :=
  ⟨1, "", warnings ++ textLines ["error: " ++ e.message]⟩

def orderText (env : Environment) (format : OutputFormat) (groups : List Group)
    (order : List String) : String :=
  match format with
  | .text => textLines order
  | .json => textLines [(Plan.ofGroups groups order).text env.time]

def runOrder (env : Environment) (input : Input) (json : Bool) : Outcome :=
  match load env input with
  | .error e => failed "" e
  | .ok (config, groups) =>
    let warnings := warningText input groups
    match sortGroups groups with
    | .error e => failed warnings (.order (.sort e))
    | .ok order =>
      let format := if json then .json else config.format
      ⟨0, orderText env format groups order, warnings⟩

/-- The line about a group that accompanies its report. -/
def summary (group : Group) : String :=
  let graph := group.analysis.graph
  "graph: " ++ toString graph.size ++ " files, " ++ toString graph.edgeCount ++ " dependencies (" ++
    group.dialect.name ++ ")"

def runGraph (env : Environment) (input : Input) : Outcome :=
  match load env input with
  | .error e => failed "" e
  | .ok (_, groups) =>
    ⟨0, String.join (groups.map (·.analysis.graph.report)),
      warningText input groups ++ textLines (groups.map summary)⟩

def Command.run (env : Environment) : Command → Outcome
  | order input json => runOrder env input json
  | graph input => runGraph env input

/-- Runs what the arguments are read as by `readCommand`, which tells the outcome itself where they
are malformed or ask for information only. -/
def run (readCommand : List String → Except Outcome Command) (env : Environment)
    (arguments : List String) : Outcome :=
  match readCommand arguments with
  | .error outcome => outcome
  | .ok command => command.run env

end BuildOrder.Cli
