import BuildOrder.Cli.Args
import BuildOrder.Cli.Clock
import BuildOrder.Cli.Surroundings
import BuildOrder.Ignore.User
import Std.Time.DateTime.Timestamp

/-! The program: it surveys the files that its arguments name, and prints the outcome of a run. -/
namespace BuildOrder.Main

/-- The location of a path as it is written, links left aside. -/
def locationOf (current : Location) (path : String) : Location :=
  let start := if path.toList.head? = some '/' then [] else current
  (Path.components path).foldl
    (fun here piece => if piece = ".." then here.dropLast else here ++ [piece]) start

def causeOf : IO.Error → ReadError
  | .permissionDenied .. => .other "Permission denied (os error 13)"
  | e => .other (toString e)

def contentAt (path : String) : IO (Except ReadError (List UInt8)) := do
  try
    return .ok (← IO.FS.readBinFile path).toList
  catch e => return .error (causeOf e)

/-- Adds the file at a location with its content, if there is one. -/
def addFile (tree : FileTree) (location : Location) : IO FileTree := do
  let path := (← IO.currentDir) / Path.absolute location
  if (← path.pathExists) && !(← path.isDir) then
    return tree.insert location (.file (← contentAt (Path.absolute location)))
  else return tree

def ruleFiles (directory : Location) : List Location :=
  [[".ignore"], [".gitignore"], [".git"], [".git", "info", "exclude"]].map (directory ++ ·)

/-- Adds the ignore files of a directory, with those of a repository elsewhere. -/
def addRules (tree : FileTree) (directory : Location) : IO FileTree := do
  let mut tree := tree
  for file in ruleFiles directory do
    tree ← addFile tree file
  let linked := do
    let bytes ← (tree.read (Path.absolute (directory ++ [".git"]))).toOption
    (← (Ignore.Repository.linkText "" bytes).toOption).bind Ignore.Repository.target?
  if let some repository := linked then
    tree ← addFile tree (locationOf tree.current (Path.join repository "commondir"))
    if let .ok (some shared) := Ignore.Repository.shared tree repository then
      tree ← addFile tree (locationOf tree.current (Ignore.Repository.excludeFile shared))
  return tree

/-- Adds what lies below a directory. Links are left out, and so are the bytes of files other than
ignore files. -/
partial def addBelow (tree : FileTree) (location : Location) : IO FileTree := do
  let path := (← IO.currentDir) / Path.absolute location
  let mut tree ← addRules (tree.insert location (.directory [])) location
  for child in ← path.readDir do
    let below := location ++ [child.fileName]
    match (← child.path.symlinkMetadata).type with
    | .dir => tree ← addBelow tree below
    | .file => tree := tree.insert below (.file (.ok []))
    | _ => pure ()
  return tree

/-- Adds what is at a path and below, and the ignore files above it. -/
def survey (tree : FileTree) (path : String) : IO FileTree := do
  let location := locationOf tree.current path
  let place := (← IO.currentDir) / Path.absolute location
  let mut tree := tree
  for depth in List.range location.length do
    tree ← addRules tree (location.take depth)
  if ← place.isDir then addBelow tree location
  else if ← place.pathExists then return tree.insert location (.file (.ok []))
  else return tree

/-- The surveyed paths, with the content of some files. -/
def surveyAll (current : Location) (files paths : List String) : IO FileTree := do
  let mut tree := FileTree.ofList current []
  for file in files do
    tree ← addFile tree (locationOf current file)
  for path in paths do
    tree ← survey tree path
  return tree

/-- The ignore file of the user. -/
def userRules : IO (List UInt8) := do
  let home := (← IO.getEnv "HOME").getD ""
  let configHome := ((← IO.getEnv "XDG_CONFIG_HOME").filter (· ≠ "")).getD
    (Path.join home ".config")
  let settings ← [Path.join home ".gitconfig", Path.join configHome "git/config"].mapM contentAt
  let configs := settings.filterMap fun content => content.toOption.map Text.Utf8.decodeLossy
  return (← contentAt (Ignore.User.ruleFile home configHome configs)).toOption.getD []

/-- The environment of a command, with all that it needs to know of the files. -/
def environmentFor (current : Location) (formatVariable : Option String) (time : String)
    (input : Cli.Input) : IO Cli.Environment := do
  let config := input.config.getD Config.fileName
  let rules ← userRules
  let tree ← surveyAll current [config] input.paths
  let env := Cli.Environment.ofTree tree rules formatVariable time
  match Cli.prepare env input with
  | .ok (_, sources) =>
    let tree ← surveyAll current (config :: sources) input.paths
    return { env with files := tree.files }
  | .error _ => return env

def run (arguments : List String) : IO UInt32 := do
  let current := Path.components (← IO.currentDir).toString
  let formatVariable ← IO.getEnv "SRCORDER_FORMAT"
  let now ← Std.Time.Timestamp.now
  let time := Cli.Clock.text now.toNanosecondsSinceUnixEpoch.val.toNat
  let env ← match Cli.readCommand arguments with
    | .ok (.order input _) | .ok (.graph input) => environmentFor current formatVariable time input
    | .error _ => pure (.ofTree ⟨[], current⟩ [] formatVariable time)
  let outcome := Cli.run Cli.readCommand env arguments
  IO.eprint outcome.stderr
  IO.print outcome.stdout
  return outcome.code.toUInt32

end BuildOrder.Main

def main (arguments : List String) : IO UInt32 :=
  BuildOrder.Main.run arguments
