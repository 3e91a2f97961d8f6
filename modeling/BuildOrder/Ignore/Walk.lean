import BuildOrder.Discovery
import BuildOrder.Ignore.Directory

/-! Walks through a tree of files that leave out hidden and ignored entries. -/
namespace BuildOrder.Ignore

/-- What keeps a walk from a place. -/
inductive WalkCause where
  | unreachable (path : String) (cause : ReadError)
  /-- Ignore files above the root have defects. -/
  | badRules (defects : List RuleDefect)
  deriving DecidableEq

def WalkCause.message : WalkCause → String
  | unreachable path cause =>
    path ++ ": IO error for operation on " ++ path ++ ": " ++ cause.message
  | badRules defects => String.intercalate "\n" (defects.map (·.message))

/-- Where a walk is. -/
structure Position where
  /-- The path by which the walk names the place. -/
  path : String
  location : Location
  /-- The directories of the walk that have rules, the nearest first, and the rules of the user. -/
  inside : List RuleDirectory
  /-- The directories above the root of the walk, the nearest first. -/
  above : List RuleDirectory

namespace Position

def child (here : Position) (name : String) : Position :=
  { here with path := Path.join here.path name, location := here.location ++ [name] }

/-- The rules of the directory here are in force below it. -/
def withRules (tree : FileTree) (here : Position) : Position :=
  let directory := RuleDirectory.read tree here.path
  if directory.hasRules then { here with inside := directory :: here.inside } else here

/-- Whether the rules keep the entry here, if one applies. The first kind of ignore files with a
word on it decides, and of this kind the nearest directory. The directories above the root see the
entry by its place, those of the walk by its path. -/
def keeps? (here : Position) (isDirectory : Bool) : Option Bool :=
  let place := (Path.absolute here.location).toList
  let path := Path.withoutDot here.path.toList
  let views := here.inside.map (fun directory => (directory, directory.view path)) ++
    here.above.map fun directory => (directory, directory.view place)
  RuleDirectory.kinds.findSome? fun kind =>
    views.findSome? fun (directory, seen) => (kind directory).keeps? seen isDirectory

/-- Hidden entries are skipped unless a rule keeps them. -/
def isSkipped (here : Position) (isDirectory : Bool) : Bool :=
  match here.keeps? isDirectory with
  | some kept => !kept
  | none => (here.location.getLast?.getD "").toList.head? = some '.'

end Position

mutual

/-- What a walk comes upon at or below an entry. A directory is named before what is in it. -/
def visits (tree : FileTree) (here : Position) : Entry → List (Except String Found)
  | .file _ => [.ok ⟨here.path, some .file⟩]
  | .directory children =>
    let below := match tree.locate here.path with
      | .error cause => [.error (WalkCause.unreachable here.path cause).message]
      | .ok _ => visitsBelow tree (here.withRules tree) children
    .ok ⟨here.path, some .directory⟩ :: below

def visitsBelow (tree : FileTree) (here : Position) :
    List (String × Entry) → List (Except String Found)
  | [] => []
  | (name, entry) :: rest =>
    let child := here.child name
    let visited := if child.isSkipped entry.isDirectory then [] else visits tree child entry
    visited ++ visitsBelow tree here rest

end

/-- The rules of the directories above a location, the outermost first. -/
def rulesAbove (tree : FileTree) (location : Location) : List RuleDirectory :=
  (List.range location.length).map fun depth =>
    RuleDirectory.read tree (Path.absolute (location.take depth))

/-- A dash is no directory but stands for an input stream, which holds no files. -/
def isStream (root : String) : Bool :=
  root.toList.head? = some '-' && Path.components root = ["-"]

/-- Where a walk from `root` begins when that is at a location. -/
def start (tree : FileTree) (userRules : List UInt8) (root : String) (location : Location) :
    Position :=
  ⟨root, location, [.ofUser userRules], (rulesAbove tree location).reverse.filter (·.hasRules)⟩

/-- Walks through a tree, where `userRules` is the ignore file of the user. A file is come upon from
itself, whatever the rules say of it. -/
def walk (tree : FileTree) (userRules : List UInt8) : Walker := fun root =>
  if isStream root then [.ok ⟨root, none⟩]
  else
    match tree.lookup root with
    | .error cause => [.error (WalkCause.unreachable root cause).message]
    | .ok (location, entry) =>
      let defects := (rulesAbove tree location).flatMap (·.defects)
      if defects = [] then visits tree (start tree userRules root location) entry
      else [.error (WalkCause.badRules defects).message]

end BuildOrder.Ignore
