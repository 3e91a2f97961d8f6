import BuildOrder.FileSystem
import BuildOrder.Path

/-! A tree of files, seen from a current directory. -/
namespace BuildOrder

/-- The names from the root directory down. -/
abbrev Location := List String

inductive Entry where
  /-- A file with its bytes, or with the reason why they cannot be read. -/
  | file (content : Except ReadError (List UInt8))
  | directory (children : List (String × Entry))

namespace Entry

def isDirectory : Entry → Bool
  | file _ => false
  | directory _ => true

/-- Adds an entry, and the directories on the way to it, below the entries of a directory. What is
there already stays. -/
def insertBelow (new : Entry) : Location → List (String × Entry) → List (String × Entry)
  | [], children => children
  | name :: rest, children =>
    match children.lookup name with
    | some (directory below) =>
      let below := directory (insertBelow new rest below)
      children.map fun child => if child.1 = name then (name, below) else child
    | some (file _) => children
    | none =>
      children ++ [(name, if rest = [] then new else directory (insertBelow new rest []))]

end Entry

structure FileTree where
  /-- The entries of the root directory. -/
  root : List (String × Entry)
  current : Location

namespace FileTree

/-- A way down from the root directory: the entries on it with their names, the last one first. -/
abbrev Trail := List (String × Entry)

def Trail.location (trail : Trail) : Location :=
  (trail.map (·.1)).reverse

/-- The entry at the end of a way. -/
def entryAt (tree : FileTree) : Trail → Entry
  | [] => .directory tree.root
  | (_, entry) :: _ => entry

/-- Follows path pieces from a place. Only a directory can be left, even through `.`. -/
def follow (tree : FileTree) (here : Trail) : List String → Except ReadError Trail
  | [] => .ok here
  | piece :: rest =>
    match tree.entryAt here with
    | .file _ => .error .notDirectory
    | .directory children =>
      if piece = "." then tree.follow here rest
      else if piece = ".." then tree.follow here.tail rest
      else if piece.utf8ByteSize > 255 then .error .nameTooLong
      else
        match children.lookup piece with
        | some entry => tree.follow ((piece, entry) :: here) rest
        | none => .error .notFound

/-- The way to an existing file or directory. A slash at the end asks for a directory. -/
def locate (tree : FileTree) (path : String) : Except ReadError Trail :=
  let pieces := Path.pieces path
  let asked := pieces.filter (· ≠ "") ++ (if pieces.getLast? = some "" then ["."] else [])
  if '\x00' ∈ path.toList then .error .nulInPath
  else if path = "" then .error .notFound
  else if path.utf8ByteSize ≥ 4096 then .error .nameTooLong
  else if path.toList.head? = some '/' then tree.follow [] asked
  else tree.follow [] (tree.current ++ asked)

def lookup (tree : FileTree) (path : String) : Except ReadError (Location × Entry) :=
  (tree.locate path).map fun trail => (trail.location, tree.entryAt trail)

/-- The bytes of a file. -/
def read (tree : FileTree) (path : String) : Except ReadError (List UInt8) := do
  match ← tree.lookup path with
  | (_, .file content) => content
  | (_, .directory _) => .error .isDirectory

def isFile (tree : FileTree) (path : String) : Bool :=
  match tree.lookup path with
  | .ok (_, .file _) => true
  | _ => false

def isDirectory (tree : FileTree) (path : String) : Bool :=
  match tree.lookup path with
  | .ok (_, .directory _) => true
  | _ => false

/-- The current directory may have been removed. -/
def currentDirectory (tree : FileTree) : Except ReadError String :=
  (tree.follow [] (tree.current ++ ["."])).map fun _ => Path.absolute tree.current

/-- The answers of a tree. -/
def files (tree : FileTree) : FileSystem where
  read := tree.read
  isFile := tree.isFile
  isDirectory := tree.isDirectory
  currentDirectory := tree.currentDirectory

/-- Adds an entry and the directories above it, where the locations are free. -/
def insert (tree : FileTree) (location : Location) (entry : Entry) : FileTree :=
  { tree with root := entry.insertBelow location tree.root }

/-- The current directory with the given entries below it. -/
def ofList (current : Location) (entries : List (String × Entry)) : FileTree :=
  let bare := FileTree.insert ⟨[], current⟩ current (.directory [])
  entries.foldl (fun tree (path, entry) => tree.insert (current ++ Path.components path) entry) bare

end FileTree
end BuildOrder
