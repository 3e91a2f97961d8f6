/-! Slash-separated paths. -/
namespace BuildOrder.Path

/-- The pieces between slashes, the empty ones included. -/
def pieces (path : String) : List String :=
  (path.toList.splitOn '/').map String.ofList

/-- The pieces that say something: a repeated slash and a `.` do not. -/
def components (path : String) : List String :=
  (pieces path).filter fun piece => piece ≠ "" ∧ piece ≠ "."

/-- The last component; a path that ends in `..` names no file. -/
def fileName? (path : String) : Option String :=
  (components path).getLast?.filter (· ≠ "..")

/-- A name cut at its last dot. A leading dot starts no extension. -/
def splitExtension (name : List Char) : List Char × Option (List Char) :=
  let reversed := name.reverse
  match reversed.dropWhile (· ≠ '.') with
  | '.' :: c :: before => ((c :: before).reverse, some (reversed.takeWhile (· ≠ '.')).reverse)
  | _ => (name, none)

def stem? (path : String) : Option String :=
  (fileName? path).map fun name => String.ofList (splitExtension name.toList).1

def extension? (path : String) : Option String :=
  (fileName? path).bind fun name => (splitExtension name.toList).2.map String.ofList

/-- `relative` below `base`. -/
def join (base relative : String) : String :=
  if base = "" ∨ base.toList.getLast? = some '/' then base ++ relative else base ++ "/" ++ relative

/-- The path of the names from the root directory down. -/
def absolute (names : List String) : String :=
  "/" ++ String.intercalate "/" names

/-- One dot and slash at the beginning is left out. -/
def withoutDot : List Char → List Char
  | '.' :: '/' :: rest => rest
  | path => path

/-- Whether a path is a dot, as far as its components tell. -/
def isDot (path : List Char) : Bool :=
  path.head? = some '.' && (components (String.ofList path)).isEmpty

/-- What follows the text of `base` in a path. A name alone, and a path that does not begin with
this text, remain as they are. -/
def relativeTo (base : List Char) (path : List Char) : List Char :=
  let base := withoutDot base
  let path := withoutDot path
  if isDot base || !path.contains '/' || !base.isPrefixOf path then path
  else
    match path.drop base.length with
    | '/' :: rest => rest
    | rest => rest

/-- Names are ordered by code points. -/
def nameLE : List Char → List Char → Bool
  | [], _ => true
  | _ :: _, [] => false
  | c :: cs, d :: ds => if c = d then nameLE cs ds else c.toNat < d.toNat

/-- A step of a path. A dot is one only at the beginning. -/
inductive Part where
  | root
  | here
  | up
  | name (name : String)
  deriving DecidableEq

namespace Part

def ofComponent (component : String) : Part :=
  if component = ".." then up else name component

/-- The kinds of steps stand in the order of their constructors. -/
def rank : Part → Nat
  | root => 0
  | here => 1
  | up => 2
  | name _ => 3

def le : Part → Part → Bool
  | name a, name b => nameLE a.toList b.toList
  | a, b => a.rank ≤ b.rank

end Part

/-- Where a path starts, if it says so. -/
def start (path : List Char) : List Part :=
  if path.head? = some '/' then [.root]
  else if path.takeWhile (· ≠ '/') = ['.'] then [.here]
  else []

/-- The steps of a path. -/
def parts (path : String) : List Part :=
  start path.toList ++ (components path).map Part.ofComponent

/-- Steps are ordered by their first difference, fewer ones before more. -/
def partsLE : List Part → List Part → Bool
  | [], _ => true
  | _ :: _, [] => false
  | a :: as, b :: bs => if a = b then partsLE as bs else a.le b

/-- Whether a path comes before another one or is the same step by step. -/
def comesBefore (path other : String) : Bool :=
  partsLE (parts path) (parts other)

end BuildOrder.Path
