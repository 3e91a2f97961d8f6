import BuildOrder.Dialect
import BuildOrder.FileSystem

/-! Discovery of source files below a directory. -/
namespace BuildOrder

/-- What an entry of a directory is; links are not followed. -/
inductive EntryKind where
  | file
  | directory
  | link
  | other
  deriving DecidableEq

/-- What a walk comes upon. An input stream is of no kind. -/
structure Found where
  path : String
  kind : Option EntryKind
  deriving DecidableEq

/-- What walks come upon from a root, in their order, or what keeps them from it. Hidden and ignored
entries are left out. -/
abbrev Walker := String → List (Except String Found)

structure WalkError where
  root : String
  cause : String
  deriving DecidableEq

def WalkError.message (e : WalkError) : String :=
  "Failed to walk " ++ e.root

namespace Discovery

/-- Whether something found is a source file. -/
def isSource (extensions : Extensions) (found : Found) : Bool :=
  found.kind = some .file && (Dialect.ofPath? extensions found.path).isSome

/-- The source files that a walk from `root` comes upon, in the order of their paths. -/
def sources (walk : Walker) (extensions : Extensions) (root : String) :
    Except WalkError (List String) := do
  let found ← (walk root).mapM fun item => item.mapError fun cause => (⟨root, cause⟩ : WalkError)
  return ((found.filter (isSource extensions)).map (·.path)).mergeSort Path.comesBefore

/-- Replaces each directory by the source files found from it. -/
def expand (fs : FileSystem) (walk : Walker) (extensions : Extensions) (inputs : List String) :
    Except WalkError (List String) := do
  let expanded ← inputs.mapM fun input =>
    if fs.isDirectory input then sources walk extensions input else .ok [input]
  return expanded.flatten

end Discovery
end BuildOrder
