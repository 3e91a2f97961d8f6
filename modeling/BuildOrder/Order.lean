import BuildOrder.Graph.Sort
import BuildOrder.Linker

/-! Build orders of files of one dialect or of both. -/
namespace BuildOrder

structure Ordered where
  files : List String
  warnings : List Warning
  deriving DecidableEq

inductive OrderError where
  | unknownDialect (path : String)
  | sort (cause : SortError)
  deriving DecidableEq

def OrderError.message : OrderError → String
  | unknownDialect path => "cannot tell the dialect of " ++ path ++ ", pass --dialect"
  | sort cause => cause.message

/-- Orders files of one dialect, all of them or none. -/
def orderFiles (fs : FileSystem) (dialect : Dialect) (paths : List String) :
    Except SortError Ordered := do
  let analysis := Analysis.ofFiles fs dialect paths
  let files ← analysis.graph.sort
  return ⟨files, analysis.warnings⟩

/-- The dialect of a path, where one is forced or its extension tells it. -/
def classify (forced : Option Dialect) (extensions : Extensions) (path : String) :
    Except OrderError (Dialect × String) :=
  match forced.or (Dialect.ofPath? extensions path) with
  | some dialect => .ok (dialect, path)
  | none => .error (.unknownDialect path)

/-- The paths of each dialect that has some, the module dialect first. -/
def partition (forced : Option Dialect) (extensions : Extensions) (paths : List String) :
    Except OrderError (List (Dialect × List String)) := do
  let classified ← paths.mapM (classify forced extensions)
  let filesOf (dialect : Dialect) := (classified.filter (·.1 = dialect)).map (·.2)
  let parts := [Dialect.modules, Dialect.includes].map fun dialect => (dialect, filesOf dialect)
  return parts.filter (·.2 ≠ [])

/-- Files of one dialect, linked into a graph of their own. -/
structure Group where
  dialect : Dialect
  analysis : Analysis
  deriving DecidableEq

def analyzeGroups (fs : FileSystem) (forced : Option Dialect) (extensions : Extensions)
    (paths : List String) : Except OrderError (List Group) := do
  let parts ← partition forced extensions paths
  return parts.map fun (dialect, files) => ⟨dialect, Analysis.ofFiles fs dialect files⟩

/-- The orders of the groups, one after the other. -/
def sortGroups (groups : List Group) : Except SortError (List String) :=
  (groups.mapM fun (group : Group) => group.analysis.graph.sort).map List.flatten

/-- Orders files of both dialects, each dialect on its own. -/
def orderMixed (fs : FileSystem) (extensions : Extensions) (paths : List String) :
    Except OrderError Ordered := do
  let groups ← analyzeGroups fs none extensions paths
  let files ← (sortGroups groups).mapError .sort
  return ⟨files, groups.flatMap (·.analysis.warnings)⟩

end BuildOrder
