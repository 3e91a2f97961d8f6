import BuildOrder.Graph.Basic

/-! A markdown account of what each node requires and what requires it. -/
namespace BuildOrder.Graph

/-- Whether a node is an end of an edge. -/
def isLinked (g : Graph) (id : Nat) : Bool :=
  g.dependencies id ≠ [] || g.dependentsOf id ≠ []

def reportField (label : String) (names : List String) (whenEmpty : String) : String :=
  let value := if names = [] then "(" ++ whenEmpty ++ ")" else String.intercalate ", " names
  "**" ++ label ++ ":** " ++ value ++ "\n\n"

def reportSection (g : Graph) (id : Nat) : String :=
  "## `" ++ g.nameOf id ++ "`\n\n" ++
    reportField "Requires" (g.names (g.dependencies id)) "none - root" ++
    reportField "Required by" (g.names (g.dependentsOf id)) "none"

/-- Nodes without edges have no section. -/
def report (g : Graph) : String :=
  let linked := g.ids.filter g.isLinked
  "# dependencies\n\n" ++ toString g.size ++ " files, " ++ toString g.edgeCount ++ " edges\n\n" ++
    (if linked = [] then "*No dependency relationships detected.*\n"
    else String.join (linked.map g.reportSection))

end BuildOrder.Graph
