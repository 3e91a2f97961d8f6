import BuildOrder.Graph.Basic

/-! A build order by repeated removal of nodes whose dependencies are all placed. -/
namespace BuildOrder

/-- Why a graph has no build order. -/
inductive SortError where
  /-- Every node has a dependency. -/
  | noRoots (adjacency : Listing)
  /-- The nodes that wait for each other, with the dependencies that they wait for. -/
  | cycle (residual : Listing)
  deriving DecidableEq

namespace SortError

def listing : SortError → Listing
  | noRoots adjacency => adjacency
  | cycle residual => residual

def headline : SortError → String
  | noRoots _ => "all files have dependencies, no starting point:"
  | cycle _ => "dependency graph has at least one cycle:"

def entryText (entry : String × List String) : String :=
  "  " ++ entry.1 ++ " -> [" ++ String.intercalate ", " entry.2 ++ "]"

def message (e : SortError) : String :=
  e.headline ++ "\n" ++ String.intercalate "\n" (e.listing.map entryText)

end SortError

namespace Graph

/-- A sort under way: how many dependencies of each node are not placed yet, the nodes that may be
placed next, and the nodes already placed. -/
structure Progress where
  remaining : List Nat
  frontier : List Nat
  placed : List Nat
  deriving DecidableEq

def roots (g : Graph) : List Nat :=
  g.ids.filter fun id => g.dependencies id = []

def start (g : Graph) : Progress where
  remaining := g.nodes.map (·.dependencies.length)
  frontier := g.roots
  placed := []

/-- Places the first node of the frontier. Each of its dependents has one dependency less to wait
for, and those that wait for none any more join the frontier. -/
def step (g : Graph) (p : Progress) : Progress :=
  match p.frontier with
  | [] => p
  | id :: rest =>
    let dependents := g.dependentsOf id
    let remaining := p.remaining.mapIdx fun v count => if v ∈ dependents then count - 1 else count
    { remaining
      frontier := rest ++ dependents.filter fun v => remaining[v]? = some 0
      placed := p.placed ++ [id] }

def after (g : Graph) : Nat → Progress
  | 0 => g.start
  | k + 1 => g.step (g.after k)

/-- The nodes placed in the end: each step places one, so there are no more steps than nodes. -/
def placed (g : Graph) : List Nat :=
  (g.after g.size).placed

/-- The nodes left out of `placed`, each with its dependencies that are left out too. -/
def residual (g : Graph) (placed : List Nat) : Listing :=
  (g.ids.filter (· ∉ placed)).map fun id =>
    (g.nameOf id, g.names ((g.dependencies id).filter (· ∉ placed)))

def sortIds (g : Graph) : Except SortError (List Nat) :=
  if g.roots = [] ∧ g.size ≠ 0 then .error (.noRoots g.adjacency)
  else
    let placed := g.placed
    if placed.length < g.size then .error (.cycle (g.residual placed)) else .ok placed

/-- The names in build order, prerequisites first. -/
def sort (g : Graph) : Except SortError (List String) :=
  g.sortIds.map g.names

end Graph
end BuildOrder
