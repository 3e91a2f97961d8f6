/-! Dependency graphs of named nodes in insertion order. -/
namespace BuildOrder

/-- A node and the positions of the nodes that it needs first, in the order they were added. -/
structure Node where
  name : String
  dependencies : List Nat := []
  deriving DecidableEq

/-- A node's identity is its position. -/
structure Graph where
  nodes : List Node := []
  deriving DecidableEq

/-- Node names, each with the names of dependencies. -/
abbrev Listing := List (String × List String)

namespace Graph

def empty : Graph := {}

def size (g : Graph) : Nat :=
  g.nodes.length

def ids (g : Graph) : List Nat :=
  List.range g.size

def find? (g : Graph) (name : String) : Option Nat :=
  g.nodes.findIdx? (·.name = name)

def dependencies (g : Graph) (id : Nat) : List Nat :=
  (g.nodes[id]?.map (·.dependencies)).getD []

def nameOf (g : Graph) (id : Nat) : String :=
  (g.nodes[id]?.map (·.name)).getD ""

def names (g : Graph) (ids : List Nat) : List String :=
  ids.map g.nameOf

/-- A name that is there already keeps its node. -/
def addNode (g : Graph) (name : String) : Graph × Nat :=
  match g.find? name with
  | some id => (g, id)
  | none => (⟨g.nodes ++ [⟨name, []⟩]⟩, g.size)

/-- Whether the edge may be added: it joins two different nodes and is not there yet. -/
def admits (g : Graph) (dependent prerequisite : Nat) : Bool :=
  dependent < g.size && prerequisite < g.size && dependent ≠ prerequisite &&
    prerequisite ∉ g.dependencies dependent

/-- Adds an edge unless it is not admitted, and tells whether it did. -/
def addDependency (g : Graph) (dependent prerequisite : Nat) : Graph × Bool :=
  if g.admits dependent prerequisite then
    let extended (node : Node) :=
      { node with dependencies := node.dependencies ++ [prerequisite] }
    (⟨g.nodes.modify dependent extended⟩, true)
  else (g, false)

def edgeCount (g : Graph) : Nat :=
  (g.nodes.flatMap (·.dependencies)).length

/-- Each edge as the names of its dependent and its prerequisite. -/
def edges (g : Graph) : List (String × String) :=
  g.nodes.flatMap fun node => node.dependencies.map fun id => (node.name, g.nameOf id)

def adjacency (g : Graph) : Listing :=
  g.nodes.map fun node => (node.name, g.names node.dependencies)

/-- The nodes that depend on `id`, in insertion order. -/
def dependentsOf (g : Graph) (id : Nat) : List Nat :=
  (g.nodes.zipIdx.filter fun (node, _) => id ∈ node.dependencies).map (·.2)

def dependents (g : Graph) : List (List Nat) :=
  g.ids.map g.dependentsOf

end Graph
end BuildOrder
