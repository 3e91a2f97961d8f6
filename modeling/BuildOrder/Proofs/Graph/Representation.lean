import BuildOrder.Proofs.Graph.Checked
import BuildOrder.Proofs.Graph.Names

/-! How a graph is represented: what each change keeps and what it adds. Nodes keep their positions
forever, an index of the names can stand in for a search through the nodes, and no position that the
graph holds is out of bounds. -/
namespace BuildOrder

namespace Graph

theorem find?_addNew (g : Graph) (name other : String) :
    Graph.find? ⟨g.nodes ++ [⟨name, []⟩]⟩ other =
      (g.find? other).or (if name = other then some g.size else none) := by
  rw [find?, List.findIdx?_append, find?]
  by_cases h : name = other <;> simp [h, size]

theorem find?_eq_findIdx? (g : Graph) (name : String) :
    g.find? name = (g.nodes.map (·.name)).findIdx? (· = name) := by
  rw [List.findIdx?_map]
  rfl

theorem find?_addDependency (g : Graph) (dependent prerequisite : Nat) (name : String) :
    (g.addDependency dependent prerequisite).1.find? name = g.find? name := by
  rw [find?_eq_findIdx?, names_addDependency, ← find?_eq_findIdx?]

end Graph

/-- A graph with an index of its names beside it. The index is asked instead of the nodes. -/
structure IndexedGraph where
  graph : Graph
  index : List (String × Nat)

namespace IndexedGraph

def addNode (g : IndexedGraph) (name : String) : IndexedGraph × Nat :=
  match g.index.lookup name with
  | some id => (g, id)
  | none =>
    (⟨⟨g.graph.nodes ++ [⟨name, []⟩]⟩, (name, g.graph.size) :: g.index⟩, g.graph.size)

def addDependency (g : IndexedGraph) (dependent prerequisite : Nat) : IndexedGraph × Bool :=
  let (graph, added) := g.graph.addDependency dependent prerequisite
  ({ g with graph }, added)

inductive Reachable : IndexedGraph → Prop
  | empty : Reachable ⟨.empty, []⟩
  | addNode {g : IndexedGraph} (h : Reachable g) (name : String) : Reachable (g.addNode name).1
  | addDependency {g : IndexedGraph} (h : Reachable g) {dependent prerequisite : Nat}
      (hd : dependent < g.graph.size) (hp : prerequisite < g.graph.size) :
      Reachable (g.addDependency dependent prerequisite).1

/-- The index and the nodes stay in step. -/
theorem Reachable.lookup_eq {g : IndexedGraph} (h : g.Reachable) (name : String) :
    g.index.lookup name = g.graph.find? name := by
  induction h with
  | empty => rfl
  | @addNode g _ new ih =>
    cases hnew : g.index.lookup new with
    | some id => simpa [IndexedGraph.addNode, hnew] using ih
    | none =>
      simp only [IndexedGraph.addNode, hnew, Graph.find?_addNew, List.lookup_cons]
      by_cases heq : name = new
      · subst heq
        simp [← ih, hnew]
      · simp [beq_false_of_ne heq, Ne.symm heq, ih]
  | addDependency _ _ _ ih => exact ih.trans (Graph.find?_addDependency _ _ _ _).symm

theorem Reachable.addNode_eq {g : IndexedGraph} (h : g.Reachable) (name : String) :
    ((g.addNode name).1.graph, (g.addNode name).2) = g.graph.addNode name := by
  cases hfind : g.graph.find? name with
  | some id => simp [IndexedGraph.addNode, Graph.addNode, h.lookup_eq, hfind]
  | none => simp [IndexedGraph.addNode, Graph.addNode, h.lookup_eq, hfind]

/-- Each graph can be made with an index beside it. -/
theorem exists_reachable {g : Graph} (h : g.Reachable) : ∃ index, Reachable ⟨g, index⟩ := by
  induction h with
  | empty => exact ⟨[], .empty⟩
  | @addNode g _ name ih =>
    obtain ⟨index, hindex⟩ := ih
    have hgraph : (addNode ⟨g, index⟩ name).1.graph = (g.addNode name).1 :=
      congrArg Prod.fst (hindex.addNode_eq name)
    refine ⟨(addNode ⟨g, index⟩ name).1.index, ?_⟩
    rw [← hgraph]
    exact hindex.addNode name
  | addDependency _ hd hp ih =>
    obtain ⟨index, hindex⟩ := ih
    exact ⟨index, hindex.addDependency hd hp⟩

end IndexedGraph

namespace Graph

/-- The graphs that changes can make of a graph. -/
inductive Extends (g : Graph) : Graph → Prop
  | refl : Extends g g
  | addNode {later : Graph} (h : Extends g later) (name : String) : Extends g (later.addNode name).1
  | addDependency {later : Graph} (h : Extends g later) {dependent prerequisite : Nat}
      (hd : dependent < later.size) (hp : prerequisite < later.size) :
      Extends g (later.addDependency dependent prerequisite).1

theorem Extends.reachable {g later : Graph} (he : g.Extends later) (h : g.Reachable) :
    later.Reachable := by
  induction he with
  | refl => exact h
  | addNode _ name ih => exact ih.addNode name
  | addDependency _ hd hp ih => exact ih.addDependency hd hp

theorem Extends.names_prefix {g later : Graph} (he : g.Extends later) :
    g.nodes.map (·.name) <+: later.nodes.map (·.name) := by
  induction he with
  | refl => exact List.prefix_rfl
  | @addNode later _ name ih =>
    by_cases hname : name ∈ later.nodes.map (·.name)
    · rwa [addNode_of_mem hname]
    · rw [addNode_of_not_mem hname, List.map_append]
      exact ih.trans (List.prefix_append _ _)
  | addDependency _ _ _ ih => rwa [names_addDependency]

/-- A name keeps its position. -/
theorem Extends.nameOf_eq {g later : Graph} (he : g.Extends later) {v : Nat} (hv : v < g.size) :
    v < later.size ∧ later.nameOf v = g.nameOf v := by
  have hlt : v < (g.nodes.map (·.name)).length := by simpa [size] using hv
  have hsize : v < later.size := by
    simpa [size] using hlt.trans_le he.names_prefix.length_le
  obtain ⟨added, hadded⟩ := he.names_prefix
  refine ⟨hsize, Option.some.inj ?_⟩
  rw [← getElem?_names hsize, ← hadded, List.getElem?_append_left hlt, getElem?_names hv]

theorem find?_eq_some_iff {g : Graph} (hg : g.WellFormed) {name : String} {v : Nat} :
    g.find? name = some v ↔ ∃ node, g.nodes[v]? = some node ∧ node.name = name := by
  constructor
  · intro hfind
    obtain ⟨hv, hname⟩ := find?_some hfind
    have hnode : g.nodes[v]? = some g.nodes[v] := List.getElem?_eq_getElem hv
    exact ⟨g.nodes[v], hnode, (nameOf_of_getElem? hnode).symm.trans hname⟩
  · rintro ⟨node, hnode, rfl⟩
    rw [← nameOf_of_getElem? hnode]
    exact find?_nameOf hg (List.getElem?_eq_some_iff.mp hnode).1

theorem addNode_of_find? {g : Graph} {name : String} {v : Nat} (hfind : g.find? name = some v) :
    g.addNode name = (g, v) := by
  rw [addNode, hfind]

theorem nameOf_addNode (g : Graph) (name : String) :
    (g.addNode name).2 < (g.addNode name).1.size ∧
      (g.addNode name).1.nameOf (g.addNode name).2 = name := by
  cases hfind : g.find? name with
  | some v =>
    rw [addNode_of_find? hfind]
    exact find?_some hfind
  | none => simp [addNode, hfind, size, nameOf]

section AddDependency

variable {g : Graph} {v d : Nat}

theorem addDependency_snd_iff (hv : v < g.size) (hd : d < g.size) :
    (g.addDependency v d).2 = true ↔ v ≠ d ∧ d ∉ g.dependencies v := by
  rw [addDependency]
  split
  next ha => simpa using (admits_iff.mp ha).2.2
  next ha =>
    rw [admits_iff] at ha
    simpa using fun hne hmem => ha ⟨hv, hd, hne, hmem⟩

theorem addDependency_of_refused (h : (g.addDependency v d).2 = false) :
    (g.addDependency v d).1 = g := by
  rw [addDependency] at h ⊢
  split at h
  next => cases h
  next ha => rw [if_neg ha]

theorem nodes_addDependency (h : (g.addDependency v d).2 = true) :
    v < g.size ∧ (g.addDependency v d).1.nodes =
      g.nodes.modify v fun node => { node with dependencies := node.dependencies ++ [d] } := by
  rw [addDependency] at h ⊢
  split at h
  next ha =>
    rw [if_pos ha]
    exact ⟨(admits_iff.mp ha).1, rfl⟩
  next => cases h

theorem edgeCount_addDependency (h : (g.addDependency v d).2 = true) :
    (g.addDependency v d).1.edgeCount = g.edgeCount + 1 := by
  obtain ⟨hv, hnodes⟩ := nodes_addDependency h
  have hlt : v < g.nodes.length := hv
  have hsplit : g.nodes = g.nodes.take v ++ g.nodes[v] :: g.nodes.drop (v + 1) := by
    rw [List.getElem_cons_drop hlt, List.take_append_drop]
  rw [edgeCount, edgeCount, hnodes, List.modify_eq_take_cons_drop hlt]
  conv_rhs => rw [hsplit]
  simp only [List.flatMap_append, List.flatMap_cons, List.length_append, List.length_singleton]
  omega

end AddDependency

/-- What holds of a graph after any changes. Its names are distinct and found where they are, and
its edges lead to other nodes of the graph, each once. A name that is known is not added again; the
position of a name stays the same whatever is changed later; an edge is added exactly if it is new
and no loop, and nothing else changes then. An index of the names that is kept beside the graph
agrees with it, and no look-up of a view or a sort is out of bounds. -/
theorem Reachable.representation {g : Graph} (h : g.Reachable) :
    (g.WellFormed ∧ ∀ name v,
      g.find? name = some v ↔ ∃ node, g.nodes[v]? = some node ∧ node.name = name) ∧
    (∀ name v, g.find? name = some v → g.addNode name = (g, v)) ∧
    (∀ name later, (g.addNode name).1.Extends later →
      later.nameOf (g.addNode name).2 = name ∧ later.find? name = some (g.addNode name).2) ∧
    (∀ v < g.size, ∀ d < g.size,
      ((g.addDependency v d).2 = true ↔ v ≠ d ∧ d ∉ g.dependencies v) ∧
      ((g.addDependency v d).2 = true →
        (g.addDependency v d).1.edgeCount = g.edgeCount + 1 ∧ (g.addDependency v d).1.nodes =
          g.nodes.modify v fun node => { node with dependencies := node.dependencies ++ [d] }) ∧
      ((g.addDependency v d).2 = false → (g.addDependency v d).1 = g)) ∧
    ((∃ index, IndexedGraph.Reachable ⟨g, index⟩) ∧
      ∀ index, IndexedGraph.Reachable ⟨g, index⟩ → ∀ name, index.lookup name = g.find? name) ∧
    (∀ ids, (∀ id ∈ ids, id < g.size) → g.names? ids = some (g.names ids)) ∧
    g.edges? = some g.edges ∧ g.adjacency? = some g.adjacency ∧
    g.dependents? = some g.dependents ∧ g.sort? = some g.sort := by
  have hg := h.wellFormed
  refine ⟨⟨hg, fun name v => find?_eq_some_iff hg⟩, fun name v => addNode_of_find?,
    fun name later he => ?_, fun v hv d hd => ?_, ?_, fun ids => names?_eq, edges?_eq hg,
    adjacency?_eq hg, dependents?_eq hg, sort?_eq hg⟩
  · obtain ⟨hv, hname⟩ := nameOf_addNode g name
    obtain ⟨hv', hname'⟩ := he.nameOf_eq hv
    have hfind := find?_nameOf (he.reachable (h.addNode name)).wellFormed hv'
    have hkept := hname'.trans hname
    rw [hkept] at hfind
    exact ⟨hkept, hfind⟩
  · refine ⟨addDependency_snd_iff hv hd, fun hadded => ?_, addDependency_of_refused⟩
    exact ⟨edgeCount_addDependency hadded, (nodes_addDependency hadded).2⟩
  · exact ⟨IndexedGraph.exists_reachable h, fun index hindex => hindex.lookup_eq⟩

/-- In a graph with a cycle a new edge is added and found again, and a sort tells of the cycle. -/
theorem representation_of_cycle :
    let g := ofLists [("a", [1]), ("b", [2]), ("c", [1]), ("leaf", [])]
    (g.addDependency 0 3).2 = true ∧ (g.addDependency 0 3).1.edgeCount = g.edgeCount + 1 ∧
      ((g.addNode "d").1.addDependency 3 4).1.find? "d" = some 4 ∧ g.sort? = some g.sort := by
  intro g
  have hadded : (g.addDependency 0 3).2 = true := by decide
  obtain ⟨-, -, hkept, hedges, -, -, -, -, -, hsort⟩ :=
    Reachable.representation (g := g) (reachable_ofLists _)
  have hlater : (g.addNode "d").1.Extends ((g.addNode "d").1.addDependency 3 4).1 :=
    Extends.refl.addDependency (by decide) (by decide)
  have hedge := hedges 0 (by decide) 3 (by decide)
  exact ⟨hadded, (hedge.2.1 hadded).1, (hkept "d" _ hlater).2, hsort⟩

end Graph
end BuildOrder
