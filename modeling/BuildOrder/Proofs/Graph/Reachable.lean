import BuildOrder.Graph.Basic
import BuildOrder.Proofs.Distinct

/-! The graphs that adding nodes and edges can make, and what all of them satisfy: names are not
repeated, and the dependencies of a node are other nodes of the graph, each listed once. -/
namespace BuildOrder.Graph

@[simp] theorem mem_ids {g : Graph} {v : Nat} : v ∈ g.ids ↔ v < g.size := by
  simp [ids]

theorem nodup_ids (g : Graph) : g.ids.Nodup :=
  List.nodup_range

@[simp] theorem length_ids (g : Graph) : g.ids.length = g.size := by
  simp [ids]

theorem idxOf_ids {g : Graph} {v : Nat} (hv : v < g.size) : g.ids.idxOf v = v := by
  have hidx := g.nodup_ids.idxOf_getElem v (by rwa [length_ids])
  simpa [ids] using hidx

theorem dependencies_of_getElem? {g : Graph} {v : Nat} {node : Node}
    (hv : g.nodes[v]? = some node) : g.dependencies v = node.dependencies := by
  simp [dependencies, hv]

theorem nameOf_of_getElem? {g : Graph} {v : Nat} {node : Node}
    (hv : g.nodes[v]? = some node) : g.nameOf v = node.name := by
  simp [nameOf, hv]

theorem lt_size_of_mem_dependencies {g : Graph} {v d : Nat} (hd : d ∈ g.dependencies v) :
    v < g.size := by
  by_contra hv
  have hnone : g.nodes[v]? = none := List.getElem?_eq_none (by simpa [size] using hv)
  simp [dependencies, hnone] at hd

theorem names_ids (g : Graph) : g.names g.ids = g.nodes.map (·.name) := by
  apply List.ext_getElem?
  intro v
  by_cases hv : v < g.nodes.length
  · simp [names, ids, size, nameOf, hv]
  · simp [names, ids, size, hv]

/-- The names that the node of a name depends on. -/
def dependencyNames? (g : Graph) (name : String) : Option (List String) :=
  (g.find? name).map fun id => g.names (g.dependencies id)

theorem getElem?_names {g : Graph} {v : Nat} (hv : v < g.size) :
    (g.nodes.map (·.name))[v]? = some (g.nameOf v) := by
  have hlt : v < g.nodes.length := hv
  simp [nameOf, hlt]

theorem find?_eq_none {g : Graph} {name : String} :
    g.find? name = none ↔ name ∉ g.nodes.map (·.name) := by
  simp [find?, List.findIdx?_eq_none_iff]

theorem isSome_find?_iff {g : Graph} {name : String} :
    (g.find? name).isSome ↔ name ∈ g.nodes.map (·.name) := by
  rw [Option.isSome_iff_ne_none, ne_eq, find?_eq_none, not_not]

theorem find?_some {g : Graph} {name : String} {v : Nat} (hv : g.find? name = some v) :
    v < g.size ∧ g.nameOf v = name := by
  obtain ⟨hlt, hname, -⟩ := List.findIdx?_eq_some_iff_getElem.mp hv
  exact ⟨hlt, by simpa [nameOf, hlt] using hname⟩

theorem addNode_of_mem {g : Graph} {name : String} (hname : name ∈ g.nodes.map (·.name)) :
    (g.addNode name).1 = g := by
  cases hfind : g.find? name with
  | none => exact absurd hname (find?_eq_none.mp hfind)
  | some id => simp [addNode, hfind]

theorem addNode_of_not_mem {g : Graph} {name : String} (hname : name ∉ g.nodes.map (·.name)) :
    (g.addNode name).1 = ⟨g.nodes ++ [⟨name, []⟩]⟩ := by
  simp [addNode, find?_eq_none.mpr hname]

@[simp] theorem dependencies_addNode (g : Graph) (name : String) (v : Nat) :
    (g.addNode name).1.dependencies v = g.dependencies v := by
  by_cases hname : name ∈ g.nodes.map (·.name)
  · rw [addNode_of_mem hname]
  · rw [addNode_of_not_mem hname]
    rcases Nat.lt_trichotomy v g.nodes.length with hv | rfl | hv
    · simp [dependencies, List.getElem?_append_left hv]
    · simp [dependencies]
    · have hnone : (g.nodes ++ [⟨name, []⟩])[v]? = none := List.getElem?_eq_none (by simp; omega)
      simp [dependencies, hnone, List.getElem?_eq_none (Nat.le_of_lt hv)]

theorem size_le_addNode (g : Graph) (name : String) : g.size ≤ (g.addNode name).1.size := by
  by_cases hname : name ∈ g.nodes.map (·.name)
  · exact Nat.le_of_eq (congrArg size (addNode_of_mem hname)).symm
  · rw [addNode_of_not_mem hname]
    simp [size]

theorem admits_iff {g : Graph} {dependent prerequisite : Nat} :
    g.admits dependent prerequisite = true ↔ dependent < g.size ∧ prerequisite < g.size ∧
      dependent ≠ prerequisite ∧ prerequisite ∉ g.dependencies dependent := by
  simp [admits, and_assoc]

@[simp] theorem names_addDependency (g : Graph) (dependent prerequisite : Nat) :
    (g.addDependency dependent prerequisite).1.nodes.map (·.name) = g.nodes.map (·.name) := by
  unfold addDependency
  split
  · apply List.ext_getElem?
    intro v
    simp only [List.getElem?_map, List.getElem?_modify]
    split <;> simp [Function.comp_def]
  · rfl

@[simp] theorem size_addDependency (g : Graph) (dependent prerequisite : Nat) :
    (g.addDependency dependent prerequisite).1.size = g.size := by
  have hlen := congrArg List.length (names_addDependency g dependent prerequisite)
  rwa [List.length_map, List.length_map] at hlen

/-- An admitted edge is appended to the dependencies of its dependent, and nothing else changes. -/
theorem dependencies_addDependency (g : Graph) (dependent prerequisite v : Nat) :
    (g.addDependency dependent prerequisite).1.dependencies v =
      if v = dependent ∧ g.admits dependent prerequisite = true then
        g.dependencies v ++ [prerequisite]
      else g.dependencies v := by
  by_cases ha : g.admits dependent prerequisite = true
  · simp only [addDependency, ha, if_true, and_true, dependencies, List.getElem?_modify]
    by_cases hv : v = dependent
    · subst hv
      have hlt : v < g.nodes.length := (admits_iff.mp ha).1
      simp [hlt]
    · simp [hv, Ne.symm hv]
  · simp [addDependency, ha]

structure WellFormed (g : Graph) : Prop where
  nodup_names : (g.nodes.map (·.name)).Nodup
  lt_size : ∀ {v d : Nat}, d ∈ g.dependencies v → d < g.size
  not_mem_self : ∀ v, v ∉ g.dependencies v
  nodup_dependencies : ∀ v, (g.dependencies v).Nodup

theorem WellFormed.nameOf_inj {g : Graph} (h : g.WellFormed) {v w : Nat} (hv : v < g.size)
    (hw : w < g.size) (hname : g.nameOf v = g.nameOf w) : v = w := by
  have hlt : v < (g.nodes.map (·.name)).length := by simpa [size] using hv
  exact List.getElem?_inj hlt h.nodup_names |>.mp
    (by rw [getElem?_names hv, getElem?_names hw, hname])

theorem wellFormed_empty : empty.WellFormed where
  nodup_names := List.nodup_nil
  lt_size hd := by simp [dependencies, empty] at hd
  not_mem_self v := by simp [dependencies, empty]
  nodup_dependencies v := by simp [dependencies, empty]

theorem WellFormed.addNode {g : Graph} (h : g.WellFormed) (name : String) :
    (g.addNode name).1.WellFormed where
  nodup_names := by
    by_cases hname : name ∈ g.nodes.map (·.name)
    · rw [addNode_of_mem hname]
      exact h.nodup_names
    · rw [addNode_of_not_mem hname, List.map_append]
      exact nodup_append_singleton h.nodup_names hname
  lt_size hd := by
    rw [dependencies_addNode] at hd
    exact Nat.lt_of_lt_of_le (h.lt_size hd) (size_le_addNode g name)
  not_mem_self v := by
    rw [dependencies_addNode]
    exact h.not_mem_self v
  nodup_dependencies v := by
    rw [dependencies_addNode]
    exact h.nodup_dependencies v

theorem WellFormed.addDependency {g : Graph} (h : g.WellFormed) (dependent prerequisite : Nat) :
    (g.addDependency dependent prerequisite).1.WellFormed where
  nodup_names := by
    rw [names_addDependency]
    exact h.nodup_names
  lt_size {v d} hd := by
    rw [dependencies_addDependency] at hd
    rw [size_addDependency]
    split at hd
    next hadd =>
      rcases List.mem_append.mp hd with hd | hd
      · exact h.lt_size hd
      · rw [List.mem_singleton.mp hd]
        exact (admits_iff.mp hadd.2).2.1
    next => exact h.lt_size hd
  not_mem_self v := by
    rw [dependencies_addDependency]
    split
    next hadd =>
      obtain ⟨rfl, ha⟩ := hadd
      simpa [h.not_mem_self v] using (admits_iff.mp ha).2.2.1
    next => exact h.not_mem_self v
  nodup_dependencies v := by
    rw [dependencies_addDependency]
    split
    next hadd =>
      obtain ⟨rfl, ha⟩ := hadd
      exact nodup_append_singleton (h.nodup_dependencies v) (admits_iff.mp ha).2.2.2
    next => exact h.nodup_dependencies v

/-- The graphs made from the empty one by adding nodes, and edges between nodes that are there. -/
inductive Reachable : Graph → Prop
  | empty : Reachable empty
  | addNode {g : Graph} (h : Reachable g) (name : String) : Reachable (g.addNode name).1
  | addDependency {g : Graph} (h : Reachable g) {dependent prerequisite : Nat}
      (hd : dependent < g.size) (hp : prerequisite < g.size) :
      Reachable (g.addDependency dependent prerequisite).1

theorem Reachable.wellFormed {g : Graph} (h : g.Reachable) : g.WellFormed := by
  induction h with
  | empty => exact wellFormed_empty
  | addNode _ name ih => exact ih.addNode name
  | addDependency _ _ _ ih => exact ih.addDependency _ _

/-- A refused edge leaves the graph as it is, so that the ends need not be looked at. -/
theorem Reachable.addDependency_of_any {g : Graph} (h : g.Reachable) (dependent prerequisite : Nat) :
    (g.addDependency dependent prerequisite).1.Reachable := by
  by_cases ha : g.admits dependent prerequisite = true
  · obtain ⟨hd, hp, -⟩ := admits_iff.mp ha
    exact h.addDependency hd hp
  · rwa [Graph.addDependency, if_neg ha]

def addDependencies (g : Graph) (dependent : Nat) (prerequisites : List Nat) : Graph :=
  prerequisites.foldl (fun g prerequisite => (g.addDependency dependent prerequisite).1) g

theorem addDependencies_append_singleton (g : Graph) (v : Nat) (ps : List Nat) (p : Nat) :
    g.addDependencies v (ps ++ [p]) = ((g.addDependencies v ps).addDependency v p).1 := by
  simp [addDependencies]

@[simp] theorem names_addDependencies (g : Graph) (v : Nat) (ps : List Nat) :
    (g.addDependencies v ps).nodes.map (·.name) = g.nodes.map (·.name) := by
  induction ps using List.reverseRecOn with
  | nil => rfl
  | append_singleton ps p ih => rw [addDependencies_append_singleton, names_addDependency, ih]

/-- A node without dependencies gets the given ones, each once. -/
theorem nodes_addDependencies {g : Graph} {v : Nat} {name : String} {prerequisites : List Nat}
    (hv : g.nodes[v]? = some ⟨name, []⟩) (hp : ∀ p ∈ prerequisites, p < g.size ∧ v ≠ p) :
    (g.addDependencies v prerequisites).nodes = g.nodes.set v ⟨name, prerequisites.eraseDups⟩ := by
  obtain ⟨hlt, hnode⟩ := List.getElem?_eq_some_iff.mp hv
  induction prerequisites using List.reverseRecOn with
  | nil =>
    rw [List.eraseDups_nil, ← hnode, List.set_getElem_self]
    rfl
  | append_singleton ps p ih =>
    have ih := ih fun q hq => hp q (List.mem_append_left [p] hq)
    obtain ⟨hpsize, hvp⟩ := hp p (by simp)
    have hsize : (g.addDependencies v ps).size = g.size := by
      rw [size, ih, List.length_set, size]
    have hdeps : (g.addDependencies v ps).dependencies v = ps.eraseDups := by
      simp [dependencies, ih, hlt]
    have hadmits : (g.addDependencies v ps).admits v p = true ↔ p ∉ ps := by
      rw [admits_iff, hsize, hdeps, List.mem_eraseDups]
      exact ⟨fun h => h.2.2.2, fun h => ⟨hlt, hpsize, hvp, h⟩⟩
    rw [addDependencies_append_singleton, eraseDups_append_singleton]
    by_cases hmem : p ∈ ps
    · have hrefused : ¬ (g.addDependencies v ps).admits v p = true := by simpa [hadmits] using hmem
      simp [addDependency, hrefused, ih, hmem]
    · apply List.ext_getElem?
      intro w
      by_cases hw : v = w
      · subst hw
        simp [addDependency, hadmits.mpr hmem, ih, hmem, hlt]
      · simp [addDependency, hadmits.mpr hmem, ih, hw]

theorem Reachable.addDependencies {g : Graph} (h : g.Reachable) (dependent : Nat)
    (prerequisites : List Nat) : (g.addDependencies dependent prerequisites).Reachable := by
  induction prerequisites generalizing g with
  | nil => exact h
  | cons p ps ih => exact ih (h.addDependency_of_any dependent p)

/-- The graph with the given names, where each node gets its prerequisites. -/
def ofLists (nodes : List (String × List Nat)) : Graph :=
  nodes.zipIdx.foldl (fun g node => g.addDependencies node.2 node.1.2)
    (nodes.foldl (fun g node => (g.addNode node.1).1) empty)

theorem reachable_ofLists (nodes : List (String × List Nat)) : (ofLists nodes).Reachable := by
  refine List.foldlRecOn _ _ ?_ fun g hg node _ => hg.addDependencies node.2 node.1.2
  exact List.foldlRecOn _ _ .empty fun g hg node _ => hg.addNode node.1

end BuildOrder.Graph
