import BuildOrder.Proofs.Graph.Checked
import BuildOrder.Proofs.Graph.Report

/-! The views of a graph tell the same edges: its dependencies node by node, its dependents, and the
pairs and lists of names. -/
namespace BuildOrder.Graph

theorem map_dependencies_ids (g : Graph) :
    g.ids.map g.dependencies = g.nodes.map (·.dependencies) := by
  apply List.ext_getElem?
  intro v
  by_cases hv : v < g.nodes.length
  · simp [ids, size, dependencies, hv]
  · simp [ids, size, hv]

theorem getElem?_dependents_eq_some {g : Graph} {v : Nat} {list : List Nat} :
    g.dependents[v]? = some list ↔ v < g.size ∧ list = g.dependentsOf v := by
  unfold dependents ids
  by_cases hv : v < g.size
  · simp [hv, eq_comm]
  · simp [hv]

theorem pairwise_lt_dependentsOf (g : Graph) (id : Nat) :
    (g.dependentsOf id).Pairwise (· < ·) :=
  List.pairwise_lt_range.sublist (dependentsOf_sublist_ids g id)

theorem count_dependentsOf (g : Graph) (id v : Nat) :
    (g.dependentsOf id).count v = if id ∈ g.dependencies v then 1 else 0 := by
  rw [(g.nodup_dependentsOf id).count]
  simp only [mem_dependentsOf]

section Edges

variable {g : Graph} (hg : g.WellFormed)
include hg

/-- Collected from their prerequisites, the edges are the same as from their dependents. -/
theorem flatMap_dependentsOf_perm :
    (g.ids.flatMap fun d => (g.dependentsOf d).map fun v => (v, d)).Perm
      (g.ids.flatMap fun v => (g.dependencies v).map fun d => (v, d)) := by
  rw [List.perm_ext_iff_of_nodup]
  · intro edge
    obtain ⟨v, d⟩ := edge
    simp only [List.mem_flatMap, List.mem_map, mem_ids, mem_dependentsOf, Prod.mk.injEq]
    constructor
    · intro h
      obtain ⟨d, -, v, hd, rfl, rfl⟩ := h
      exact ⟨v, lt_size_of_mem_dependencies hd, d, hd, rfl, rfl⟩
    · intro h
      obtain ⟨v, -, d, hd, rfl, rfl⟩ := h
      exact ⟨d, hg.lt_size hd, v, hd, rfl, rfl⟩
  · refine nodup_flatMap_of_key Prod.snd ?_ g.nodup_ids ?_
    · intro d edge hedge
      obtain ⟨v, -, rfl⟩ := List.mem_map.mp hedge
      rfl
    · intro d _
      exact (g.nodup_dependentsOf d).map fun v w heq => (Prod.mk.inj heq).1
  · refine nodup_flatMap_of_key Prod.fst ?_ g.nodup_ids ?_
    · intro v edge hedge
      obtain ⟨d, -, rfl⟩ := List.mem_map.mp hedge
      rfl
    · intro v _
      exact (hg.nodup_dependencies v).map fun d e heq => (Prod.mk.inj heq).2

theorem length_flatten_dependents : g.dependents.flatten.length = g.edgeCount := by
  have hnodes : g.ids.flatMap g.dependencies = g.nodes.flatMap (·.dependencies) :=
    congrArg List.flatten g.map_dependencies_ids
  calc g.dependents.flatten.length
      = (g.ids.flatMap fun d => (g.dependentsOf d).map fun v => (v, d)).length := by
        simp only [dependents, List.length_flatten, List.length_flatMap, List.map_map,
          List.length_map, Function.comp_def]
    _ = (g.ids.flatMap fun v => (g.dependencies v).map fun d => (v, d)).length :=
        (flatMap_dependentsOf_perm hg).length_eq
    _ = (g.ids.flatMap g.dependencies).length := by
        simp only [List.length_flatMap, List.length_map]
    _ = g.edgeCount := by rw [hnodes, edgeCount]

theorem mem_edges_iff_find? {a b : String} :
    (a, b) ∈ g.edges ↔ ∃ i j list, g.find? a = some i ∧ g.find? b = some j ∧
      g.dependents[j]? = some list ∧ i ∈ list := by
  rw [mem_edges_iff_dependencies hg]
  constructor
  · intro hedge
    obtain ⟨v, d, hd, rfl, rfl⟩ := hedge
    have hv := lt_size_of_mem_dependencies hd
    have hlt := hg.lt_size hd
    exact ⟨v, d, g.dependentsOf d, find?_nameOf hg hv, find?_nameOf hg hlt,
      getElem?_dependents_eq_some.mpr ⟨hlt, rfl⟩, mem_dependentsOf.mpr hd⟩
  · intro hfound
    obtain ⟨i, j, list, hi, hj, hlist, hmem⟩ := hfound
    obtain ⟨-, rfl⟩ := getElem?_dependents_eq_some.mp hlist
    exact ⟨i, j, mem_dependentsOf.mp hmem, (find?_some hi).2, (find?_some hj).2⟩

end Edges

/-- All views tell the same edges. The dependents, as they are collected node by node, are one list
for each node, in which a node stands once if it depends on that one and not at all otherwise, and
the nodes are in increasing order. No pair of names is repeated among the edges; there are as many
of them as dependencies and as dependents; they are the lists of names one after the other; and a
pair is one of them exactly if its names are found where the dependents have an entry. -/
theorem Reachable.views_agree {g : Graph} (h : g.Reachable) :
    g.dependents? = some g.dependents ∧ g.dependents.length = g.nodes.length ∧
    (∀ i list, g.dependents[i]? = some list →
      (∀ j, list.count j = if i ∈ g.dependencies j then 1 else 0) ∧ list.Pairwise (· < ·)) ∧
    g.edges.Nodup ∧ g.edges.length = g.edgeCount ∧
    g.dependents.flatten.length = g.edgeCount ∧
    g.edges = g.adjacency.flatMap (fun entry => entry.2.map fun b => (entry.1, b)) ∧
    ∀ a b, (a, b) ∈ g.edges ↔ ∃ i j list, g.find? a = some i ∧ g.find? b = some j ∧
      g.dependents[j]? = some list ∧ i ∈ list := by
  have hg := h.wellFormed
  refine ⟨dependents?_eq hg, by simp [dependents, size], ?_, nodup_edges hg, length_edges g,
    length_flatten_dependents hg, edges_eq_adjacency g, fun a b => mem_edges_iff_find? hg⟩
  intro i list hlist
  obtain ⟨-, rfl⟩ := getElem?_dependents_eq_some.mp hlist
  exact ⟨count_dependentsOf g i, pairwise_lt_dependentsOf g i⟩

/-- A cycle, a node that two others need, and a node without edges. -/
theorem views_agree_of_cycle :
    let g := ofLists [("a", [2, 1]), ("b", [2]), ("c", [0]), ("alone", [])]
    g.dependents[2]? = some [0, 1] ∧ [0, 1].count 1 = (if 2 ∈ g.dependencies 1 then 1 else 0) ∧
      g.dependents.flatten.length = g.edgeCount ∧
      ∃ i j list, g.find? "c" = some i ∧ g.find? "a" = some j ∧ g.dependents[j]? = some list ∧
        i ∈ list := by
  intro g
  have hlist : g.dependents[2]? = some [0, 1] := by decide
  have hedge : ("c", "a") ∈ g.edges := by decide
  obtain ⟨-, -, hlists, -, -, hlength, -, hfind⟩ :=
    Reachable.views_agree (g := g) (reachable_ofLists _)
  exact ⟨hlist, (hlists 2 _ hlist).1 1, hlength, (hfind "c" "a").mp hedge⟩

end BuildOrder.Graph
