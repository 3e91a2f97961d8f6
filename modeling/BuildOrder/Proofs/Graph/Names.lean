import BuildOrder.Proofs.Graph.Diagnosis
import BuildOrder.Proofs.Graph.Queue

/-! Sorting a graph in terms of its names. What a sort gives depends on the names, in insertion
order, and on the names that each of them requires, but not on how the nodes are numbered. -/
namespace BuildOrder.Graph
open Relation

/-- The names that a name requires; none where it has no node. -/
def prerequisites (g : Graph) (name : String) : List String :=
  (g.dependencyNames? name).getD []

/-- The node of a name, where it has one. -/
def idOf (g : Graph) (name : String) : Nat :=
  (g.find? name).getD 0

def RequiresName (g : Graph) (a b : String) : Prop :=
  b ∈ g.prerequisites a

/-- Following requirements from a name can lead to one that requires itself in the end. -/
def NameReachesCycle (g : Graph) (a : String) : Prop :=
  ∃ b, ReflTransGen g.RequiresName a b ∧ TransGen g.RequiresName b b

theorem mem_names_ids {g : Graph} {a : String} :
    a ∈ g.names g.ids ↔ ∃ v < g.size, g.nameOf v = a := by
  simp [names]

theorem prerequisites_eq_nil {g : Graph} {a : String} (ha : a ∉ g.names g.ids) :
    g.prerequisites a = [] := by
  rw [names_ids, ← find?_eq_none] at ha
  simp [prerequisites, dependencyNames?, ha]

theorem edges_eq_adjacency (g : Graph) :
    g.edges = g.adjacency.flatMap fun entry => entry.2.map fun b => (entry.1, b) := by
  simp [edges, adjacency, names, List.flatMap_map, Function.comp_def]

section Names

variable {g : Graph} (hg : g.WellFormed)
include hg

theorem find?_nameOf {v : Nat} (hv : v < g.size) : g.find? (g.nameOf v) = some v := by
  cases hfind : g.find? (g.nameOf v) with
  | none =>
    rw [find?_eq_none, ← names_ids, mem_names_ids] at hfind
    exact absurd ⟨v, hv, rfl⟩ hfind
  | some w =>
    obtain ⟨hw, hname⟩ := find?_some hfind
    rw [hg.nameOf_inj hw hv hname]

theorem idOf_nameOf {v : Nat} (hv : v < g.size) : g.idOf (g.nameOf v) = v := by
  simp [idOf, find?_nameOf hg hv]

theorem prerequisites_nameOf {v : Nat} (hv : v < g.size) :
    g.prerequisites (g.nameOf v) = g.names (g.dependencies v) := by
  simp [prerequisites, dependencyNames?, find?_nameOf hg hv]

theorem requiresName_nameOf {v d : Nat} (h : g.Requires v d) :
    g.RequiresName (g.nameOf v) (g.nameOf d) := by
  rw [RequiresName, prerequisites_nameOf hg (lt_size_of_mem_dependencies h)]
  exact List.mem_map_of_mem h

theorem requires_idOf {a b : String} (h : g.RequiresName a b) :
    g.Requires (g.idOf a) (g.idOf b) := by
  cases hfind : g.find? a with
  | none => simp [RequiresName, prerequisites, dependencyNames?, hfind] at h
  | some v =>
    rw [RequiresName, prerequisites, dependencyNames?, hfind, Option.map_some,
      Option.getD_some] at h
    obtain ⟨d, hd, rfl⟩ := List.mem_map.mp h
    rw [idOf_nameOf hg (hg.lt_size hd), idOf, hfind]
    exact hd

theorem acyclic_iff_names : g.Acyclic ↔ ∀ a, ¬ TransGen g.RequiresName a a := by
  constructor
  · intro ha a hcycle
    exact ha _ (hcycle.lift g.idOf fun _ _ => requires_idOf hg)
  · intro ha v hcycle
    exact ha _ (hcycle.lift g.nameOf fun _ _ => requiresName_nameOf hg)

theorem nameReachesCycle_nameOf {v : Nat} (hv : v < g.size) :
    g.NameReachesCycle (g.nameOf v) ↔ g.ReachesCycle v := by
  constructor
  · rintro ⟨b, hvb, hb⟩
    have hv' : ReflTransGen g.Requires (g.idOf (g.nameOf v)) (g.idOf b) :=
      hvb.lift g.idOf fun _ _ => requires_idOf hg
    rw [idOf_nameOf hg hv] at hv'
    exact ⟨g.idOf b, hv', hb.lift g.idOf fun _ _ => requires_idOf hg⟩
  · rintro ⟨w, hvw, hw⟩
    exact ⟨_, hvw.lift g.nameOf fun _ _ => requiresName_nameOf hg,
      hw.lift g.nameOf fun _ _ => requiresName_nameOf hg⟩

theorem adjacency_eq_names :
    g.adjacency = (g.names g.ids).map fun a => (a, g.prerequisites a) := by
  rw [adjacency_eq, names, List.map_map]
  refine List.map_congr_left fun v hv => ?_
  rw [Function.comp_apply, prerequisites_nameOf hg (mem_ids.mp hv)]

theorem edges_eq_names :
    g.edges = (g.names g.ids).flatMap fun a => (g.prerequisites a).map fun b => (a, b) := by
  rw [edges_eq_adjacency, adjacency_eq_names hg, List.flatMap_map]

theorem mem_edges_iff {a b : String} : (a, b) ∈ g.edges ↔ b ∈ g.prerequisites a := by
  rw [edges_eq_names hg]
  simp only [List.mem_flatMap, List.mem_map, Prod.mk.injEq]
  constructor
  · rintro ⟨_, -, _, hmem, rfl, rfl⟩
    exact hmem
  · intro hmem
    have ha : a ∈ g.names g.ids := by
      by_contra ha
      rw [prerequisites_eq_nil ha] at hmem
      exact List.not_mem_nil hmem
    exact ⟨a, ha, b, hmem, rfl, rfl⟩

theorem mem_edges_iff_dependencies {a b : String} :
    (a, b) ∈ g.edges ↔ ∃ v, ∃ d ∈ g.dependencies v, g.nameOf v = a ∧ g.nameOf d = b := by
  rw [mem_edges_iff hg]
  constructor
  · intro hmem
    have ha : a ∈ g.names g.ids := by
      by_contra ha
      rw [prerequisites_eq_nil ha] at hmem
      exact List.not_mem_nil hmem
    obtain ⟨v, hv, rfl⟩ := mem_names_ids.mp ha
    rw [prerequisites_nameOf hg hv] at hmem
    obtain ⟨d, hd, hname⟩ := List.mem_map.mp hmem
    exact ⟨v, d, hd, rfl, hname⟩
  · rintro ⟨v, d, hd, rfl, rfl⟩
    exact requiresName_nameOf hg hd

theorem nodup_names_ids : (g.names g.ids).Nodup := by
  rw [names_ids]
  exact hg.nodup_names

theorem nodup_prerequisites (a : String) : (g.prerequisites a).Nodup := by
  by_cases ha : a ∈ g.names g.ids
  · obtain ⟨v, hv, rfl⟩ := mem_names_ids.mp ha
    rw [prerequisites_nameOf hg hv]
    refine (hg.nodup_dependencies v).map_on fun d hd e he hname => ?_
    exact hg.nameOf_inj (hg.lt_size hd) (hg.lt_size he) hname
  · rw [prerequisites_eq_nil ha]
    exact List.nodup_nil

theorem nodup_edges : g.edges.Nodup := by
  rw [edges_eq_names hg]
  refine nodup_flatMap_of_key Prod.fst ?_ (nodup_names_ids hg) ?_
  · intro a edge hedge
    obtain ⟨b, -, rfl⟩ := List.mem_map.mp hedge
    rfl
  · intro a _
    exact (nodup_prerequisites hg a).map fun b c heq => (Prod.mk.inj heq).2

open Classical in
theorem cycleListing_eq_names :
    g.cycleListing = ((g.names g.ids).filter fun a => g.NameReachesCycle a).map fun a =>
      (a, (g.prerequisites a).filter fun b => g.NameReachesCycle b) := by
  have hreaches : ∀ v < g.size, g.NameReachesCycle (g.nameOf v) = g.ReachesCycle v :=
    fun v hv => propext (nameReachesCycle_nameOf hg hv)
  rw [cycleListing, names, List.filter_map, List.map_map]
  have hids : g.ids.filter (fun v => g.ReachesCycle v) =
      g.ids.filter ((fun a => decide (g.NameReachesCycle a)) ∘ g.nameOf) :=
    List.filter_congr fun v hv => by simp only [Function.comp_apply, hreaches v (mem_ids.mp hv)]
  rw [hids]
  refine List.map_congr_left fun v hv => ?_
  have hv : v < g.size := mem_ids.mp (List.mem_filter.mp hv).1
  rw [Function.comp_apply, prerequisites_nameOf hg hv, names, names, List.filter_map]
  congr 2
  exact List.filter_congr fun d hd => by simp only [Function.comp_apply, hreaches d (hg.lt_size hd)]

theorem isQueueOrder_names {order : List Nat} (h : IsQueueOrder g.ids g.dependencies order) :
    IsQueueOrder (g.names g.ids) g.prerequisites (g.names order) := by
  refine h.map (fun v _ d hd => mem_ids.mpr (hg.lt_size hd)) (fun v hv w hw => ?_) fun v hv => ?_
  · exact hg.nameOf_inj (mem_ids.mp hv) (mem_ids.mp hw)
  · exact prerequisites_nameOf hg (mem_ids.mp hv)

theorem sort_of_acyclic (ha : g.Acyclic) : g.sort = .ok (g.names g.placed) := by
  rw [sort, sortIds_of_acyclic hg ha]
  rfl

/-- A sort succeeds with a list of names exactly when a queue builds the names in this order. -/
theorem sort_eq_ok_iff {order : List String} :
    g.sort = .ok order ↔ IsQueueOrder (g.names g.ids) g.prerequisites order := by
  constructor
  · intro ho
    cases hs : g.sortIds with
    | error e => simp [sort, hs, Except.map] at ho
    | ok ids =>
      have hnames : g.names ids = order := by simpa [sort, hs, Except.map] using ho
      rw [← hnames]
      exact isQueueOrder_names hg ((sortIds_eq_ok_iff hg).mp hs)
  · intro h
    have hr : ∀ {a b}, g.RequiresName a b → a ∈ g.names g.ids ∧ b ∈ g.prerequisites a := by
      intro a b hab
      refine ⟨?_, hab⟩
      by_contra ha
      rw [RequiresName, prerequisites_eq_nil ha] at hab
      exact List.not_mem_nil hab
    have ha : g.Acyclic := (acyclic_iff_names hg).mpr (h.not_transGen hr)
    have hplaced := isQueueOrder_names hg (isQueueOrder_placed hg ha)
    rw [sort_of_acyclic hg ha, h.unique hplaced]

theorem exists_sort_eq_ok_iff :
    (∃ order, g.sort = .ok order) ↔ ∀ a, ¬ TransGen g.RequiresName a a := by
  rw [← acyclic_iff_names hg, ← exists_sortIds_eq_ok_iff hg]
  constructor
  · rintro ⟨order, ho⟩
    cases hs : g.sortIds with
    | error e => simp [sort, hs, Except.map] at ho
    | ok ids => exact ⟨ids, rfl⟩
  · rintro ⟨ids, hs⟩
    exact ⟨g.names ids, by rw [sort, hs]; rfl⟩

theorem roots_eq_nil_iff_names :
    g.roots = [] ↔ ∀ a ∈ g.names g.ids, g.prerequisites a ≠ [] := by
  rw [roots_eq_nil_iff]
  constructor
  · intro hne a ha
    obtain ⟨v, hv, rfl⟩ := mem_names_ids.mp ha
    rw [prerequisites_nameOf hg hv]
    simpa [names] using hne v hv
  · intro hne v hv
    have hname := hne (g.nameOf v) (mem_names_ids.mpr ⟨v, hv, rfl⟩)
    rw [prerequisites_nameOf hg hv] at hname
    simpa [names] using hname

end Names

end BuildOrder.Graph
