import BuildOrder.Proofs.Linker.Provider

/-! Linking is exact: a file gets an edge to the last provider of each symbol that it requires, and
no other edges. -/
namespace BuildOrder.Linker

def linkedNode (inputs : List (String × Symbols)) (input : String × Symbols) : Node where
  name := input.1
  dependencies := (providers inputs input).eraseDups.map (position inputs)

theorem resolve_eq_ok {l : Linker} {node : String → Nat}
    (hnode : ∀ symbol path, l.registry.provider? symbol = some path →
      l.graph.find? path = some (node path)) (path : String) (required : List String) :
    l.resolve path required =
      .ok (((required.filterMap l.registry.provider?).filter (· ≠ path)).map node) := by
  induction required with
  | nil => rfl
  | cons symbol rest ih =>
    cases hprovider : l.registry.provider? symbol with
    | none => simp [resolve, hprovider, ih]
    | some provider =>
      by_cases hself : provider = path
      · simp [resolve, hprovider, hself, ih]
      · simp [resolve, hprovider, hself, hnode symbol provider hprovider, ih, Except.map]

theorem linkNode_of_resolve {l : Linker} {id : Nat} {path : String} {required : List String}
    {prerequisites : List Nat} (hname : l.graph.nameOf id = path)
    (hrequired : l.requirements.lookup path = some required)
    (hresolve : l.resolve path required = .ok prerequisites) :
    l.linkNode id = { l with graph := l.graph.addDependencies id prerequisites } := by
  subst hname
  simp only [linkNode, hrequired, hresolve]
  rfl

def linkedUpTo (inputs : List (String × Symbols)) (k : Nat) : List Node :=
  (inputs.take k).map (linkedNode inputs) ++ (inputs.drop k).map fun input => ⟨input.1, []⟩

section LinkedUpTo

variable (inputs : List (String × Symbols))

theorem linkedUpTo_zero : linkedUpTo inputs 0 = inputs.map fun input => ⟨input.1, []⟩ := by
  simp [linkedUpTo]

theorem linkedUpTo_length : linkedUpTo inputs inputs.length = inputs.map (linkedNode inputs) := by
  simp [linkedUpTo]

theorem names_linkedUpTo (k : Nat) :
    (linkedUpTo inputs k).map (·.name) = inputs.map (·.1) := by
  simp [linkedUpTo, linkedNode, Function.comp_def]

variable {inputs} {k : Nat} (hk : k < inputs.length)
include hk

theorem getElem?_linkedUpTo : (linkedUpTo inputs k)[k]? = some ⟨inputs[k].1, []⟩ := by
  have hlen : ((inputs.take k).map (linkedNode inputs)).length = k := by simp; omega
  rw [linkedUpTo, List.getElem?_append_right (Nat.le_of_eq hlen), hlen, Nat.sub_self,
    List.drop_eq_getElem_cons hk]
  rfl

theorem linkedUpTo_succ :
    linkedUpTo inputs (k + 1) = (linkedUpTo inputs k).set k (linkedNode inputs inputs[k]) := by
  have hlen : ((inputs.take k).map (linkedNode inputs)).length = k := by simp; omega
  rw [linkedUpTo, linkedUpTo, List.set_append_right _ _ (Nat.le_of_eq hlen), hlen, Nat.sub_self,
    List.drop_eq_getElem_cons hk, List.take_add_one, List.getElem?_eq_getElem hk,
    Option.toList_some, List.map_append, List.append_assoc]
  rfl

end LinkedUpTo

section Link

variable {l : Linker} {inputs : List (String × Symbols)} (h : l.Collected inputs)
include h

theorem Collected.resolve {g : Graph} (hg : g.nodes.map (·.name) = inputs.map (·.1))
    (input : String × Symbols) :
    Linker.resolve { l with graph := g } input.1 input.2.requires =
      .ok ((providers inputs input).map (position inputs)) := by
  have hnode : ∀ symbol path, l.registry.provider? symbol = some path →
      g.find? path = some (position inputs path) := by
    intro symbol path hprovider
    rw [h.provider?] at hprovider
    exact find?_eq_position hg (mem_paths_of_lastProvider? hprovider)
  rw [resolve_eq_ok hnode, providers, funext h.provider?]

variable (hn : (inputs.map (·.1)).Nodup)
include hn

theorem Collected.lookup_requirements {k : Nat} (hk : k < inputs.length) :
    l.requirements.lookup inputs[k].1 = some inputs[k].2.requires := by
  rw [h.requirements]
  refine lookup_eq_some_of_mem ?_ (List.mem_map.mpr ⟨inputs[k], List.getElem_mem hk, rfl⟩)
  simpa [Function.comp_def] using hn

/-- Linking a node leaves everything but its dependencies as it is. -/
theorem Collected.linkNode {k : Nat} (hk : k < inputs.length) :
    Linker.linkNode { l with graph := ⟨linkedUpTo inputs k⟩ } k =
      { l with graph := ⟨linkedUpTo inputs (k + 1)⟩ } := by
  have hnode := getElem?_linkedUpTo hk
  have hnames := names_linkedUpTo inputs k
  have hsize : Graph.size ⟨linkedUpTo inputs k⟩ = inputs.length := by
    have hlen := congrArg List.length hnames
    rwa [List.length_map, List.length_map] at hlen
  have hprerequisites : ∀ p ∈ (providers inputs inputs[k]).map (position inputs),
      p < Graph.size ⟨linkedUpTo inputs k⟩ ∧ k ≠ p := by
    intro p hp
    obtain ⟨path, hpath, rfl⟩ := List.mem_map.mp hp
    have hmem := mem_paths_of_mem_providers hpath
    refine ⟨hsize ▸ position_lt hmem, ?_⟩
    intro hself
    have heq := hself.symm.trans (position_getElem hn hk).symm
    exact (mem_providers.mp hpath).1 (position_inj hmem heq)
  have hinj : ∀ x ∈ providers inputs inputs[k], ∀ y ∈ providers inputs inputs[k],
      position inputs x = position inputs y → x = y :=
    fun x hx _ _ => position_inj (mem_paths_of_mem_providers hx)
  have hlinked := Graph.nodes_addDependencies (g := ⟨linkedUpTo inputs k⟩) hnode hprerequisites
  rw [eraseDups_map hinj, ← linkedNode, ← linkedUpTo_succ hk] at hlinked
  rw [← hlinked]
  exact linkNode_of_resolve (Graph.nameOf_of_getElem? (g := ⟨linkedUpTo inputs k⟩) hnode)
    (h.lookup_requirements hn hk) (h.resolve hnames inputs[k])

theorem Collected.foldl_linkNode {k : Nat} (hk : k ≤ inputs.length) :
    (List.range k).foldl Linker.linkNode l = { l with graph := ⟨linkedUpTo inputs k⟩ } := by
  induction k with
  | zero =>
    rw [linkedUpTo_zero, ← h.nodes]
    rfl
  | succ k ih =>
    rw [List.range_succ, List.foldl_append, ih (Nat.le_of_succ_le hk)]
    exact h.linkNode hn hk

/-- The whole outcome of linking. No warning is raised on the way. -/
theorem Collected.link : l.link = ⟨⟨inputs.map (linkedNode inputs)⟩, l.warnings⟩ := by
  have hids : l.graph.ids = List.range inputs.length := by
    simp [Graph.ids, Graph.size, h.nodes]
  rw [Linker.link, hids, h.foldl_linkNode hn (Nat.le_refl _), linkedUpTo_length]

end Link

theorem link_run (steps : List Step) :
    (run steps).link =
      ⟨⟨(inputs steps).map (linkedNode (inputs steps))⟩, (run steps).warnings⟩ :=
  (collected_run steps).link (nodup_paths steps)

theorem names_link_run (steps : List Step) :
    (run steps).link.graph.nodes.map (·.name) = (inputs steps).map (·.1) := by
  simp [link_run, linkedNode, Function.comp_def]

section Reachable

variable {l : Linker} (h : l.graph.Reachable)
include h

theorem reachable_insert (path : String) (symbols : Symbols) :
    (l.insert path symbols).graph.Reachable := by
  simpa [insert, foldl_provide] using h.addNode path

theorem reachable_take (step : Step) : (l.take step).graph.Reachable := by
  by_cases hfind : (l.graph.find? step.path).isSome
  · rw [take_of_known hfind]
    exact h
  · rw [take_of_new hfind]
    exact reachable_insert (l := { l with warnings := l.warnings ++ step.unreadable }) h _ _

theorem reachable_linkNode (id : Nat) : (l.linkNode id).graph.Reachable := by
  simp only [linkNode]
  split
  · exact h
  · split
    · exact h.addDependencies id _
    · exact h

theorem reachable_link : l.link.graph.Reachable :=
  List.foldlRecOn (motive := fun l => l.graph.Reachable) l.graph.ids linkNode h
    fun _ hl id _ => reachable_linkNode hl id

end Reachable

/-- Linkers make reachable graphs. -/
theorem reachable_link_run (steps : List Step) : (run steps).link.graph.Reachable :=
  reachable_link <| List.foldlRecOn (motive := fun l => l.graph.Reachable) steps take .empty
    fun _ hl step _ => reachable_take hl step

theorem dependencies_position {steps : List Step} {input : String × Symbols}
    (hinput : input ∈ inputs steps) :
    (run steps).link.graph.dependencies (position (inputs steps) input.1) =
      (linkedNode (inputs steps) input).dependencies := by
  obtain ⟨k, hk, rfl⟩ := List.mem_iff_getElem.mp hinput
  rw [position_getElem (nodup_paths steps) hk, link_run]
  exact Graph.dependencies_of_getElem? (by simp [hk])

theorem dependencyNames?_link_run {steps : List Step} {input : String × Symbols}
    (hinput : input ∈ inputs steps) :
    (run steps).link.graph.dependencyNames? input.1 =
      some (providers (inputs steps) input).eraseDups := by
  have hnames := names_link_run steps
  have hpath : input.1 ∈ (inputs steps).map (·.1) := List.mem_map_of_mem hinput
  rw [Graph.dependencyNames?, find?_eq_position hnames hpath, Option.map_some,
    dependencies_position hinput, linkedNode, Graph.names, List.map_map]
  congr 1
  refine (List.map_congr_left fun path hp => ?_).trans (List.map_id _)
  exact nameOf_position hnames (mem_paths_of_mem_providers (List.mem_eraseDups.mp hp))

/-- Linking any files gives a node for each path, at its first occurrence, with an edge to the last
provider of each requirement of that occurrence. Where a file stands among the others makes no
difference to its edges as long as the providers of its requirements remain the last. -/
theorem link_run_exact (steps : List Step) :
    ((run steps).link.graph.nodes = (inputs steps).map fun input =>
      { name := input.1
        dependencies :=
          ((input.2.requires.filterMap (lastProvider? (inputs steps))).filter
            (· ≠ input.1)).eraseDups.map (position (inputs steps)) }) ∧
    ∀ other : List Step, (inputs other).Perm (inputs steps) → ∀ input ∈ inputs steps,
      (∀ symbol ∈ input.2.requires,
        lastProvider? (inputs other) symbol = lastProvider? (inputs steps) symbol) →
      (run other).link.graph.dependencyNames? input.1 =
        (run steps).link.graph.dependencyNames? input.1 := by
  refine ⟨by rw [link_run]; rfl, fun other hperm input hinput hlast => ?_⟩
  have hproviders : providers (inputs other) input = providers (inputs steps) input := by
    rw [providers, providers, List.filterMap_congr hlast]
  rw [dependencyNames?_link_run hinput, dependencyNames?_link_run (hperm.mem_iff.mpr hinput),
    hproviders]

theorem dependencyNames?_provider_moved :
    let main := Step.ofSymbols "main.f90" { requires := ["SOLVER"] }
    let solver := Step.ofSymbols "solver.f90" { provides := ["solver"] }
    (run [solver, main]).link.graph.dependencyNames? "main.f90" =
      (run [main, solver]).link.graph.dependencyNames? "main.f90" :=
  (link_run_exact _).2 _ (by decide) ("main.f90", { requires := ["SOLVER"] }) (by decide)
    (by decide)

end BuildOrder.Linker
