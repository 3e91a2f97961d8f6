import BuildOrder.Proofs.Linker.Link

/-! The files that a linker refers to are all nodes of its graph, whatever it was given. So no
provider is missed when it links, and no file loses its edges. -/
namespace BuildOrder

def Warning.isMissingNode : Warning → Bool
  | missingNode _ _ _ => true
  | _ => false

namespace Linker

/-- Providers are nodes, and the nodes are the files with requirements. -/
structure Closed (l : Linker) : Prop where
  providers : ∀ binding ∈ l.registry.bindings, binding.2 ∈ l.graph.nodes.map (·.name)
  requirements : l.requirements.map (·.1) = l.graph.nodes.map (·.name)
  warnings : ∀ w ∈ l.warnings, w.isMissingNode = false

theorem closed_empty : Closed {} where
  providers _ hbinding := absurd hbinding List.not_mem_nil
  requirements := rfl
  warnings _ hw := absurd hw List.not_mem_nil

theorem isMissingNode_of_mem_foldl_provide {path : String} {l : Linker} {symbols : List String}
    (hl : ∀ w ∈ l.warnings, w.isMissingNode = false) :
    ∀ w ∈ (symbols.foldl (provide path) l).warnings, w.isMissingNode = false := by
  induction symbols generalizing l with
  | nil => exact hl
  | cons symbol symbols ih =>
    refine ih fun w hw => ?_
    simp only [provide, Registry.register] at hw
    split at hw
    · rcases List.mem_append.mp hw with hw | hw
      · exact hl w hw
      · rw [List.mem_singleton.mp hw]
        rfl
    · exact hl w hw

section Step

variable {l : Linker} (h : l.Closed)
include h

theorem Closed.warn {w : Warning} (hw : w.isMissingNode = false) : (l.warn w).Closed where
  providers := h.providers
  requirements := h.requirements
  warnings other hother := by
    rcases List.mem_append.mp hother with hother | hother
    · exact h.warnings other hother
    · rwa [List.mem_singleton.mp hother]

theorem Closed.insert {path : String} (symbols : Symbols)
    (hnew : path ∉ l.graph.nodes.map (·.name)) : (l.insert path symbols).Closed where
  providers binding hbinding := by
    simp only [Linker.insert, foldl_provide, Graph.addNode_of_not_mem hnew, List.map_append,
      List.mem_append, List.mem_reverse, List.mem_map] at hbinding ⊢
    rcases hbinding with ⟨symbol, -, rfl⟩ | hold
    · exact Or.inr ⟨⟨path, []⟩, List.mem_singleton_self _, rfl⟩
    · exact Or.inl (List.mem_map.mp (h.providers binding hold))
  requirements := by
    simp [Linker.insert, foldl_provide, Graph.addNode_of_not_mem hnew, h.requirements]
  warnings := isMissingNode_of_mem_foldl_provide h.warnings

theorem Closed.take (step : Step) : (l.take step).Closed := by
  by_cases hfind : (l.graph.find? step.path).isSome
  · rw [take_of_known hfind]
    exact h.warn rfl
  · rw [take_of_new hfind]
    have hnew : step.path ∉ l.graph.nodes.map (·.name) := by rwa [← Graph.isSome_find?_iff]
    have hwarned : Closed { l with warnings := l.warnings ++ step.unreadable } :=
      ⟨h.providers, h.requirements, fun w hw => ?_⟩
    · exact hwarned.insert step.symbols hnew
    · rcases List.mem_append.mp hw with hw | hw
      · exact h.warnings w hw
      · unfold Step.unreadable at hw
        split at hw
        · cases hw
        · split at hw
          · cases hw
          · rw [List.mem_singleton.mp hw]
            rfl

end Step

theorem closed_run (steps : List Step) : (run steps).Closed :=
  List.foldlRecOn (motive := Closed) steps take closed_empty fun _ hl step _ => hl.take step

section Link

variable {l : Linker} (h : l.Closed)
include h

theorem Closed.isSome_find?_provider {symbol provider : String}
    (hp : l.registry.provider? symbol = some provider) : (l.graph.find? provider).isSome := by
  obtain ⟨before, after, hbindings, -⟩ := List.lookup_eq_some_iff.mp hp
  rw [Graph.isSome_find?_iff]
  exact h.providers (Text.upper symbol, provider) (by simp [hbindings])

theorem Closed.exists_resolve (path : String) (required : List String) :
    ∃ prerequisites, l.resolve path required = .ok prerequisites := by
  have hnode : ∀ symbol provider, l.registry.provider? symbol = some provider →
      l.graph.find? provider = some ((l.graph.find? provider).getD 0) := by
    intro symbol provider hp
    obtain ⟨id, hid⟩ := Option.isSome_iff_exists.mp (h.isSome_find?_provider hp)
    rw [hid, Option.getD_some]
  exact ⟨_, resolve_eq_ok hnode path required⟩

theorem Closed.isSome_lookup_iff (path : String) :
    (l.requirements.lookup path).isSome ↔ (l.graph.find? path).isSome := by
  rw [List.lookup_isSome_iff, Graph.isSome_find?_iff, ← h.requirements, List.mem_map]
  simp only [beq_iff_eq, @eq_comm _ path]

theorem Closed.linkNode (id : Nat) : (l.linkNode id).Closed := by
  cases hrequired : l.requirements.lookup (l.graph.nameOf id) with
  | none =>
    have hlink : l.linkNode id = l := by simp [Linker.linkNode, hrequired]
    rw [hlink]
    exact h
  | some required =>
    obtain ⟨prerequisites, hresolve⟩ := h.exists_resolve (l.graph.nameOf id) required
    rw [linkNode_of_resolve rfl hrequired hresolve]
    have hnames := Graph.names_addDependencies l.graph id prerequisites
    exact ⟨hnames ▸ h.providers, hnames ▸ h.requirements, h.warnings⟩

theorem Closed.foldl_linkNode (ids : List Nat) : (ids.foldl Linker.linkNode l).Closed :=
  List.foldlRecOn (motive := Closed) ids Linker.linkNode h fun _ hl id _ => hl.linkNode id

end Link

theorem exists_input_of_lookup {steps : List Step} {path : String} {required : List String}
    (hrequired : (run steps).requirements.lookup path = some required) :
    ∃ symbols, (path, symbols) ∈ inputs steps ∧ symbols.requires = required := by
  rw [(collected_run steps).requirements] at hrequired
  obtain ⟨before, after, hsplit, -⟩ := List.lookup_eq_some_iff.mp hrequired
  have hmem : (path, required) ∈ (inputs steps).map fun input => (input.1, input.2.requires) := by
    simp [hsplit]
  obtain ⟨⟨_, symbols⟩, hinput, heq⟩ := List.mem_map.mp hmem
  cases heq
  exact ⟨symbols, hinput, rfl⟩

/-- Whatever files a linker was given, each provider has a node and each node its requirements. So
all requirements can be resolved at any point of the linking, no node is ever missing, and each
requirement that another file provides becomes an edge. -/
theorem link_run_complete (steps : List Step) :
    (∀ binding ∈ (run steps).registry.bindings, ((run steps).graph.find? binding.2).isSome) ∧
    (∀ path, ((run steps).requirements.lookup path).isSome ↔
      ((run steps).graph.find? path).isSome) ∧
    (∀ (linked : List Nat) (path : String) (required : List String), ∃ prerequisites,
      (linked.foldl linkNode (run steps)).resolve path required = .ok prerequisites) ∧
    (∀ w ∈ (run steps).link.warnings, w.isMissingNode = false) ∧
    ∀ path required, (run steps).requirements.lookup path = some required →
      ∃ names, (run steps).link.graph.dependencyNames? path = some names ∧
        ∀ symbol ∈ required, ∀ provider, (run steps).registry.provider? symbol = some provider →
          provider ≠ path → provider ∈ names := by
  have h := closed_run steps
  refine ⟨fun binding hbinding => ?_, h.isSome_lookup_iff, fun linked => ?_, ?_, ?_⟩
  · rw [Graph.isSome_find?_iff]
    exact h.providers binding hbinding
  · exact (h.foldl_linkNode linked).exists_resolve
  · exact (h.foldl_linkNode (run steps).graph.ids).warnings
  · intro path required hrequired
    obtain ⟨symbols, hinput, rfl⟩ := exists_input_of_lookup hrequired
    refine ⟨_, dependencyNames?_link_run hinput, fun symbol hsymbol provider hprovider hother => ?_⟩
    rw [(collected_run steps).provider?] at hprovider
    rw [List.mem_eraseDups, mem_providers]
    exact ⟨hother, symbol, hsymbol, hprovider⟩

/-- A displaced provider, a file that cannot be read and one that is given twice. -/
theorem link_run_complete_displaced :
    let fs : FileSystem :=
      ⟨fun _ => .error .notFound, fun _ => false, fun _ => false, .error .notFound⟩
    let steps := [Step.ofSymbols "main.f90" { requires := ["MPI", "KINDS"] },
      .ofSymbols "old.f90" { provides := ["KINDS"] }, .ofFile fs .modules "lost.f90",
      .ofSymbols "new.f90" { provides := ["kinds"] }, .ofSymbols "old.f90" { provides := ["MPI"] }]
    ∃ names, (run steps).link.graph.dependencyNames? "main.f90" = some names ∧
      "new.f90" ∈ names := by
  intro fs steps
  obtain ⟨names, hnames, hprovided⟩ :=
    (link_run_complete steps).2.2.2.2 "main.f90" ["MPI", "KINDS"] (by decide +kernel)
  exact ⟨names, hnames, hprovided "KINDS" (by decide) "new.f90" (by decide +kernel) (by decide)⟩

end Linker
end BuildOrder
