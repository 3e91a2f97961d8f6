import BuildOrder.Linker
import BuildOrder.Proofs.Distinct
import BuildOrder.Proofs.Graph.Reachable

/-! What a linker has collected when it has been given any files in any order: a node for each path,
and the symbols given with the path at its first occurrence. -/
namespace BuildOrder

/-- The symbols of a file; none where it cannot be read. -/
def Symbols.ofFileOrNone (fs : FileSystem) (dialect : Dialect) (path : String) : Symbols :=
  (Symbols.ofFile fs dialect path).toOption.getD {}

namespace Linker

/-- A call that gives a file to a linker. -/
inductive Step where
  | ofSymbols (path : String) (symbols : Symbols)
  | ofFile (fs : FileSystem) (dialect : Dialect) (path : String)

def Step.path : Step → String
  | ofSymbols path _ => path
  | ofFile _ _ path => path

def Step.symbols : Step → Symbols
  | ofSymbols _ symbols => symbols
  | ofFile fs dialect path => Symbols.ofFileOrNone fs dialect path

/-- What a file on disk is warned about before it is added. -/
def Step.unreadable : Step → List Warning
  | ofSymbols _ _ => []
  | ofFile fs dialect path =>
    match Symbols.ofFile fs dialect path with
    | .ok _ => []
    | .error e => [.unreadable path e.message]

def take (l : Linker) : Step → Linker
  | .ofSymbols path symbols => l.addSymbols path symbols
  | .ofFile fs dialect path => l.addFile fs dialect path

def run (steps : List Step) : Linker :=
  steps.foldl take {}

/-- The distinct paths in order of first occurrence, each with the symbols given there. -/
def inputs (steps : List Step) : List (String × Symbols) :=
  (steps.map Step.path).eraseDups.map fun path =>
    (path, ((steps.find? (·.path = path)).map Step.symbols).getD {})

def bindingsOf (input : String × Symbols) : List (String × String) :=
  input.2.provides.map fun symbol => (Text.upper symbol, input.1)

/-- A linker that was given these files and has not linked them yet. -/
structure Collected (l : Linker) (inputs : List (String × Symbols)) : Prop where
  nodes : l.graph.nodes = inputs.map fun input => ⟨input.1, []⟩
  bindings : l.registry.bindings = (inputs.flatMap bindingsOf).reverse
  requirements : l.requirements = inputs.map fun input => (input.1, input.2.requires)

@[simp] theorem map_fst_inputs (steps : List Step) :
    (inputs steps).map (·.1) = (steps.map Step.path).eraseDups := by
  simp [inputs, Function.comp_def]

theorem inputs_append (steps : List Step) (step : Step) :
    inputs (steps ++ [step]) =
      inputs steps ++ if step.path ∈ steps.map Step.path then [] else [(step.path, step.symbols)] := by
  have hold : ∀ path ∈ (steps.map Step.path).eraseDups,
      (steps ++ [step]).find? (·.path = path) = steps.find? (·.path = path) := by
    intro path hpath
    obtain ⟨s, hs, rfl⟩ := List.mem_map.mp (List.mem_eraseDups.mp hpath)
    have hsome : (steps.find? (·.path = s.path)).isSome := by
      simpa using ⟨s, hs, rfl⟩
    rw [List.find?_append, Option.or_of_isSome hsome]
  have hinputs : inputs steps = (steps.map Step.path).eraseDups.map fun path =>
      (path, (((steps ++ [step]).find? (·.path = path)).map Step.symbols).getD {}) :=
    List.map_congr_left fun path hpath => by rw [hold path hpath]
  rw [hinputs, inputs, List.map_append, List.map_singleton, eraseDups_append_singleton,
    List.map_append]
  congr 1
  split_ifs with hmem
  · rfl
  · have hnone : steps.find? (·.path = step.path) = none := by
      simpa using hmem
    simp [hnone, List.find?_append]

theorem nodup_paths (steps : List Step) : ((inputs steps).map (·.1)).Nodup := by
  rw [map_fst_inputs]
  exact nodup_eraseDups _

section Provide

variable (path : String) (l : Linker)

@[simp] theorem graph_provide (symbol : String) : (provide path l symbol).graph = l.graph := by
  simp only [provide]
  split <;> rfl

@[simp] theorem requirements_provide (symbol : String) :
    (provide path l symbol).requirements = l.requirements := by
  simp only [provide]
  split <;> rfl

@[simp] theorem bindings_provide (symbol : String) :
    (provide path l symbol).registry.bindings =
      (Text.upper symbol, path) :: l.registry.bindings := by
  simp only [provide, Registry.register]
  split <;> rfl

theorem foldl_provide (symbols : List String) :
    (symbols.foldl (provide path) l).graph = l.graph ∧
    (symbols.foldl (provide path) l).requirements = l.requirements ∧
    (symbols.foldl (provide path) l).registry.bindings =
      (symbols.map fun symbol => (Text.upper symbol, path)).reverse ++ l.registry.bindings := by
  induction symbols generalizing l with
  | nil => exact ⟨rfl, rfl, rfl⟩
  | cons symbol symbols ih =>
    obtain ⟨hgraph, hrequirements, hbindings⟩ := ih (provide path l symbol)
    rw [List.foldl_cons, hgraph, hrequirements, hbindings]
    simp

end Provide

variable {l : Linker} {inputs : List (String × Symbols)}

theorem collected_empty : Collected {} [] :=
  ⟨rfl, rfl, rfl⟩

theorem Collected.warnings (h : l.Collected inputs) (warnings : List Warning) :
    Collected { l with warnings } inputs :=
  ⟨h.nodes, h.bindings, h.requirements⟩

theorem Collected.names (h : l.Collected inputs) :
    l.graph.nodes.map (·.name) = inputs.map (·.1) := by
  simp [h.nodes]

theorem Collected.insert (h : l.Collected inputs) {path : String} (symbols : Symbols)
    (hnew : path ∉ inputs.map (·.1)) :
    (l.insert path symbols).Collected (inputs ++ [(path, symbols)]) where
  nodes := by
    have hnode : path ∉ l.graph.nodes.map (·.name) := by rwa [h.names]
    simp [Linker.insert, foldl_provide, Graph.addNode_of_not_mem hnode, h.nodes]
  bindings := by
    simp [Linker.insert, foldl_provide, bindingsOf, h.bindings]
  requirements := by
    simp [Linker.insert, foldl_provide, h.requirements]

theorem isSome_find?_iff (h : l.Collected inputs) {path : String} :
    (l.graph.find? path).isSome ↔ path ∈ inputs.map (·.1) := by
  rw [← h.names, Graph.isSome_find?_iff]

theorem take_of_known {step : Step} (hfind : (l.graph.find? step.path).isSome) :
    l.take step = l.warn (.duplicateInput step.path) := by
  cases step <;> exact if_pos hfind

theorem take_of_new {step : Step} (hfind : ¬ (l.graph.find? step.path).isSome) :
    l.take step =
      { l with warnings := l.warnings ++ step.unreadable }.insert step.path step.symbols := by
  cases step with
  | ofSymbols path symbols =>
    have htake : l.take (.ofSymbols path symbols) = l.insert path symbols := if_neg hfind
    simp [htake, Step.unreadable, Step.path, Step.symbols]
  | ofFile fs dialect path =>
    refine (if_neg hfind).trans ?_
    cases hfile : Symbols.ofFile fs dialect path with
    | ok symbols =>
      simp [hfile, Step.unreadable, Step.path, Step.symbols, Symbols.ofFileOrNone, Except.toOption]
    | error e =>
      simp [hfile, warn, Step.unreadable, Step.path, Step.symbols, Symbols.ofFileOrNone,
        Except.toOption]

theorem Collected.take (h : l.Collected inputs) (step : Step) :
    (l.take step).Collected
      (inputs ++ if step.path ∈ inputs.map (·.1) then [] else [(step.path, step.symbols)]) := by
  split
  next hold =>
    rw [take_of_known ((isSome_find?_iff h).mpr hold), List.append_nil]
    exact h.warnings _
  next hnew =>
    rw [take_of_new (mt (isSome_find?_iff h).mp hnew)]
    exact (h.warnings _).insert step.symbols hnew

theorem collected_run (steps : List Step) : (run steps).Collected (Linker.inputs steps) := by
  induction steps using List.reverseRecOn with
  | nil => exact collected_empty
  | append_singleton steps step ih =>
    have htake := ih.take step
    rw [map_fst_inputs] at htake
    simp only [List.mem_eraseDups] at htake
    rwa [run, List.foldl_append, inputs_append]

end Linker
end BuildOrder
