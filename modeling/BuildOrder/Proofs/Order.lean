import BuildOrder.Order
import BuildOrder.Proofs.Graph.Order
import BuildOrder.Proofs.Linker.Link

/-! Ordering files from end to end: it succeeds unless files need each other in a circle, and then
each file stands once in the order, behind the files that it needs. -/
namespace BuildOrder
open Relation Linker

/-- An input needs the last providers of its requirements, other than itself. -/
def Needs (inputs : List (String × Symbols)) (a b : String) : Prop :=
  ∃ symbols, (a, symbols) ∈ inputs ∧ a ≠ b ∧
    ∃ symbol ∈ symbols.requires, lastProvider? inputs symbol = some b

/-- The distinct files of a list, each with the symbols found in it. -/
def filesOf (fs : FileSystem) (dialect : Dialect) (paths : List String) :
    List (String × Symbols) :=
  paths.eraseDups.map fun path => (path, Symbols.ofFileOrNone fs dialect path)

theorem needs_iff {inputs : List (String × Symbols)} {a b : String} :
    Needs inputs a b ↔ ∃ symbols, (a, symbols) ∈ inputs ∧ b ∈ providers inputs (a, symbols) := by
  simp [Needs, mem_providers, ne_comm]

section Linked

variable {steps : List Step}

theorem requires_of_needs {a b : String} (hn : Needs (inputs steps) a b) :
    (run steps).link.graph.Requires (position (inputs steps) a) (position (inputs steps) b) := by
  obtain ⟨symbols, hmem, hb⟩ := needs_iff.mp hn
  have hb' := List.mem_map_of_mem (f := position (inputs steps)) (List.mem_eraseDups.mpr hb)
  rwa [Graph.Requires, dependencies_position hmem]

theorem needs_of_requires {v d : Nat} (hr : (run steps).link.graph.Requires v d) :
    Needs (inputs steps) ((run steps).link.graph.nameOf v) ((run steps).link.graph.nameOf d) := by
  have hnames := names_link_run steps
  have hv : v < (inputs steps).length := by
    have hlen := congrArg List.length hnames
    rw [List.length_map, List.length_map] at hlen
    exact hlen ▸ Graph.lt_size_of_mem_dependencies hr
  let input := (inputs steps)[v]
  have hinput : input ∈ inputs steps := List.getElem_mem hv
  have hposition : position (inputs steps) input.1 = v := position_getElem (nodup_paths steps) hv
  rw [Graph.Requires, ← hposition, dependencies_position hinput] at hr
  obtain ⟨path, hpath, rfl⟩ := List.mem_map.mp hr
  have hprovider := List.mem_eraseDups.mp hpath
  rw [← hposition, nameOf_position hnames (List.mem_map_of_mem hinput),
    nameOf_position hnames (mem_paths_of_mem_providers hprovider)]
  exact needs_iff.mpr ⟨input.2, hinput, hprovider⟩

theorem acyclic_link_run :
    (run steps).link.graph.Acyclic ↔ ∀ a, ¬ TransGen (Needs (inputs steps)) a a := by
  constructor
  · intro ha a hcycle
    exact ha _ (hcycle.lift (position (inputs steps)) fun _ _ hn => requires_of_needs hn)
  · intro ha v hcycle
    exact ha _ (hcycle.lift _ fun _ _ hr => needs_of_requires hr)

theorem names_link_run_of_isBuildOrder {order : List Nat}
    (ho : (run steps).link.graph.IsBuildOrder order) :
    ((run steps).link.graph.names order).Perm ((inputs steps).map (·.1)) ∧
      ∀ a b, Needs (inputs steps) a b → [b, a].Sublist ((run steps).link.graph.names order) := by
  have hnames := names_link_run steps
  constructor
  · rw [← hnames, ← Graph.names_ids]
    exact ho.perm.map _
  · intro a b hn
    obtain ⟨symbols, hmem, hb⟩ := needs_iff.mp hn
    have hsub := (ho.before _ _ (requires_of_needs hn)).map (run steps).link.graph.nameOf
    rwa [List.map_cons, List.map_singleton, nameOf_position hnames (List.mem_map_of_mem hmem),
      nameOf_position hnames (mem_paths_of_mem_providers hb)] at hsub

end Linked

section Files

variable {fs : FileSystem} {dialect : Dialect} {paths : List String}

theorem map_path_ofFile : (paths.map (Step.ofFile fs dialect)).map Step.path = paths := by
  rw [List.map_map]
  exact List.map_id paths

theorem inputs_ofFile : inputs (paths.map (.ofFile fs dialect)) = filesOf fs dialect paths := by
  rw [inputs, map_path_ofFile, filesOf]
  refine List.map_congr_left fun path hpath => ?_
  have hfind : paths.find? (· = path) = some path := by
    cases hf : paths.find? (· = path) with
    | none => exact absurd (List.find?_eq_none.mp hf path (List.mem_eraseDups.mp hpath)) (by simp)
    | some found => simpa using List.find?_some hf
  have hstep : (paths.map (Step.ofFile fs dialect)).find? (·.path = path) =
      (paths.find? (· = path)).map (Step.ofFile fs dialect) := List.find?_map
  rw [hstep, hfind]
  rfl

theorem ofFiles_eq :
    Analysis.ofFiles fs dialect paths = (run (paths.map (.ofFile fs dialect))).link := by
  rw [run, List.foldl_map]
  rfl

theorem orderFiles_eq_ok_iff {ordered : Ordered} :
    orderFiles fs dialect paths = .ok ordered ↔
      ∃ order, (Analysis.ofFiles fs dialect paths).graph.sortIds = .ok order ∧
        ordered = ⟨(Analysis.ofFiles fs dialect paths).graph.names order,
          (Analysis.ofFiles fs dialect paths).warnings⟩ := by
  cases hs : (Analysis.ofFiles fs dialect paths).graph.sortIds with
  | error e => simp [orderFiles, Graph.sort, hs, Except.map, bind, Except.bind]
  | ok order =>
    simp [orderFiles, Graph.sort, hs, Except.map, bind, Except.bind, pure, Except.pure, eq_comm]

variable (fs dialect paths) in
theorem exists_orderFiles_eq_ok_iff :
    (∃ ordered, orderFiles fs dialect paths = .ok ordered) ↔
      ∀ a, ¬ TransGen (Needs (filesOf fs dialect paths)) a a := by
  have hsort := Graph.exists_sortIds_eq_ok_iff
    (reachable_link_run (paths.map (.ofFile fs dialect))).wellFormed
  rw [acyclic_link_run, inputs_ofFile, ← ofFiles_eq] at hsort
  rw [← hsort]
  constructor
  · rintro ⟨ordered, ho⟩
    obtain ⟨order, hs, -⟩ := orderFiles_eq_ok_iff.mp ho
    exact ⟨order, hs⟩
  · rintro ⟨order, hs⟩
    exact ⟨_, orderFiles_eq_ok_iff.mpr ⟨order, hs, rfl⟩⟩

theorem files_of_orderFiles {ordered : Ordered} (ho : orderFiles fs dialect paths = .ok ordered) :
    ordered.files.Perm paths.eraseDups ∧
      ∀ a b, Needs (filesOf fs dialect paths) a b → [b, a].Sublist ordered.files := by
  obtain ⟨order, hs, rfl⟩ := orderFiles_eq_ok_iff.mp ho
  have hpaths : (filesOf fs dialect paths).map (·.1) = paths.eraseDups := by
    simp [filesOf, Function.comp_def]
  rw [ofFiles_eq] at hs ⊢
  rw [← inputs_ofFile] at hpaths ⊢
  rw [← hpaths]
  exact names_link_run_of_isBuildOrder
    (Graph.isBuildOrder_of_sortIds (reachable_link_run _).wellFormed hs)

/-- Files are ordered unless they need each other in a circle. An order holds the listed files, each
once, and every file behind those that it needs. -/
theorem orderFiles_end_to_end (fs : FileSystem) (dialect : Dialect) (paths : List String) :
    ((∃ ordered, orderFiles fs dialect paths = .ok ordered) ↔
      ¬ ∃ a, TransGen (Needs (filesOf fs dialect paths)) a a) ∧
    (∀ ordered, orderFiles fs dialect paths = .ok ordered →
      ordered.files.Nodup ∧ (∀ path, path ∈ ordered.files ↔ path ∈ paths) ∧
        ∀ a b, Needs (filesOf fs dialect paths) a b → [b, a].Sublist ordered.files) ∧
    ((∃ a, TransGen (Needs (filesOf fs dialect paths)) a a) →
      ∃ e, orderFiles fs dialect paths = .error e) := by
  have hok := exists_orderFiles_eq_ok_iff fs dialect paths
  rw [← not_exists] at hok
  refine ⟨hok, fun ordered ho => ?_, fun hcycle => ?_⟩
  · obtain ⟨hperm, hbefore⟩ := files_of_orderFiles ho
    refine ⟨hperm.nodup_iff.mpr (nodup_eraseDups paths), fun path => ?_, hbefore⟩
    rw [hperm.mem_iff, List.mem_eraseDups]
  · cases hr : orderFiles fs dialect paths with
    | error e => exact ⟨e, rfl⟩
    | ok ordered => exact absurd hcycle (hok.mp ⟨ordered, hr⟩)

end Files

end BuildOrder
