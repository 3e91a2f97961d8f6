import BuildOrder.FileTree
import BuildOrder.Proofs.Graph.Rearranged
import BuildOrder.Proofs.Linker.Warnings
import BuildOrder.Proofs.Order
import BuildOrder.Proofs.Symbols.Lines

/-! The analysis of a list of files: the names of its graph are the listed paths, the prerequisites
of a path are the last providers of what the file requires, and the warnings grow file by file. -/
namespace BuildOrder
open Linker

/-- A current directory that holds the texts as files. -/
def FileTree.ofTexts (texts : List (String × String)) : FileTree :=
  .ofList [] (texts.map fun (path, text) => (path, .file (.ok text.toUTF8.data.toList)))

def FileSystem.ofTexts (texts : List (String × String)) : FileSystem :=
  (FileTree.ofTexts texts).files

variable {fs : FileSystem} {dialect : Dialect} {paths : List String}

theorem orderFiles_eq : orderFiles fs dialect paths =
    (Analysis.ofFiles fs dialect paths).graph.sort.map fun files =>
      ⟨files, (Analysis.ofFiles fs dialect paths).warnings⟩ := by
  rw [orderFiles]
  cases (Analysis.ofFiles fs dialect paths).graph.sort <;> rfl

theorem sort_of_orderFiles {ordered : Ordered} (ho : orderFiles fs dialect paths = .ok ordered) :
    (Analysis.ofFiles fs dialect paths).graph.sort = .ok ordered.files := by
  rw [orderFiles_eq] at ho
  cases hs : (Analysis.ofFiles fs dialect paths).graph.sort with
  | error e =>
    rw [hs] at ho
    cases ho
  | ok files =>
    rw [hs] at ho
    cases ho
    rfl

theorem warnings_of_orderFiles {ordered : Ordered}
    (ho : orderFiles fs dialect paths = .ok ordered) :
    ordered.warnings = (Analysis.ofFiles fs dialect paths).warnings := by
  rw [orderFiles_eq, sort_of_orderFiles ho] at ho
  exact congrArg Ordered.warnings (Except.ok.inj ho).symm

theorem exists_orderFiles_iff : (∃ ordered, orderFiles fs dialect paths = .ok ordered) ↔
    ∃ files, (Analysis.ofFiles fs dialect paths).graph.sort = .ok files := by
  constructor
  · rintro ⟨ordered, ho⟩
    exact ⟨ordered.files, sort_of_orderFiles ho⟩
  · rintro ⟨files, hs⟩
    exact ⟨_, by rw [orderFiles_eq, hs]; rfl⟩

theorem nodup_files_of_orderFiles {ordered : Ordered}
    (ho : orderFiles fs dialect paths = .ok ordered) : ordered.files.Nodup :=
  (files_of_orderFiles ho).1.nodup_iff.mpr (nodup_eraseDups paths)

theorem mem_files_of_orderFiles {ordered : Ordered}
    (ho : orderFiles fs dialect paths = .ok ordered) {path : String} :
    path ∈ ordered.files ↔ path ∈ paths := by
  rw [(files_of_orderFiles ho).1.mem_iff, List.mem_eraseDups]

theorem wellFormed_ofFiles : (Analysis.ofFiles fs dialect paths).graph.WellFormed := by
  rw [ofFiles_eq]
  exact (reachable_link_run _).wellFormed

theorem names_ofFiles : (Analysis.ofFiles fs dialect paths).graph.names
    (Analysis.ofFiles fs dialect paths).graph.ids = paths.eraseDups := by
  rw [Graph.names_ids, ofFiles_eq, names_link_run, inputs_ofFile]
  simp [filesOf, Function.comp_def]

theorem mem_filesOf {input : String × Symbols} : input ∈ filesOf fs dialect paths ↔
    input.1 ∈ paths ∧ input.2 = Symbols.ofFileOrNone fs dialect input.1 := by
  obtain ⟨path, symbols⟩ := input
  constructor
  · intro hmem
    obtain ⟨p, hp, heq⟩ := List.mem_map.mp hmem
    cases heq
    exact ⟨List.mem_eraseDups.mp hp, rfl⟩
  · rintro ⟨hpath, hsymbols⟩
    exact List.mem_map.mpr ⟨path, List.mem_eraseDups.mpr hpath, Prod.ext rfl hsymbols.symm⟩

theorem dependencyNames?_ofFiles {path : String} (hpath : path ∈ paths) :
    (Analysis.ofFiles fs dialect paths).graph.dependencyNames? path =
      some (providers (filesOf fs dialect paths)
        (path, Symbols.ofFileOrNone fs dialect path)).eraseDups := by
  have hinput : (path, Symbols.ofFileOrNone fs dialect path) ∈
      inputs (paths.map (.ofFile fs dialect)) := by
    rw [inputs_ofFile, mem_filesOf]
    exact ⟨hpath, rfl⟩
  rw [ofFiles_eq, ← inputs_ofFile]
  exact dependencyNames?_link_run hinput

theorem prerequisites_ofFiles {path : String} (hpath : path ∈ paths) :
    (Analysis.ofFiles fs dialect paths).graph.prerequisites path =
      (providers (filesOf fs dialect paths)
        (path, Symbols.ofFileOrNone fs dialect path)).eraseDups := by
  rw [Graph.prerequisites, dependencyNames?_ofFiles hpath, Option.getD_some]

theorem prerequisites_ofFiles_of_not_mem {path : String} (hpath : path ∉ paths) :
    (Analysis.ofFiles fs dialect paths).graph.prerequisites path = [] := by
  apply Graph.prerequisites_eq_nil
  rwa [names_ofFiles, List.mem_eraseDups]

/-- What a listed file requires is listed, too. -/
theorem mem_paths_of_mem_prerequisites {path required : String}
    (hmem : required ∈ (Analysis.ofFiles fs dialect paths).graph.prerequisites path) :
    required ∈ paths := by
  by_cases hpath : path ∈ paths
  · rw [prerequisites_ofFiles hpath, List.mem_eraseDups] at hmem
    obtain ⟨input, hinput, rfl⟩ := List.mem_map.mp (mem_paths_of_mem_providers hmem)
    exact (mem_filesOf.mp hinput).1
  · rw [prerequisites_ofFiles_of_not_mem hpath] at hmem
    exact absurd hmem List.not_mem_nil

/-- The last provider among files is the last listed one that provides the symbol. -/
theorem lastProvider?_filesOf (symbol : String) : lastProvider? (filesOf fs dialect paths) symbol =
    (paths.eraseDups.filter fun path =>
      offers (Symbols.ofFileOrNone fs dialect path) symbol).getLast? := by
  rw [lastProvider?, filesOf, List.filter_map, List.getLast?_map, Option.map_map]
  simp [Function.comp_def]

theorem nodup_upper_ofFileOrNone (fs : FileSystem) (dialect : Dialect) (path : String) :
    ((Symbols.ofFileOrNone fs dialect path).provides.map Text.upper).Nodup := by
  rw [Symbols.ofFileOrNone, Symbols.ofFile]
  cases fs.readText path with
  | error e => exact List.nodup_nil
  | ok content => exact Symbols.nodup_upper_ofText _ _ _

theorem warnings_ofFiles_append (path : String) :
    (Analysis.ofFiles fs dialect (paths ++ [path])).warnings =
      (Analysis.ofFiles fs dialect paths).warnings ++
        if path ∈ paths then [.duplicateInput path]
        else (Step.ofFile fs dialect path).unreadable ++
          displacements (filesOf fs dialect paths) path (Symbols.ofFileOrNone fs dialect path) := by
  have hn : ((Step.ofFile fs dialect path).symbols.provides.map Text.upper).Nodup :=
    nodup_upper_ofFileOrNone fs dialect path
  have hrun := warnings_run_append (paths.map (.ofFile fs dialect)) hn
  rw [stepWarnings, map_path_ofFile, inputs_ofFile] at hrun
  rw [ofFiles_eq, ofFiles_eq, link_run, link_run, List.map_append]
  exact hrun

end BuildOrder
