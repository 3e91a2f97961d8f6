import BuildOrder.Proofs.Order.Files

/-! Files whose lines stand in another order are ordered alike: the lines of a file decide on its
symbols but not on their order, and neither the edges nor the queue depend on that. -/
namespace BuildOrder
open Linker

/-- The paths can be read in both file systems, with the same lines, or fail in both alike. -/
def SameLinesAt (fs fs' : FileSystem) (paths : List String) : Prop :=
  ∀ path ∈ paths, Alike (· = ·) SameLines (fs.readText path) (fs'.readText path)

instance (fs fs' : FileSystem) (paths : List String) : Decidable (SameLinesAt fs fs' paths) :=
  inferInstanceAs (Decidable (∀ path ∈ paths, _))

section Rearranged

variable {a b : Symbols} (h : a.Rearranged b)
include h

theorem offers_eq (symbol : String) : offers a symbol = offers b symbol :=
  h.provides.any_eq

theorem providers_perm (inputs : List (String × Symbols)) (path : String) :
    (providers inputs (path, a)).Perm (providers inputs (path, b)) :=
  (h.requires.filterMap _).filter _

theorem displacements_perm (inputs : List (String × Symbols)) (path : String) :
    (displacements inputs path a).Perm (displacements inputs path b) :=
  h.provides.filterMap _

end Rearranged

section File

variable {fs fs' : FileSystem} {path : String}
  (h : Alike (· = ·) SameLines (fs.readText path) (fs'.readText path)) (dialect : Dialect)
include h

theorem alike_ofFile : Alike (· = ·) Symbols.Rearranged (Symbols.ofFile fs dialect path)
    (Symbols.ofFile fs' dialect path) :=
  h.map fun _ _ hlines => Symbols.rearranged_ofText hlines dialect _

theorem rearranged_ofFileOrNone : (Symbols.ofFileOrNone fs dialect path).Rearranged
    (Symbols.ofFileOrNone fs' dialect path) := by
  have halike := alike_ofFile h dialect
  rw [Symbols.ofFileOrNone, Symbols.ofFileOrNone]
  generalize Symbols.ofFile fs dialect path = symbols at halike ⊢
  generalize Symbols.ofFile fs' dialect path = symbols' at halike ⊢
  cases halike with
  | error he => exact .refl _
  | ok hsymbols => exact hsymbols

theorem unreadable_eq :
    (Step.ofFile fs dialect path).unreadable = (Step.ofFile fs' dialect path).unreadable := by
  have halike := alike_ofFile h dialect
  rw [Step.unreadable, Step.unreadable]
  generalize Symbols.ofFile fs dialect path = symbols at halike ⊢
  generalize Symbols.ofFile fs' dialect path = symbols' at halike ⊢
  cases halike with
  | error he => rw [he]
  | ok hsymbols => rfl

end File

section Files

variable {fs fs' : FileSystem} {paths : List String} (h : SameLinesAt fs fs' paths)
  (dialect : Dialect)
include h

theorem SameLinesAt.lastProvider?_eq :
    lastProvider? (filesOf fs dialect paths) = lastProvider? (filesOf fs' dialect paths) := by
  funext symbol
  rw [lastProvider?_filesOf, lastProvider?_filesOf]
  congr 1
  refine List.filter_congr fun path hpath => ?_
  have hsame := h path (List.mem_eraseDups.mp hpath)
  exact offers_eq (rearranged_ofFileOrNone hsame dialect) symbol

theorem SameLinesAt.rearranged : Graph.Rearranged (Analysis.ofFiles fs dialect paths).graph
    (Analysis.ofFiles fs' dialect paths).graph := by
  constructor
  · rw [names_ofFiles, names_ofFiles]
  · intro path
    by_cases hpath : path ∈ paths
    · have hproviders := providers_perm (rearranged_ofFileOrNone (h path hpath) dialect)
        (filesOf fs dialect paths) path
      rw [prerequisites_ofFiles hpath, prerequisites_ofFiles hpath]
      refine perm_eraseDups fun other => ?_
      rw [hproviders.mem_iff, providers, providers, h.lastProvider?_eq dialect]
    · rw [prerequisites_ofFiles_of_not_mem hpath, prerequisites_ofFiles_of_not_mem hpath]

theorem SameLinesAt.warnings_perm : (Analysis.ofFiles fs dialect paths).warnings.Perm
    (Analysis.ofFiles fs' dialect paths).warnings := by
  induction paths using List.reverseRecOn with
  | nil => exact .refl _
  | append_singleton paths path ih =>
    have hpaths : SameLinesAt fs fs' paths := fun p hp => h p (by simp [hp])
    have hpath := h path (by simp)
    rw [warnings_ofFiles_append, warnings_ofFiles_append]
    refine (ih hpaths).append ?_
    split
    · exact .refl _
    · rw [unreadable_eq hpath dialect, displacements, displacements,
        hpaths.lastProvider?_eq dialect]
      exact (displacements_perm (rearranged_ofFileOrNone hpath dialect) _ path).append_left _

end Files

/-- The order of the lines in files does not matter, nor does how often they are repeated: the build
order stays the same, and so do the names that are listed where there is none. -/
theorem orderFiles_of_same_lines {fs fs' : FileSystem} {paths : List String} (dialect : Dialect)
    (h : SameLinesAt fs fs' paths) :
    Alike (SortError.SameKind (List.Forall₂ fun x y => x.1 = y.1 ∧ x.2.Perm y.2))
      (fun a b => a.files = b.files ∧ a.warnings.Perm b.warnings)
      (orderFiles fs dialect paths) (orderFiles fs' dialect paths) := by
  have hnames : (Analysis.ofFiles fs dialect paths).graph.names
        (Analysis.ofFiles fs dialect paths).graph.ids =
      (Analysis.ofFiles fs' dialect paths).graph.names
        (Analysis.ofFiles fs' dialect paths).graph.ids := by
    rw [names_ofFiles, names_ofFiles]
  have hsort := (h.rearranged dialect).sort_of_names_eq wellFormed_ofFiles wellFormed_ofFiles hnames
  rw [orderFiles_eq, orderFiles_eq]
  exact hsort.map fun _ _ hfiles => ⟨hfiles, h.warnings_perm dialect⟩

theorem orderFiles_of_same_lines_reversed :
    let fs := FileSystem.ofTexts [("ab.f90", "module a\nmodule b\n"),
      ("main.f90", "use b\nmodule a\nuse c\nmodule b\n"), ("c.f90", "module c")]
    let fs' := FileSystem.ofTexts [("ab.f90", "module b\r\nmodule a"),
      ("main.f90", "module b\nuse c\nmodule a\nuse b\nuse c"), ("c.f90", "module c\nmodule c")]
    let paths := ["main.f90", "ab.f90", "missing.f90", "c.f90", "ab.f90"]
    SameLinesAt fs fs' paths ∧
      Alike (SortError.SameKind (List.Forall₂ fun x y => x.1 = y.1 ∧ x.2.Perm y.2))
        (fun a b => a.files = b.files ∧ a.warnings.Perm b.warnings)
        (orderFiles fs .modules paths) (orderFiles fs' .modules paths) := by
  intro fs fs' paths
  have h : SameLinesAt fs fs' paths := by decide +kernel
  exact ⟨h, orderFiles_of_same_lines .modules h⟩

end BuildOrder
