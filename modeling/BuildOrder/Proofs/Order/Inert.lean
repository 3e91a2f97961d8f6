import BuildOrder.Proofs.Order.Files

/-! Files without symbols, as those that cannot be read. No file needs them and they need none, so
that they can be left out without moving any other file. -/
namespace BuildOrder
open Linker

section Inert

variable {fs : FileSystem} {dialect : Dialect} {path : String}
  (hinert : Symbols.ofFileOrNone fs dialect path = {})
include hinert

theorem offers_of_inert (symbol : String) :
    offers (Symbols.ofFileOrNone fs dialect path) symbol = false := by
  rw [hinert]
  rfl

/-- A file that provides nothing is no last provider, wherever it is listed. -/
theorem lastProvider?_of_inert {before after : List String} (hn : (before ++ path :: after).Nodup)
    (symbol : String) : lastProvider? (filesOf fs dialect (before ++ path :: after)) symbol =
      lastProvider? (filesOf fs dialect (before ++ after)) symbol := by
  have hrest : (before ++ after).Nodup := hn.sublist (by simp)
  rw [lastProvider?_filesOf, lastProvider?_filesOf, eraseDups_of_nodup hn, eraseDups_of_nodup hrest,
    List.filter_append, List.filter_append,
    List.filter_cons_of_neg (by simp [offers_of_inert hinert])]

theorem prerequisites_of_inert {before after : List String}
    (hn : (before ++ path :: after).Nodup) :
    (Analysis.ofFiles fs dialect (before ++ path :: after)).graph.prerequisites =
      (Analysis.ofFiles fs dialect (before ++ after)).graph.prerequisites := by
  funext other
  have hlast := funext (lastProvider?_of_inert hinert hn)
  by_cases hother : other ∈ before ++ after
  · have hpart : (before ++ after).Sublist (before ++ path :: after) := by simp
    rw [prerequisites_ofFiles (hpart.subset hother), prerequisites_ofFiles hother, providers, providers, hlast]
  · rw [prerequisites_ofFiles_of_not_mem hother]
    by_cases hself : other = path
    · rw [hself, prerequisites_ofFiles (by simp), hinert]
      rfl
    · apply prerequisites_ofFiles_of_not_mem
      simp only [List.mem_append, List.mem_cons] at hother ⊢
      tauto

/-- The warnings of a list are those of the list without the file, and what is said of the file. -/
theorem warnings_of_inert {before after : List String} (hn : (before ++ path :: after).Nodup) :
    ∃ later, (Analysis.ofFiles fs dialect (before ++ path :: after)).warnings =
        (Analysis.ofFiles fs dialect before).warnings ++
          (Step.ofFile fs dialect path).unreadable ++ later ∧
      (Analysis.ofFiles fs dialect (before ++ after)).warnings =
        (Analysis.ofFiles fs dialect before).warnings ++ later := by
  induction after using List.reverseRecOn with
  | nil =>
    have hnew : path ∉ before := fun hmem =>
      (List.nodup_append.mp hn).2.2 path hmem path (by simp) rfl
    refine ⟨[], ?_, by simp⟩
    rw [warnings_ofFiles_append, if_neg hnew, hinert]
    simp [displacements]
  | append_singleton after last ih =>
    rw [← List.cons_append, ← List.append_assoc] at hn ⊢
    rw [← List.append_assoc]
    obtain ⟨hfront, -, hlast⟩ := List.nodup_append.mp hn
    have hnew : last ∉ before ++ path :: after := fun hmem => hlast last hmem last (by simp) rfl
    have hpart : (before ++ after).Sublist (before ++ path :: after) := by simp
    have hnew' : last ∉ before ++ after := fun hmem => hnew (hpart.subset hmem)
    obtain ⟨later, hwith, hwithout⟩ := ih hfront
    -- With and without the file, the last one displaces the same providers.
    refine ⟨later ++ ((Step.ofFile fs dialect last).unreadable ++
      displacements (filesOf fs dialect (before ++ after)) last
        (Symbols.ofFileOrNone fs dialect last)), ?_, ?_⟩
    · rw [warnings_ofFiles_append, if_neg hnew, hwith, displacements, displacements,
        funext (lastProvider?_of_inert hinert hfront)]
      simp
    · rw [warnings_ofFiles_append, if_neg hnew', hwithout]
      simp

theorem exists_orderFiles_of_inert {before after : List String}
    (hn : (before ++ path :: after).Nodup) :
    (∃ ordered, orderFiles fs dialect (before ++ path :: after) = .ok ordered) ↔
      ∃ ordered, orderFiles fs dialect (before ++ after) = .ok ordered := by
  rw [exists_orderFiles_iff, exists_orderFiles_iff, Graph.exists_sort_eq_ok_iff wellFormed_ofFiles,
    Graph.exists_sort_eq_ok_iff wellFormed_ofFiles]
  unfold Graph.RequiresName
  rw [prerequisites_of_inert hinert hn]

/-- The order of the other files is the order of the list without the file. -/
theorem sort_of_inert {before after : List String} (hn : (before ++ path :: after).Nodup)
    {files : List String}
    (hs : (Analysis.ofFiles fs dialect (before ++ path :: after)).graph.sort = .ok files) :
    (Analysis.ofFiles fs dialect (before ++ after)).graph.sort = .ok (files.filter (· ≠ path)) := by
  have hrest : (before ++ after).Nodup := hn.sublist (by simp)
  have hnot : path ∉ before ++ after := (List.nodup_cons.mp (List.nodup_middle.mp hn)).1
  have heq := prerequisites_of_inert hinert hn
  refine Graph.sort_of_part wellFormed_ofFiles wellFormed_ofFiles hs ?_ (fun a _ => by rw [heq]) ?_
  · have hkept : ∀ a ∈ before ++ after, a ≠ path := fun a ha hself => hnot (hself ▸ ha)
    have hbefore := List.filter_eq_self.mpr fun a ha =>
      decide_eq_true (hkept a (List.mem_append_left after ha))
    have hafter := List.filter_eq_self.mpr fun a ha =>
      decide_eq_true (hkept a (List.mem_append_right before ha))
    rw [names_ofFiles, names_ofFiles, eraseDups_of_nodup hn, eraseDups_of_nodup hrest,
      List.filter_append, List.filter_cons_of_neg (by simp), hbefore, hafter]
  · intro a _ _ b hb
    rw [heq] at hb
    have hlisted := mem_paths_of_mem_prerequisites hb
    exact decide_eq_true fun hself => hnot (hself ▸ hlisted)

end Inert

/-- A file without symbols can be left out: whether there is a build order and how it arranges the
other files remains the same, and only the warning that the file cannot be read is lost. -/
theorem orderFiles_erase_of_inert {fs : FileSystem} {dialect : Dialect} {paths : List String}
    {path : String} (hn : paths.Nodup) (hpath : path ∈ paths)
    (hinert : Symbols.ofFileOrNone fs dialect path = {}) :
    ((∃ ordered, orderFiles fs dialect paths = .ok ordered) ↔
      ∃ ordered, orderFiles fs dialect (paths.erase path) = .ok ordered) ∧
    ∀ ordered, orderFiles fs dialect paths = .ok ordered → ∃ before after,
      ordered.warnings = before ++ (Step.ofFile fs dialect path).unreadable ++ after ∧
        orderFiles fs dialect (paths.erase path) =
          .ok ⟨ordered.files.erase path, before ++ after⟩ := by
  obtain ⟨before, after, -, rfl, herase⟩ := List.exists_erase_eq hpath
  rw [herase]
  refine ⟨exists_orderFiles_of_inert hinert hn, fun ordered ho => ?_⟩
  obtain ⟨later, hwith, hwithout⟩ := warnings_of_inert hinert hn
  have hfiles : ordered.files.filter (· ≠ path) = ordered.files.erase path := by
    rw [(nodup_files_of_orderFiles ho).erase_eq_filter]
    exact List.filter_congr fun a _ => by simp [bne, beq_eq_decide]
  have hs := sort_of_inert hinert hn (sort_of_orderFiles ho)
  refine ⟨_, later, (warnings_of_orderFiles ho).trans hwith, ?_⟩
  rw [orderFiles_eq, hs, hwithout, hfiles]
  rfl

/-- A missing file at the head of the list, between others that need each other. -/
theorem orderFiles_erase_of_inert_missing :
    let fs := FileSystem.ofTexts [("main.f90", "use grid\nuse kinds"),
      ("grid.f90", "module grid\nuse kinds"), ("kinds.f90", "module kinds")]
    let paths := ["main.f90", "missing.f90", "grid.f90", "kinds.f90"]
    ∃ before after,
      [Warning.unreadable "missing.f90" "No such file or directory (os error 2)"] =
          before ++ (Step.ofFile fs .modules "missing.f90").unreadable ++ after ∧
        orderFiles fs .modules (paths.erase "missing.f90") =
          .ok ⟨["kinds.f90", "grid.f90", "main.f90"], before ++ after⟩ := by
  intro fs paths
  exact (orderFiles_erase_of_inert (by decide) (by decide) (by decide +kernel)).2
    ⟨["missing.f90", "kinds.f90", "grid.f90", "main.f90"], _⟩ (by decide +kernel)

end BuildOrder
