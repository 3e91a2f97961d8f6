import BuildOrder.Proofs.Order.Files

/-! Ordering files of both dialects comes down to ordering those of each dialect on their own: it
fails at the first path without a dialect, or else as the first dialect that has no build order
does, and otherwise gives one order after the other. -/
namespace BuildOrder

/-- The dialect that a path is put to, if there is one. -/
def dialectOf? (forced : Option Dialect) (extensions : Extensions) (path : String) :
    Option Dialect :=
  forced.or (Dialect.ofPath? extensions path)

/-- The first path that is put to no dialect. -/
def firstUnknown? (forced : Option Dialect) (extensions : Extensions) (paths : List String) :
    Option String :=
  paths.find? fun path => (dialectOf? forced extensions path).isNone

/-- The paths that are put to a dialect, in input order. -/
def pathsOf (forced : Option Dialect) (extensions : Extensions) (dialect : Dialect)
    (paths : List String) : List String :=
  paths.filter fun path => dialectOf? forced extensions path = some dialect

section Partition

variable {forced : Option Dialect} {extensions : Extensions}

theorem mem_pathsOf {dialect : Dialect} {paths : List String} {path : String} :
    path ∈ pathsOf forced extensions dialect paths ↔
      path ∈ paths ∧ dialectOf? forced extensions path = some dialect := by
  rw [pathsOf, List.mem_filter, decide_eq_true_eq]

theorem classify_of_some {path : String} {dialect : Dialect}
    (h : dialectOf? forced extensions path = some dialect) :
    classify forced extensions path = .ok (dialect, path) := by
  rw [dialectOf?] at h
  rw [classify, h]

theorem classify_of_none {path : String} (h : dialectOf? forced extensions path = none) :
    classify forced extensions path = .error (.unknownDialect path) := by
  rw [dialectOf?] at h
  rw [classify, h]

theorem mapM_classify_of_unknown {paths : List String} {unknown : String}
    (h : firstUnknown? forced extensions paths = some unknown) :
    paths.mapM (classify forced extensions) = .error (.unknownDialect unknown) := by
  induction paths with
  | nil => cases h
  | cons path paths ih =>
    rw [List.mapM_cons]
    cases hd : dialectOf? forced extensions path with
    | none =>
      have hpath : path = unknown := by simpa [firstUnknown?, hd] using h
      rw [classify_of_none hd, hpath]
      rfl
    | some dialect =>
      have hrest : firstUnknown? forced extensions paths = some unknown := by
        simpa [firstUnknown?, hd] using h
      rw [classify_of_some hd, ih hrest]
      rfl

theorem mapM_classify_of_known {paths : List String}
    (h : firstUnknown? forced extensions paths = none) :
    ∃ classified, paths.mapM (classify forced extensions) = .ok classified ∧
      ∀ dialect, (classified.filter (·.1 = dialect)).map (·.2) =
        pathsOf forced extensions dialect paths := by
  induction paths with
  | nil => exact ⟨[], rfl, fun _ => rfl⟩
  | cons path paths ih =>
    cases hd : dialectOf? forced extensions path with
    | none => simp [firstUnknown?, hd] at h
    | some d =>
      have hrest : firstUnknown? forced extensions paths = none := by
        simpa [firstUnknown?, hd] using h
      obtain ⟨classified, hmapM, hfilter⟩ := ih hrest
      refine ⟨(d, path) :: classified, ?_, fun dialect => ?_⟩
      · rw [List.mapM_cons, classify_of_some hd, hmapM]
        rfl
      · by_cases hdialect : d = dialect
        · simp [pathsOf, hd, hdialect, hfilter]
        · simp [pathsOf, hd, hdialect, hfilter]

theorem partition_of_unknown {paths : List String} {unknown : String}
    (h : firstUnknown? forced extensions paths = some unknown) :
    partition forced extensions paths = .error (.unknownDialect unknown) := by
  rw [partition, mapM_classify_of_unknown h]
  rfl

theorem partition_of_known {paths : List String}
    (h : firstUnknown? forced extensions paths = none) :
    partition forced extensions paths = .ok (([.modules, .includes].map fun dialect =>
      (dialect, pathsOf forced extensions dialect paths)).filter (·.2 ≠ [])) := by
  obtain ⟨classified, hmapM, hfilter⟩ := mapM_classify_of_known h
  rw [partition, hmapM]
  simp only [← hfilter]
  rfl

end Partition

section Groups

/-- The orders of groups one after the other, with all their warnings. -/
def orderGroups (groups : List Group) : Except SortError Ordered :=
  (sortGroups groups).map fun files => ⟨files, groups.flatMap (·.analysis.warnings)⟩

def Group.ofFiles (fs : FileSystem) (part : Dialect × List String) : Group :=
  ⟨part.1, Analysis.ofFiles fs part.1 part.2⟩

variable {fs : FileSystem}

theorem analyzeGroups_of_unknown {forced : Option Dialect} {extensions : Extensions}
    {paths : List String} {unknown : String}
    (h : firstUnknown? forced extensions paths = some unknown) :
    analyzeGroups fs forced extensions paths = .error (.unknownDialect unknown) := by
  rw [analyzeGroups, partition_of_unknown h]
  rfl

theorem analyzeGroups_of_known {forced : Option Dialect} {extensions : Extensions}
    {paths : List String} (h : firstUnknown? forced extensions paths = none) :
    analyzeGroups fs forced extensions paths =
      .ok ((([.modules, .includes].map fun dialect =>
        (dialect, pathsOf forced extensions dialect paths)).filter (·.2 ≠ [])).map
          (.ofFiles fs)) := by
  rw [analyzeGroups, partition_of_known h]
  rfl

theorem orderGroups_cons (part : Dialect × List String) (groups : List Group) :
    orderGroups (.ofFiles fs part :: groups) = do
      let first ← orderFiles fs part.1 part.2
      let rest ← orderGroups groups
      return ⟨first.files ++ rest.files, first.warnings ++ rest.warnings⟩ := by
  rw [orderFiles_eq, orderGroups, orderGroups, sortGroups, sortGroups, List.mapM_cons]
  cases hfirst : (Analysis.ofFiles fs part.1 part.2).graph.sort with
  | error e => simp [Group.ofFiles, hfirst, bind, Except.bind, Except.map]
  | ok files =>
    cases hrest : groups.mapM fun (group : Group) => group.analysis.graph.sort with
    | error e => simp [Group.ofFiles, hfirst, bind, Except.bind, Except.map]
    | ok rest =>
      simp [Group.ofFiles, hfirst, bind, Except.bind, Except.map, pure, Except.pure]

/-- A dialect without files contributes nothing. -/
theorem orderGroups_filter (fs : FileSystem) (parts : List (Dialect × List String)) :
    orderGroups ((parts.filter (·.2 ≠ [])).map (.ofFiles fs)) =
      orderGroups (parts.map (.ofFiles fs)) := by
  induction parts with
  | nil => rfl
  | cons part parts ih =>
    obtain ⟨dialect, files⟩ := part
    cases files with
    | nil =>
      have hempty : orderFiles fs dialect [] = .ok ⟨[], []⟩ := rfl
      rw [List.filter_cons_of_neg (by simp), List.map_cons, orderGroups_cons, hempty, ih]
      cases orderGroups (parts.map (.ofFiles fs)) <;> rfl
    | cons file files =>
      rw [List.filter_cons_of_pos (by simp), List.map_cons, List.map_cons, orderGroups_cons,
        orderGroups_cons, ih]

theorem orderGroups_pair (first second : Dialect × List String) :
    orderGroups [.ofFiles fs first, .ofFiles fs second] = do
      let a ← orderFiles fs first.1 first.2
      let b ← orderFiles fs second.1 second.2
      return ⟨a.files ++ b.files, a.warnings ++ b.warnings⟩ := by
  have hnil : orderGroups [] = .ok ⟨[], []⟩ := rfl
  rw [orderGroups_cons, orderGroups_cons, hnil]
  cases orderFiles fs first.1 first.2 with
  | error e => rfl
  | ok a =>
    cases orderFiles fs second.1 second.2 with
    | error e => rfl
    | ok b => simp [bind, Except.bind, pure, Except.pure]

end Groups

section Mixed

variable {fs : FileSystem} {extensions : Extensions} {paths : List String}

theorem orderMixed_of_unknown {unknown : String}
    (h : firstUnknown? none extensions paths = some unknown) :
    orderMixed fs extensions paths = .error (.unknownDialect unknown) := by
  rw [orderMixed, analyzeGroups_of_unknown h]
  rfl

theorem orderMixed_of_groups {groups : List Group}
    (h : analyzeGroups fs none extensions paths = .ok groups) :
    orderMixed fs extensions paths = (orderGroups groups).mapError .sort := by
  rw [orderMixed, h, orderGroups]
  cases hs : sortGroups groups <;>
    simp [hs, bind, Except.bind, Except.map, Except.mapError, pure, Except.pure]

theorem orderMixed_of_known (h : firstUnknown? none extensions paths = none) :
    orderMixed fs extensions paths = Except.mapError OrderError.sort (do
      let m ← orderFiles fs .modules (pathsOf none extensions .modules paths)
      let i ← orderFiles fs .includes (pathsOf none extensions .includes paths)
      return ⟨m.files ++ i.files, m.warnings ++ i.warnings⟩) := by
  rw [orderMixed_of_groups (analyzeGroups_of_known h), orderGroups_filter]
  exact congrArg (Except.mapError OrderError.sort) (orderGroups_pair _ _)

theorem orderMixed_eq_ok_iff (h : firstUnknown? none extensions paths = none) {ordered : Ordered} :
    orderMixed fs extensions paths = .ok ordered ↔
      ∃ m i, orderFiles fs .modules (pathsOf none extensions .modules paths) = .ok m ∧
        orderFiles fs .includes (pathsOf none extensions .includes paths) = .ok i ∧
          ordered = ⟨m.files ++ i.files, m.warnings ++ i.warnings⟩ := by
  rw [orderMixed_of_known h]
  cases orderFiles fs .modules (pathsOf none extensions .modules paths) with
  | error e => simp [bind, Except.bind, Except.mapError]
  | ok m =>
    cases orderFiles fs .includes (pathsOf none extensions .includes paths) with
    | error e => simp [bind, Except.bind, Except.mapError]
    | ok i => simp [bind, Except.bind, Except.mapError, pure, Except.pure, eq_comm]

theorem orderMixed_eq_error_iff (h : firstUnknown? none extensions paths = none) {e : OrderError} :
    orderMixed fs extensions paths = .error e ↔
      ∃ cause, e = .sort cause ∧
        (orderFiles fs .modules (pathsOf none extensions .modules paths) = .error cause ∨
          (∃ m, orderFiles fs .modules (pathsOf none extensions .modules paths) = .ok m) ∧
            orderFiles fs .includes (pathsOf none extensions .includes paths) = .error cause) := by
  rw [orderMixed_of_known h]
  cases orderFiles fs .modules (pathsOf none extensions .modules paths) with
  | error cause => simp [bind, Except.bind, Except.mapError, eq_comm]
  | ok m =>
    cases orderFiles fs .includes (pathsOf none extensions .includes paths) with
    | error cause => simp [bind, Except.bind, Except.mapError, eq_comm]
    | ok i => simp [bind, Except.bind, Except.mapError, pure, Except.pure]

theorem firstUnknown?_eq_none_iff : firstUnknown? none extensions paths = none ↔
    ∀ path ∈ paths, Dialect.ofPath? extensions path ≠ none := by
  simp [firstUnknown?, dialectOf?]

theorem firstUnknown?_eq_some_iff {path : String} :
    firstUnknown? none extensions paths = some path ↔
      Dialect.ofPath? extensions path = none ∧ ∃ before after, paths = before ++ path :: after ∧
        ∀ p ∈ before, Dialect.ofPath? extensions p ≠ none := by
  simp [firstUnknown?, dialectOf?, List.find?_eq_some_iff_append, Option.isSome_iff_ne_none]

theorem orderMixed_eq_unknown_iff {path : String} :
    orderMixed fs extensions paths = .error (.unknownDialect path) ↔
      firstUnknown? none extensions paths = some path := by
  cases h : firstUnknown? none extensions paths with
  | none => simp [orderMixed_eq_error_iff h]
  | some unknown => simp [orderMixed_of_unknown h]

theorem mem_files_of_pathsOf {dialect : Dialect} {ordered : Ordered}
    (ho : orderFiles fs dialect (pathsOf none extensions dialect paths) = .ok ordered)
    {path : String} :
    path ∈ ordered.files ↔ path ∈ paths ∧ Dialect.ofPath? extensions path = some dialect := by
  rw [mem_files_of_orderFiles ho]
  exact mem_pathsOf

/-- An order of files of both dialects holds them all, those of the module dialect first. -/
theorem files_of_orderMixed {ordered : Ordered} (ho : orderMixed fs extensions paths = .ok ordered) :
    ordered.files.Nodup ∧ (∀ path, path ∈ ordered.files ↔ path ∈ paths) ∧
      ∀ a ∈ paths, ∀ b ∈ paths, Dialect.ofPath? extensions a = some .modules →
        Dialect.ofPath? extensions b = some .includes → [a, b].Sublist ordered.files := by
  cases hunknown : firstUnknown? none extensions paths with
  | some unknown =>
    rw [orderMixed_of_unknown hunknown] at ho
    cases ho
  | none =>
    obtain ⟨m, i, hm, hi, rfl⟩ := (orderMixed_eq_ok_iff hunknown).mp ho
    have hnm := nodup_files_of_orderFiles hm
    have hni := nodup_files_of_orderFiles hi
    refine ⟨List.nodup_append.mpr ⟨hnm, hni, ?_⟩, fun path => ?_, ?_⟩
    · rintro a ha b hb rfl
      have hmodules := ((mem_files_of_pathsOf hm).mp ha).2
      have hincludes := ((mem_files_of_pathsOf hi).mp hb).2
      rw [hmodules] at hincludes
      cases hincludes
    · rw [List.mem_append, mem_files_of_pathsOf hm, mem_files_of_pathsOf hi, ← and_or_left]
      refine and_iff_left_of_imp fun hpath => ?_
      have hknown := firstUnknown?_eq_none_iff.mp hunknown path hpath
      cases hd : Dialect.ofPath? extensions path with
      | none => exact absurd hd hknown
      | some dialect =>
        cases dialect with
        | modules => exact Or.inl rfl
        | includes => exact Or.inr rfl
    · intro a ha b hb hmodules hincludes
      have ha := (mem_files_of_pathsOf hm).mpr ⟨ha, hmodules⟩
      have hb := (mem_files_of_pathsOf hi).mpr ⟨hb, hincludes⟩
      exact (List.singleton_sublist.mpr ha).append (List.singleton_sublist.mpr hb)

/-- Ordering a mix of files fails at the first path whose dialect is unknown. Where all dialects are
known it gives the orders of both dialects one after the other, or the first of their errors. -/
theorem orderMixed_decomposes (fs : FileSystem) (extensions : Extensions) (paths : List String) :
    (∀ path, orderMixed fs extensions paths = .error (.unknownDialect path) ↔
      Dialect.ofPath? extensions path = none ∧ ∃ before after, paths = before ++ path :: after ∧
        ∀ p ∈ before, Dialect.ofPath? extensions p ≠ none) ∧
    ((∀ path ∈ paths, Dialect.ofPath? extensions path ≠ none) →
      let modules := orderFiles fs .modules
        (paths.filter fun path => Dialect.ofPath? extensions path = some .modules)
      let includes := orderFiles fs .includes
        (paths.filter fun path => Dialect.ofPath? extensions path = some .includes)
      (∀ ordered, orderMixed fs extensions paths = .ok ordered ↔
        ∃ m i, modules = .ok m ∧ includes = .ok i ∧
          ordered = ⟨m.files ++ i.files, m.warnings ++ i.warnings⟩) ∧
      ∀ e, orderMixed fs extensions paths = .error e ↔
        ∃ cause, e = .sort cause ∧
          (modules = .error cause ∨ (∃ m, modules = .ok m) ∧ includes = .error cause)) ∧
    ∀ ordered, orderMixed fs extensions paths = .ok ordered →
      ordered.files.Nodup ∧ (∀ path, path ∈ ordered.files ↔ path ∈ paths) ∧
        ∀ a ∈ paths, ∀ b ∈ paths, Dialect.ofPath? extensions a = some .modules →
          Dialect.ofPath? extensions b = some .includes → [a, b].Sublist ordered.files := by
  refine ⟨fun path => ?_, fun hknown => ?_, fun ordered ho => files_of_orderMixed ho⟩
  · rw [orderMixed_eq_unknown_iff, firstUnknown?_eq_some_iff]
  · have h := firstUnknown?_eq_none_iff.mpr hknown
    exact ⟨fun ordered => orderMixed_eq_ok_iff h, fun e => orderMixed_eq_error_iff h⟩

theorem orderMixed_decomposes_interleaved :
    let fs := FileSystem.ofTexts [("main.c", "#include <grid.h>"), ("solve.f90", "use mesh"),
      ("grid.c", "#include \"grid.h\""), ("mesh.f90", "module mesh")]
    let paths := ["main.c", "solve.f90", "grid.c", "mesh.f90", "main.c"]
    (∀ path ∈ paths, Dialect.ofPath? {} path ≠ none) ∧ orderMixed fs {} paths =
      .ok ⟨["mesh.f90", "solve.f90", "grid.c", "main.c"], [.duplicateInput "main.c"]⟩ := by
  intro fs paths
  have hknown : ∀ path ∈ paths, Dialect.ofPath? {} path ≠ none := by decide +kernel
  refine ⟨hknown, (((orderMixed_decomposes fs {} paths).2.1 hknown).1 _).mpr ?_⟩
  refine ⟨⟨["mesh.f90", "solve.f90"], []⟩, ⟨["grid.c", "main.c"], [.duplicateInput "main.c"]⟩, ?_⟩
  decide +kernel

end Mixed

end BuildOrder
