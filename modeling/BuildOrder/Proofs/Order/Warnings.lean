import BuildOrder.Proofs.Order.Files

/-! The account of warnings. Each listed path is warned about by what is listed before it, and the
warnings about a symbol name its providers, each with the next one. -/
namespace BuildOrder
open Linker

/-- The symbol with a new provider, if the warning is about one. -/
def Warning.displaced? : Warning → Option String
  | duplicateProvider symbol _ _ => some symbol
  | _ => none

def Warning.isUnreadable : Warning → Bool
  | unreadable _ _ => true
  | _ => false

/-- The distinct files that provide a symbol, up to case, in input order. -/
def providersOf (fs : FileSystem) (dialect : Dialect) (paths : List String) (symbol : String) :
    List String :=
  paths.eraseDups.filter fun path => offers (Symbols.ofFileOrNone fs dialect path) symbol

/-- What is said about a path that is listed after others. -/
def warningsAbout (fs : FileSystem) (dialect : Dialect) (before : List String) (path : String) :
    List Warning :=
  if path ∈ before then [.duplicateInput path]
  else
    match fs.read path with
    | .error e => [.unreadable path e.message]
    | .ok _ =>
      (Symbols.ofFileOrNone fs dialect path).provides.filterMap fun symbol =>
        (providersOf fs dialect before symbol).getLast?.map fun previous =>
          .duplicateProvider symbol previous path

section ConsecutivePairs

variable {α : Type}

theorem zip_tail_append_singleton (xs : List α) (x : α) : (xs ++ [x]).zip (xs ++ [x]).tail =
    xs.zip xs.tail ++ (xs.getLast?.map fun y => (y, x)).toList := by
  induction xs with
  | nil => rfl
  | cons y ys ih =>
    cases ys with
    | nil => rfl
    | cons z zs => simpa using ih

theorem zip_tail_eq_nil_iff {xs : List α} : xs.zip xs.tail = [] ↔ xs.length ≤ 1 := by
  cases xs with
  | nil => simp
  | cons x xs =>
    cases xs with
    | nil => simp
    | cons y ys => simp

/-- The last pair ends with the last element. -/
theorem getLast?_of_zip_tail {xs : List α} {pair : α × α}
    (h : (xs.zip xs.tail).getLast? = some pair) : xs.getLast? = some pair.2 := by
  induction xs using List.reverseRecOn with
  | nil => cases h
  | append_singleton xs x _ =>
    rw [zip_tail_append_singleton] at h
    cases hlast : xs.getLast? with
    | none =>
      rw [List.getLast?_eq_none_iff.mp hlast] at h
      cases h
    | some y =>
      rw [hlast] at h
      simp only [Option.map_some, Option.toList_some, List.getLast?_concat, Option.some.injEq] at h
      simp [← h]

end ConsecutivePairs

section

variable {fs : FileSystem} {dialect : Dialect} {paths : List String}

theorem getLast?_providersOf (symbol : String) :
    (providersOf fs dialect paths symbol).getLast? =
      lastProvider? (filesOf fs dialect paths) symbol :=
  (lastProvider?_filesOf symbol).symm

theorem providersOf_append (path symbol : String) :
    providersOf fs dialect (paths ++ [path]) symbol = providersOf fs dialect paths symbol ++
      if path ∉ paths ∧ offers (Symbols.ofFileOrNone fs dialect path) symbol = true then [path]
      else [] := by
  rw [providersOf, providersOf, eraseDups_append_singleton, List.filter_append]
  by_cases hmem : path ∈ paths
  · simp [hmem]
  · simp [hmem, List.filter_singleton]

/-- The symbols of a file cannot be told exactly where it cannot be read. -/
theorem Symbols.ofFile_eq_error_iff {path : String} {e : ReadError} :
    Symbols.ofFile fs dialect path = .error e ↔ fs.read path = .error e := by
  rw [Symbols.ofFile, FileSystem.readText]
  cases fs.read path <;> simp [Except.map]

theorem unreadable_ofFile (path : String) : (Step.ofFile fs dialect path).unreadable =
    match fs.read path with
    | .error e => [.unreadable path e.message]
    | .ok _ => [] := by
  rw [Step.unreadable, Symbols.ofFile, FileSystem.readText]
  cases fs.read path <;> rfl

theorem warningsAbout_of_mem {path : String} (hmem : path ∈ paths) :
    warningsAbout fs dialect paths path = [.duplicateInput path] :=
  if_pos hmem

theorem warningsAbout_of_new {path : String} (hnew : path ∉ paths) :
    warningsAbout fs dialect paths path = (Step.ofFile fs dialect path).unreadable ++
      displacements (filesOf fs dialect paths) path (Symbols.ofFileOrNone fs dialect path) := by
  rw [warningsAbout, if_neg hnew, unreadable_ofFile]
  simp only [getLast?_providersOf]
  cases hread : fs.read path with
  | error e =>
    rw [Symbols.ofFileOrNone, Symbols.ofFile_eq_error_iff.mpr hread]
    rfl
  | ok bytes => rfl

theorem warnings_ofFiles_append_singleton (path : String) :
    (Analysis.ofFiles fs dialect (paths ++ [path])).warnings =
      (Analysis.ofFiles fs dialect paths).warnings ++ warningsAbout fs dialect paths path := by
  rw [warnings_ofFiles_append]
  split
  next hmem => rw [warningsAbout_of_mem hmem]
  next hnew => rw [warningsAbout_of_new hnew]

theorem warnings_ofFiles_eq_flatMap : (Analysis.ofFiles fs dialect paths).warnings =
    paths.zipIdx.flatMap fun (path, i) => warningsAbout fs dialect (paths.take i) path := by
  induction paths using List.reverseRecOn with
  | nil => rfl
  | append_singleton paths path ih =>
    have hold : (paths.zipIdx.flatMap fun (p, i) =>
        warningsAbout fs dialect ((paths ++ [path]).take i) p) =
          paths.zipIdx.flatMap fun (p, i) => warningsAbout fs dialect (paths.take i) p := by
      refine List.flatMap_congr fun (p, i) hmem => ?_
      have hi : i < paths.length := (List.mem_zipIdx' hmem).1
      simp only [List.take_append_of_le_length (Nat.le_of_lt hi)]
    rw [warnings_ofFiles_append_singleton, ih, List.zipIdx_append, List.flatMap_append, hold]
    simp

theorem upper_of_mem_provides {path symbol : String}
    (hs : symbol ∈ (Symbols.ofFileOrNone fs dialect path).provides) :
    Text.upper symbol = symbol := by
  rw [Symbols.ofFileOrNone, Symbols.ofFile] at hs
  cases hread : fs.readText path with
  | error e => simp [hread, Except.map, Except.toOption] at hs
  | ok content =>
    rw [hread] at hs
    exact Symbols.upper_of_mem_ofText hs

theorem offers_iff_mem {path symbol : String} :
    offers (Symbols.ofFileOrNone fs dialect path) symbol = true ↔
      Text.upper symbol ∈ (Symbols.ofFileOrNone fs dialect path).provides := by
  rw [offers_iff]
  constructor
  · rintro ⟨provided, hmem, heq⟩
    rwa [← heq, upper_of_mem_provides hmem]
  · exact fun hmem => ⟨_, hmem, upper_of_mem_provides hmem⟩

theorem isUnreadable_of_mem_unreadable {path : String} {w : Warning}
    (hw : w ∈ (Step.ofFile fs dialect path).unreadable) : ∃ reason, w = .unreadable path reason := by
  rw [Step.unreadable] at hw
  cases hfile : Symbols.ofFile fs dialect path with
  | ok symbols => simp [hfile] at hw
  | error e => exact ⟨e.message, by simpa [hfile] using hw⟩

theorem mem_displacements {inputs : List (String × Symbols)} {path : String} {symbols : Symbols}
    {w : Warning} : w ∈ displacements inputs path symbols ↔ ∃ symbol ∈ symbols.provides,
      ∃ previous, lastProvider? inputs symbol = some previous ∧
        w = .duplicateProvider symbol previous path := by
  simp [displacements, eq_comm]

theorem mem_warningsAbout {path : String} {w : Warning}
    (hw : w ∈ warningsAbout fs dialect paths path) :
    (path ∈ paths ∧ w = .duplicateInput path) ∨
      (path ∉ paths ∧ ∃ reason, w = .unreadable path reason) ∨
      (path ∉ paths ∧ ∃ symbol ∈ (Symbols.ofFileOrNone fs dialect path).provides,
        ∃ previous, w = .duplicateProvider symbol previous path) := by
  by_cases hmem : path ∈ paths
  · rw [warningsAbout_of_mem hmem] at hw
    exact Or.inl ⟨hmem, List.mem_singleton.mp hw⟩
  · rw [warningsAbout_of_new hmem, List.mem_append] at hw
    rcases hw with hw | hw
    · exact Or.inr (Or.inl ⟨hmem, isUnreadable_of_mem_unreadable hw⟩)
    · obtain ⟨symbol, hsymbol, previous, -, rfl⟩ := mem_displacements.mp hw
      exact Or.inr (Or.inr ⟨hmem, symbol, hsymbol, previous, rfl⟩)

theorem count_duplicateInput_warningsAbout (path other : String) :
    (warningsAbout fs dialect paths path).count (.duplicateInput other) =
      if path ∈ paths ∧ path = other then 1 else 0 := by
  by_cases hmem : path ∈ paths
  · rw [warningsAbout_of_mem hmem]
    simp [hmem, List.count_singleton]
  · rw [if_neg fun h => hmem h.1, List.count_eq_zero]
    intro hw
    rcases mem_warningsAbout hw with ⟨h, -⟩ | ⟨-, _, h⟩ | ⟨-, _, -, _, h⟩
    · exact hmem h
    · cases h
    · cases h

theorem count_duplicateInput_warnings (path : String) :
    (Analysis.ofFiles fs dialect paths).warnings.count (.duplicateInput path) =
      paths.count path - 1 := by
  induction paths using List.reverseRecOn with
  | nil => rfl
  | append_singleton paths last ih =>
    have hpos : last ∈ paths ↔ 0 < paths.count last := List.count_pos_iff.symm
    rw [warnings_ofFiles_append_singleton, List.count_append, ih,
      count_duplicateInput_warningsAbout, List.count_append, List.count_singleton]
    by_cases hlast : last = path
    · subst hlast
      simp only [hpos, and_true, beq_self_eq_true, if_true]
      split <;> omega
    · simp [hlast]

theorem filter_isUnreadable_warningsAbout (path : String) :
    (warningsAbout fs dialect paths path).filter Warning.isUnreadable =
      if path ∈ paths then [] else (Step.ofFile fs dialect path).unreadable := by
  split
  next hmem => rw [warningsAbout_of_mem hmem]; rfl
  next hnew =>
    have hunreadable : (Step.ofFile fs dialect path).unreadable.filter Warning.isUnreadable =
        (Step.ofFile fs dialect path).unreadable := by
      refine List.filter_eq_self.mpr fun w hw => ?_
      obtain ⟨reason, rfl⟩ := isUnreadable_of_mem_unreadable hw
      rfl
    have hdisplaced : (displacements (filesOf fs dialect paths) path
        (Symbols.ofFileOrNone fs dialect path)).filter Warning.isUnreadable = [] := by
      refine List.filter_eq_nil_iff.mpr fun w hw => ?_
      obtain ⟨symbol, -, previous, -, rfl⟩ := mem_displacements.mp hw
      exact Bool.false_ne_true
    rw [warningsAbout_of_new hnew, List.filter_append, hunreadable, hdisplaced, List.append_nil]

theorem filter_isUnreadable_warnings :
    (Analysis.ofFiles fs dialect paths).warnings.filter Warning.isUnreadable =
      paths.eraseDups.flatMap fun path =>
        match fs.read path with
        | .error e => [.unreadable path e.message]
        | .ok _ => [] := by
  simp only [← @unreadable_ofFile fs dialect]
  induction paths using List.reverseRecOn with
  | nil => rfl
  | append_singleton paths path ih =>
    rw [warnings_ofFiles_append_singleton, List.filter_append, ih,
      filter_isUnreadable_warningsAbout, eraseDups_append_singleton, List.flatMap_append]
    split <;> simp

theorem filter_displaced?_displacements {inputs : List (String × Symbols)} (path symbol : String) :
    (displacements inputs path (Symbols.ofFileOrNone fs dialect path)).filter
        (·.displaced? = some (Text.upper symbol)) =
      if offers (Symbols.ofFileOrNone fs dialect path) symbol = true then
        ((lastProvider? inputs symbol).map fun previous =>
          .duplicateProvider (Text.upper symbol) previous path).toList
      else [] := by
  have hnodup : (Symbols.ofFileOrNone fs dialect path).provides.Nodup :=
    (nodup_upper_ofFileOrNone fs dialect path).of_map _
  have hlast : lastProvider? inputs (Text.upper symbol) = lastProvider? inputs symbol :=
    lastProvider?_congr (Text.upper_upper symbol)
  have hsymbol : ∀ s ∈ (Symbols.ofFileOrNone fs dialect path).provides,
      (((lastProvider? inputs s).map fun previous =>
        Warning.duplicateProvider s previous path).filter
          (·.displaced? = some (Text.upper symbol))) =
        if s = Text.upper symbol then (lastProvider? inputs symbol).map fun previous =>
          .duplicateProvider (Text.upper symbol) previous path
        else none := by
    intro s _
    split
    next heq =>
      rw [heq, hlast]
      cases lastProvider? inputs symbol <;> simp [Option.filter, Warning.displaced?]
    next hne =>
      cases lastProvider? inputs s <;> simp [Option.filter, Warning.displaced?, hne]
  rw [displacements, List.filter_filterMap, List.filterMap_congr hsymbol,
    filterMap_ite_eq hnodup]
  simp only [offers_iff_mem]

/-- A new provider of a symbol is warned about once, together with the provider before it. -/
theorem filter_displaced?_warningsAbout (path symbol : String) :
    (warningsAbout fs dialect paths path).filter (·.displaced? = some (Text.upper symbol)) =
      if path ∉ paths ∧ offers (Symbols.ofFileOrNone fs dialect path) symbol = true then
        ((providersOf fs dialect paths symbol).getLast?.map fun previous =>
          .duplicateProvider (Text.upper symbol) previous path).toList
      else [] := by
  by_cases hmem : path ∈ paths
  · rw [warningsAbout_of_mem hmem, if_neg fun h => h.1 hmem]
    rfl
  · have hunreadable : (Step.ofFile fs dialect path).unreadable.filter
        (·.displaced? = some (Text.upper symbol)) = [] := by
      refine List.filter_eq_nil_iff.mpr fun w hw => ?_
      obtain ⟨reason, rfl⟩ := isUnreadable_of_mem_unreadable hw
      simp [Warning.displaced?]
    rw [warningsAbout_of_new hmem, List.filter_append, hunreadable, List.nil_append,
      filter_displaced?_displacements, getLast?_providersOf]
    simp only [hmem, not_false_eq_true, true_and]

/-- The warnings about a symbol name each of its providers with the next one. -/
theorem filter_displaced?_warnings (symbol : String) :
    (Analysis.ofFiles fs dialect paths).warnings.filter
        (·.displaced? = some (Text.upper symbol)) =
      ((providersOf fs dialect paths symbol).zip (providersOf fs dialect paths symbol).tail).map
        fun pair => .duplicateProvider (Text.upper symbol) pair.1 pair.2 := by
  induction paths using List.reverseRecOn with
  | nil => rfl
  | append_singleton paths path ih =>
    rw [warnings_ofFiles_append_singleton, List.filter_append, ih,
      filter_displaced?_warningsAbout, providersOf_append]
    split
    next hnew =>
      rw [zip_tail_append_singleton, List.map_append]
      cases (providersOf fs dialect paths symbol).getLast? <;> rfl
    next => rw [List.append_nil, List.append_nil]

theorem upper_of_duplicateProvider_mem {symbol previous current : String}
    (hw : .duplicateProvider symbol previous current ∈ (Analysis.ofFiles fs dialect paths).warnings) :
    Text.upper symbol = symbol := by
  rw [warnings_ofFiles_eq_flatMap, List.mem_flatMap] at hw
  obtain ⟨⟨path, i⟩, -, hw⟩ := hw
  rcases mem_warningsAbout hw with ⟨-, h⟩ | ⟨-, _, h⟩ | ⟨-, provided, hprovided, _, h⟩
  · cases h
  · cases h
  · cases h
    exact upper_of_mem_provides hprovided

theorem duplicateProvider_not_mem_iff :
    (∀ symbol previous current,
      .duplicateProvider symbol previous current ∉ (Analysis.ofFiles fs dialect paths).warnings) ↔
    ∀ symbol, (providersOf fs dialect paths symbol).length ≤ 1 := by
  constructor
  · intro hnone symbol
    rw [← zip_tail_eq_nil_iff, ← List.map_eq_nil_iff, ← filter_displaced?_warnings,
      List.filter_eq_nil_iff]
    intro w hw hdisplaced
    cases w with
    | duplicateProvider s previous current => exact hnone s previous current hw
    | unreadable | missingNode | duplicateInput => simp [Warning.displaced?] at hdisplaced
  · intro hlength symbol previous current hw
    have hupper := upper_of_duplicateProvider_mem hw
    have hpairs := zip_tail_eq_nil_iff.mpr (hlength symbol)
    rw [← List.map_eq_nil_iff, ← filter_displaced?_warnings, List.filter_eq_nil_iff] at hpairs
    exact hpairs _ hw (by simp [Warning.displaced?, hupper])

/-- What is said last about a symbol tells the file that its requirements lead to. -/
theorem lastProvider?_of_getLast? {symbol previous current : String}
    (hlast : ((Analysis.ofFiles fs dialect paths).warnings.filter
      (·.displaced? = some symbol)).getLast? = some (.duplicateProvider symbol previous current)) :
    lastProvider? (filesOf fs dialect paths) symbol = some current := by
  have hmem := (List.mem_filter.mp (List.mem_of_getLast? hlast)).1
  have hupper := upper_of_duplicateProvider_mem hmem
  rw [← hupper, filter_displaced?_warnings, hupper, List.getLast?_map] at hlast
  obtain ⟨pair, hpair, heq⟩ := Option.map_eq_some_iff.mp hlast
  cases heq
  rw [← getLast?_providersOf]
  exact getLast?_of_zip_tail hpair

theorem provider?_collected (symbol : String) :
    (paths.foldl (addFile fs dialect) {}).registry.provider? symbol =
      lastProvider? (filesOf fs dialect paths) symbol := by
  have hrun : paths.foldl (addFile fs dialect) {} = run (paths.map (.ofFile fs dialect)) := by
    rw [run, List.foldl_map]
    rfl
  rw [hrun, (collected_run _).provider?, inputs_ofFile]

end

/-- The account of all warnings of a list of files. They are raised path by path, each in view of
the paths before it, and come to one for every repeated listing, one for every distinct path that
cannot be read, and one for every provider of a symbol after the first, which names the provider
before it. The last provider so named is the one that requirements lead to. -/
theorem warnings_ofFiles_account (fs : FileSystem) (dialect : Dialect) (paths : List String) :
    let analysis := Analysis.ofFiles fs dialect paths
    analysis.warnings = (paths.zipIdx.flatMap fun (path, i) =>
      warningsAbout fs dialect (paths.take i) path) ∧
    (∀ path, analysis.warnings.count (.duplicateInput path) = paths.count path - 1) ∧
    (analysis.warnings.filter Warning.isUnreadable =
      paths.eraseDups.flatMap fun path =>
        match fs.read path with
        | .error e => [.unreadable path e.message]
        | .ok _ => []) ∧
    (∀ symbol, analysis.warnings.filter (·.displaced? = some (Text.upper symbol)) =
      ((providersOf fs dialect paths symbol).zip (providersOf fs dialect paths symbol).tail).map
        fun pair => .duplicateProvider (Text.upper symbol) pair.1 pair.2) ∧
    (∀ symbol previous current, .duplicateProvider symbol previous current ∈ analysis.warnings →
      Text.upper symbol = symbol) ∧
    ((∀ symbol previous current,
        .duplicateProvider symbol previous current ∉ analysis.warnings) ↔
      ∀ symbol, (providersOf fs dialect paths symbol).length ≤ 1) ∧
    ∀ symbol previous current,
      (analysis.warnings.filter (·.displaced? = some symbol)).getLast? =
          some (.duplicateProvider symbol previous current) →
        (paths.foldl (addFile fs dialect) {}).registry.provider? symbol = some current ∧
        ∀ path ∈ paths, path ≠ current →
          ∀ required ∈ (Symbols.ofFileOrNone fs dialect path).requires,
            Text.upper required = symbol → (path, current) ∈ analysis.graph.edges := by
  refine ⟨warnings_ofFiles_eq_flatMap, count_duplicateInput_warnings, filter_isUnreadable_warnings,
    filter_displaced?_warnings, fun _ _ _ => upper_of_duplicateProvider_mem,
    duplicateProvider_not_mem_iff, ?_⟩
  intro symbol previous current hlast
  have hprovider := lastProvider?_of_getLast? hlast
  have hmem := (List.mem_filter.mp (List.mem_of_getLast? hlast)).1
  have hupper := upper_of_duplicateProvider_mem hmem
  refine ⟨(provider?_collected symbol).trans hprovider, fun path hpath hne required hrequired heq => ?_⟩
  rw [Graph.mem_edges_iff wellFormed_ofFiles, prerequisites_ofFiles hpath, List.mem_eraseDups,
    mem_providers]
  have hcongr : Text.upper required = Text.upper symbol := by rw [heq, hupper]
  exact ⟨hne.symm, required, hrequired, (lastProvider?_congr hcongr).trans hprovider⟩

example : (Analysis.ofFiles (.ofTexts [("a.f90", "module m"), ("b.f90", "module m"),
    ("c.f90", "module M")]) .modules ["a.f90", "b.f90", "a.f90", "c.f90", "d.f90"]).warnings =
      [.duplicateProvider "M" "a.f90" "b.f90", .duplicateInput "a.f90",
        .duplicateProvider "M" "b.f90" "c.f90",
        .unreadable "d.f90" "No such file or directory (os error 2)"] := by
  decide +kernel

end BuildOrder
