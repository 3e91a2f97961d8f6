import BuildOrder.Discovery
import BuildOrder.Proofs.Order.Plan
import BuildOrder.Proofs.PathOrder

/-! The source files found do not depend on the order in which a walk comes upon them, and each has
a dialect. -/
namespace BuildOrder.Discovery

/-- A walk that comes upon each of the entries below a root once, in some order and without an
error. -/
structure IsWalk (walk : Walker) (root : String) (entries : List Found) : Prop where
  yields : (walk root).Perm (entries.map .ok)
  once : (entries.map (·.path)).Nodup
  below : ∀ found ∈ entries, Path.IsBelow root found.path

/-- The paths of the source files among entries, in their order. -/
def sourcesAmong (extensions : Extensions) (entries : List Found) : List String :=
  ((entries.filter (isSource extensions)).map (·.path)).mergeSort Path.comesBefore

section Entries

variable {extensions : Extensions} {root : String} {entries : List Found}

theorem mem_sourcesAmong {path : String} : path ∈ sourcesAmong extensions entries ↔
    ∃ found ∈ entries, found.kind = some .file ∧ found.path = path ∧
      ∃ dialect, Dialect.ofPath? extensions path = some dialect := by
  rw [sourcesAmong, (List.mergeSort_perm _ _).mem_iff, List.mem_map]
  constructor
  · intro h
    obtain ⟨found, hfound, rfl⟩ := h
    obtain ⟨hmem, hsource⟩ := List.mem_filter.mp hfound
    rw [isSource, Bool.and_eq_true, decide_eq_true_eq] at hsource
    exact ⟨found, hmem, hsource.1, rfl, Option.isSome_iff_exists.mp hsource.2⟩
  · intro h
    obtain ⟨found, hmem, hkind, rfl, hdialect⟩ := h
    refine ⟨found, List.mem_filter.mpr ⟨hmem, ?_⟩, rfl⟩
    rw [isSource, Bool.and_eq_true, decide_eq_true_eq]
    exact ⟨hkind, Option.isSome_iff_exists.mpr hdialect⟩

/-- Below one root the sorted paths differ in their steps, as they differ. -/
theorem increasing_sourcesAmong (honce : (entries.map (·.path)).Nodup)
    (hbelow : ∀ found ∈ entries, Path.IsBelow root found.path) :
    Path.Increasing (sourcesAmong extensions entries) := by
  refine Path.increasing_mergeSort ?_
  have hpaths : ((entries.filter (isSource extensions)).map (·.path)).Nodup :=
    honce.sublist (List.filter_sublist.map _)
  have hbelow' : ∀ path ∈ (entries.filter (isSource extensions)).map (·.path),
      Path.IsBelow root path := by
    intro path hpath
    obtain ⟨found, hfound, rfl⟩ := List.mem_map.mp hpath
    exact hbelow found (List.mem_of_mem_filter hfound)
  exact hpaths.map_on fun a ha b hb => (hbelow' a ha).eq_of_parts_eq (hbelow' b hb)

theorem sourcesAmong_perm (honce : (entries.map (·.path)).Nodup)
    (hbelow : ∀ found ∈ entries, Path.IsBelow root found.path) {others : List Found}
    (h : others.Perm entries) :
    sourcesAmong extensions others = sourcesAmong extensions entries := by
  have honce' : (others.map (·.path)).Nodup := (h.map _).nodup_iff.mpr honce
  have hbelow' : ∀ found ∈ others, Path.IsBelow root found.path :=
    fun found hfound => hbelow found (h.mem_iff.mp hfound)
  refine (increasing_sourcesAmong honce' hbelow').eq_of_mem_iff
    (increasing_sourcesAmong honce hbelow) fun path => ?_
  simp only [mem_sourcesAmong, h.mem_iff]

end Entries

section Walk

variable {walk : Walker} {extensions : Extensions} {root : String} {entries : List Found}

theorem mapM_mapError_eq_ok_iff {found : List Found} :
    (walk root).mapM (fun item => item.mapError fun cause => (⟨root, cause⟩ : WalkError)) =
      .ok found ↔ walk root = found.map .ok := by
  have hone : ∀ (item : Except String Found) (entry : Found),
      (item.mapError fun cause => (⟨root, cause⟩ : WalkError)) = .ok entry ↔ item = .ok entry := by
    intro item entry
    cases item <;> simp [Except.mapError]
  rw [mapM_eq_ok_iff]
  simp only [hone]
  rw [← List.forall₂_map_right_iff, List.forall₂_eq_eq_eq]

/-- Source files are found by a walk without an error. -/
theorem sources_eq_ok_iff {found : List String} : sources walk extensions root = .ok found ↔
    ∃ entries, walk root = entries.map .ok ∧ sourcesAmong extensions entries = found := by
  simp only [← mapM_mapError_eq_ok_iff]
  rw [sources]
  cases (walk root).mapM fun item => item.mapError fun cause => (⟨root, cause⟩ : WalkError) with
  | error e => simp [bind, Except.bind]
  | ok entries => simp [bind, Except.bind, pure, Except.pure, sourcesAmong]

/-- A walk finds the same source files in whatever order it goes. -/
theorem IsWalk.sources_eq (h : IsWalk walk root entries) :
    sources walk extensions root = .ok (sourcesAmong extensions entries) := by
  obtain ⟨others, hothers, hperm⟩ : Relation.Comp (· = List.map Except.ok ·) (·.Perm ·)
      (walk root) entries := by
    rw [List.eq_map_comp_perm]
    exact h.yields
  exact sources_eq_ok_iff.mpr ⟨others, hothers, sourcesAmong_perm h.once h.below hperm⟩

end Walk

/-- What an input stands for: a directory for the source files found from it, anything else for
itself. -/
def Expands (fs : FileSystem) (walk : Walker) (extensions : Extensions) (input : String)
    (found : List String) : Prop :=
  if fs.isDirectory input = true then sources walk extensions input = .ok found
  else found = [input]

section Expand

variable {fs : FileSystem} {walk : Walker} {extensions : Extensions} {inputs paths : List String}

theorem expand_eq_ok_iff : expand fs walk extensions inputs = .ok paths ↔
    ∃ lists, List.Forall₂ (Expands fs walk extensions) inputs lists ∧ lists.flatten = paths := by
  let expandOne (input : String) : Except WalkError (List String) :=
    if fs.isDirectory input = true then sources walk extensions input else .ok [input]
  have hone : ∀ input found, expandOne input = .ok found ↔
      Expands fs walk extensions input found := by
    intro input found
    simp only [expandOne, Expands]
    split
    next => exact Iff.rfl
    next => rw [Except.ok.injEq, eq_comm]
  have hall : ∀ lists, inputs.mapM expandOne = .ok lists ↔
      List.Forall₂ (Expands fs walk extensions) inputs lists := by
    intro lists
    simp only [mapM_eq_ok_iff, hone]
  have hexpand : expand fs walk extensions inputs =
      (inputs.mapM expandOne).bind fun lists => .ok lists.flatten := rfl
  simp only [hexpand, ← hall]
  cases inputs.mapM expandOne with
  | error e => simp [Except.bind]
  | ok lists => simp [Except.bind]

theorem exists_expand_eq_ok
    (h : ∀ input ∈ inputs, fs.isDirectory input = true → ∃ entries, IsWalk walk input entries) :
    ∃ paths, expand fs walk extensions inputs = .ok paths := by
  have hone : ∀ input ∈ inputs, ∃ found, Expands fs walk extensions input found := by
    intro input hinput
    unfold Expands
    by_cases hdirectory : fs.isDirectory input = true
    · obtain ⟨entries, hwalk⟩ := h input hinput hdirectory
      exact ⟨sourcesAmong extensions entries, by rw [if_pos hdirectory, hwalk.sources_eq]⟩
    · exact ⟨[input], by rw [if_neg hdirectory]⟩
  have hall : ∃ lists, List.Forall₂ (Expands fs walk extensions) inputs lists := by
    clear h
    induction inputs with
    | nil => exact ⟨[], .nil⟩
    | cons input inputs ih =>
      obtain ⟨hinput, hinputs⟩ := List.forall_mem_cons.mp hone
      obtain ⟨found, hfound⟩ := hinput
      obtain ⟨lists, hlists⟩ := ih hinputs
      exact ⟨found :: lists, .cons hfound hlists⟩
  obtain ⟨lists, hlists⟩ := hall
  exact ⟨lists.flatten, expand_eq_ok_iff.mpr ⟨lists, hlists, rfl⟩⟩

/-- Each source file found has a dialect, whatever the walk comes upon. -/
theorem eq_of_expands_unknown {input path : String} {found : List String}
    (h : Expands fs walk extensions input found) (hpath : path ∈ found)
    (hunknown : Dialect.ofPath? extensions path = none) :
    path = input ∧ fs.isDirectory input = false := by
  rw [Expands] at h
  split at h
  next =>
    obtain ⟨entries, -, rfl⟩ := sources_eq_ok_iff.mp h
    obtain ⟨-, -, -, -, dialect, hdialect⟩ := mem_sourcesAmong.mp hpath
    rw [hunknown] at hdialect
    cases hdialect
  next hdirectory =>
    subst h
    exact ⟨List.mem_singleton.mp hpath, Bool.eq_false_iff.mpr hdirectory⟩

theorem exists_of_forall₂ {α β : Type} {r : α → β → Prop} {xs : List α} {ys : List β}
    (h : List.Forall₂ r xs ys) {y : β} (hy : y ∈ ys) : ∃ x ∈ xs, r x y := by
  induction h with
  | nil => cases hy
  | @cons x _ xs _ hr _ ih =>
    rcases List.mem_cons.mp hy with rfl | hy
    · exact ⟨x, List.mem_cons_self, hr⟩
    · obtain ⟨other, hother, hr⟩ := ih hy
      exact ⟨other, List.mem_cons_of_mem x hother, hr⟩

theorem partition_expand_eq_error (h : expand fs walk extensions inputs = .ok paths)
    {e : OrderError} (he : partition none extensions paths = .error e) :
    ∃ path ∈ inputs, fs.isDirectory path = false ∧ e = .unknownDialect path := by
  obtain ⟨lists, hlists, rfl⟩ := expand_eq_ok_iff.mp h
  cases hfirst : firstUnknown? none extensions lists.flatten with
  | none =>
    rw [partition_of_known hfirst] at he
    cases he
  | some path =>
    rw [partition_of_unknown hfirst] at he
    cases he
    obtain ⟨found, hfound, hpath⟩ := List.mem_flatten.mp (List.mem_of_find?_eq_some hfirst)
    obtain ⟨input, hinput, hexpands⟩ := exists_of_forall₂ hlists hfound
    obtain ⟨rfl, hdirectory⟩ :=
      eq_of_expands_unknown hexpands hpath (firstUnknown?_eq_some_iff.mp hfirst).1
    exact ⟨path, hinput, hdirectory, rfl⟩

end Expand

/-- A walk without errors that comes upon each entry below a root once leads to the regular files
among them that have a dialect, in strictly increasing order of their steps, and every other walk
over the same entries leads to the same list. The inputs stand for these lists and for themselves,
in their order, and fail only with a walk; a path without a dialect among them was an input, and no
directory. -/
theorem discovery_complete (fs : FileSystem) (walk : Walker) (extensions : Extensions) :
    (∀ root entries, IsWalk walk root entries → ∃ found,
      sources walk extensions root = .ok found ∧
      (∀ path, path ∈ found ↔ ∃ entry ∈ entries, entry.kind = some .file ∧ entry.path = path ∧
        ∃ dialect, Dialect.ofPath? extensions path = some dialect) ∧
      Path.Increasing found ∧
      ∀ other : Walker, IsWalk other root entries → sources other extensions root = .ok found) ∧
    (∀ inputs paths, expand fs walk extensions inputs = .ok paths ↔
      ∃ lists, List.Forall₂ (Expands fs walk extensions) inputs lists ∧ lists.flatten = paths) ∧
    (∀ inputs : List String,
      (∀ input ∈ inputs, fs.isDirectory input = true → ∃ entries, IsWalk walk input entries) →
        ∃ paths, expand fs walk extensions inputs = .ok paths) ∧
    ∀ inputs paths e, expand fs walk extensions inputs = .ok paths →
      partition none extensions paths = .error e →
        ∃ path ∈ inputs, fs.isDirectory path = false ∧ e = .unknownDialect path := by
  refine ⟨?_, fun inputs paths => expand_eq_ok_iff, fun inputs => exists_expand_eq_ok,
    fun inputs paths e hpaths he => partition_expand_eq_error hpaths he⟩
  intro root entries h
  refine ⟨sourcesAmong extensions entries, h.sources_eq, fun path => mem_sourcesAmong,
    increasing_sourcesAmong h.once h.below, fun other hother => hother.sources_eq⟩

/-- The order of the paths is not that of their texts. Links are passed over. -/
theorem discovery_complete_of_link :
    let entries : List Found := [⟨".", some .directory⟩, ⟨"./src.c", some .file⟩,
      ⟨"./src", some .directory⟩, ⟨"./src/notes.md", some .file⟩, ⟨"./src/old.c", some .link⟩,
      ⟨"./src/b.f90", some .file⟩]
    let walk : Walker := fun root => if root = "." then entries.map .ok else []
    let other : Walker := fun root => if root = "." then entries.reverse.map .ok else []
    let fs : FileSystem := ⟨fun _ => .error .notFound, fun _ => false, fun path => path = ".",
      .ok "/home"⟩
    IsWalk walk "." entries ∧ "./src.c" < "./src/b.f90" ∧
      sources other {} "." = sources walk {} "." ∧
      expand fs walk {} ["src/notes.md", "."] = .ok ["src/notes.md", "./src/b.f90", "./src.c"] ∧
      partition none {} ["src/notes.md", "./src/b.f90", "./src.c"] =
        .error (.unknownDialect "src/notes.md") ∧ fs.isDirectory "src/notes.md" = false := by
  intro entries walk other fs
  have hbelow : ∀ found ∈ entries, Path.IsBelow "." found.path := by
    simp only [entries, List.forall_mem_cons]
    exact ⟨⟨[], by decide, rfl⟩, ⟨["src.c"], by decide, by decide⟩, ⟨["src"], by decide, by decide⟩,
      ⟨["src", "notes.md"], by decide, by decide⟩, ⟨["src", "old.c"], by decide, by decide⟩,
      ⟨["src", "b.f90"], by decide, by decide⟩, List.forall_mem_nil _⟩
  have hwalk : IsWalk walk "." entries := ⟨by simp [walk], by decide, hbelow⟩
  have hother : IsWalk other "." entries := by
    have hperm : (entries.reverse.map Except.ok).Perm (entries.map (Except.ok (ε := String))) :=
      (List.reverse_perm entries).map _
    exact ⟨hperm, by decide, hbelow⟩
  have hsort : ["./src.c", "./src/b.f90"].mergeSort Path.comesBefore =
      ["./src/b.f90", "./src.c"] := by
    have hfalse : Path.comesBefore "./src.c" "./src/b.f90" = false := by decide
    simp [List.mergeSort, List.MergeSort.Internal.splitInTwo, hfalse]
  have hsources : sources walk {} "." = .ok ["./src/b.f90", "./src.c"] := by
    refine sources_eq_ok_iff.mpr ⟨entries, by simp [walk], ?_⟩
    rw [sourcesAmong, ← hsort]
    rfl
  obtain ⟨hfound, hexpand, -, hunknown⟩ := discovery_complete fs walk {}
  obtain ⟨found, hwalked, -, -, hsame⟩ := hfound "." entries hwalk
  have hinputs : List.Forall₂ (Expands fs walk {}) ["src/notes.md", "."]
      [["src/notes.md"], ["./src/b.f90", "./src.c"]] := by
    refine .cons ?_ (.cons ?_ .nil)
    · simp [Expands, fs]
    · simpa [Expands, fs] using hsources
  have hpartition : partition none {} ["src/notes.md", "./src/b.f90", "./src.c"] =
      .error (.unknownDialect "src/notes.md") := by decide +kernel
  have hexpanded := (hexpand _ _).mpr ⟨_, hinputs, rfl⟩
  obtain ⟨path, -, hplain, hpath⟩ := hunknown _ _ _ hexpanded hpartition
  cases hpath
  exact ⟨hwalk, by decide, (hsame other hother).trans hwalked.symm, hexpanded, hpartition, hplain⟩

end BuildOrder.Discovery
