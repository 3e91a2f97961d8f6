import BuildOrder.Proofs.Order.Warnings

/-! Files of which no two provide the same symbol. What such files require does not depend on the
order in which they are listed, so that they can be ordered from any listing or from none, and the
build order itself is a listing that is kept. -/
namespace BuildOrder
open Linker

/-- No symbol is provided, up to case, by two different ones of the files. -/
def UniqueProviders (fs : FileSystem) (dialect : Dialect) (paths : List String) : Prop :=
  ∀ a ∈ paths, ∀ b ∈ paths, ∀ s ∈ (Symbols.ofFileOrNone fs dialect a).provides,
    ∀ t ∈ (Symbols.ofFileOrNone fs dialect b).provides, Text.upper s = Text.upper t → a = b

instance (fs : FileSystem) (dialect : Dialect) (paths : List String) :
    Decidable (UniqueProviders fs dialect paths) :=
  inferInstanceAs (Decidable (∀ a ∈ paths, _))

section

variable {fs : FileSystem} {dialect : Dialect} {paths : List String}
  (hu : UniqueProviders fs dialect paths)
include hu

theorem UniqueProviders.eq_of_offers {a b symbol : String} (ha : a ∈ paths) (hb : b ∈ paths)
    (hoffers : offers (Symbols.ofFileOrNone fs dialect a) symbol = true)
    (hoffers' : offers (Symbols.ofFileOrNone fs dialect b) symbol = true) : a = b := by
  obtain ⟨s, hs, hsymbol⟩ := offers_iff.mp hoffers
  obtain ⟨t, ht, hsymbol'⟩ := offers_iff.mp hoffers'
  exact hu a ha b hb s hs t ht (hsymbol.trans hsymbol'.symm)

/-- The provider of a symbol is found wherever it is listed. -/
theorem UniqueProviders.lastProvider?_eq_some_iff {symbol path : String} :
    lastProvider? (filesOf fs dialect paths) symbol = some path ↔
      path ∈ paths ∧ offers (Symbols.ofFileOrNone fs dialect path) symbol = true := by
  rw [lastProvider?_filesOf]
  constructor
  · intro hlast
    simpa using List.mem_of_getLast? hlast
  · rintro ⟨hpath, hoffers⟩
    have hmem : path ∈ paths.eraseDups.filter fun path =>
        offers (Symbols.ofFileOrNone fs dialect path) symbol := by
      simpa using ⟨hpath, hoffers⟩
    cases hlast : (paths.eraseDups.filter fun path =>
        offers (Symbols.ofFileOrNone fs dialect path) symbol).getLast? with
    | none =>
      rw [List.getLast?_eq_none_iff.mp hlast] at hmem
      exact absurd hmem List.not_mem_nil
    | some last =>
      obtain ⟨hlast, hoffers'⟩ := List.mem_filter.mp (List.mem_of_getLast? hlast)
      rw [hu.eq_of_offers (List.mem_eraseDups.mp hlast) hpath hoffers' hoffers]

theorem UniqueProviders.of_mem_iff {other : List String}
    (hmem : ∀ path, path ∈ other ↔ path ∈ paths) : UniqueProviders fs dialect other :=
  fun a ha b hb => hu a ((hmem a).mp ha) b ((hmem b).mp hb)

/-- The same files listed in another way require the same. -/
theorem UniqueProviders.prerequisites_eq {other : List String}
    (hmem : ∀ path, path ∈ other ↔ path ∈ paths) :
    (Analysis.ofFiles fs dialect other).graph.prerequisites =
      (Analysis.ofFiles fs dialect paths).graph.prerequisites := by
  have hlast : lastProvider? (filesOf fs dialect other) =
      lastProvider? (filesOf fs dialect paths) := by
    funext symbol
    apply Option.ext
    intro path
    rw [(hu.of_mem_iff hmem).lastProvider?_eq_some_iff, hu.lastProvider?_eq_some_iff, hmem]
  funext path
  by_cases hpath : path ∈ paths
  · rw [prerequisites_ofFiles hpath, prerequisites_ofFiles ((hmem path).mpr hpath), providers,
      providers, hlast]
  · have hother : path ∉ other := mt (hmem path).mp hpath
    rw [prerequisites_ofFiles_of_not_mem hpath, prerequisites_ofFiles_of_not_mem hother]

end

variable {fs : FileSystem} {dialect : Dialect} {paths : List String}

theorem UniqueProviders.length_providersOf_le (hu : UniqueProviders fs dialect paths)
    (symbol : String) : (providersOf fs dialect paths symbol).length ≤ 1 := by
  have hn : (providersOf fs dialect paths symbol).Nodup := (nodup_eraseDups paths).filter _
  have heq : ∀ a ∈ providersOf fs dialect paths symbol,
      ∀ b ∈ providersOf fs dialect paths symbol, a = b := by
    intro a ha b hb
    obtain ⟨ha, hoffers⟩ := List.mem_filter.mp ha
    obtain ⟨hb, hoffers'⟩ := List.mem_filter.mp hb
    exact hu.eq_of_offers (List.mem_eraseDups.mp ha) (List.mem_eraseDups.mp hb) hoffers hoffers'
  match hproviders : providersOf fs dialect paths symbol with
  | [] => exact Nat.zero_le 1
  | [_] => exact Nat.le_refl 1
  | a :: b :: rest =>
    rw [hproviders] at hn heq
    have hab : a = b := heq a (by simp) b (by simp)
    exact absurd (by simp [hab]) (List.nodup_cons.mp hn).1

/-- No file displaces another one as a provider. -/
theorem UniqueProviders.duplicateProvider_not_mem (hu : UniqueProviders fs dialect paths)
    (symbol previous path : String) :
    .duplicateProvider symbol previous path ∉ (Analysis.ofFiles fs dialect paths).warnings :=
  duplicateProvider_not_mem_iff.mpr hu.length_providersOf_le symbol previous path

theorem dependencyNames?_eq_of_prerequisites {path : String} (hpath : path ∈ paths) :
    (Analysis.ofFiles fs dialect paths).graph.dependencyNames? path =
      some ((Analysis.ofFiles fs dialect paths).graph.prerequisites path) := by
  rw [dependencyNames?_ofFiles hpath, prerequisites_ofFiles hpath]

/-- The order of the input does not matter to what the files require, nor to whether they have a
build order, nor to what is listed where they have none. -/
theorem ofFiles_of_perm {other : List String} (hu : UniqueProviders fs dialect paths)
    (hperm : other.Perm paths) :
    (∀ path ∈ paths, ∃ required,
      (Analysis.ofFiles fs dialect other).graph.dependencyNames? path = some required ∧
        (Analysis.ofFiles fs dialect paths).graph.dependencyNames? path = some required) ∧
    Alike (SortError.SameKind List.Perm) List.Perm
      (Analysis.ofFiles fs dialect other).graph.sort
      (Analysis.ofFiles fs dialect paths).graph.sort := by
  have heq := hu.prerequisites_eq fun path => hperm.mem_iff
  constructor
  · intro path hpath
    refine ⟨_, dependencyNames?_eq_of_prerequisites (hperm.mem_iff.mpr hpath), ?_⟩
    rw [heq]
    exact dependencyNames?_eq_of_prerequisites hpath
  · have hnames := perm_eraseDups fun path => hperm.mem_iff (a := path)
    have hr : Graph.Rearranged (Analysis.ofFiles fs dialect other).graph
        (Analysis.ofFiles fs dialect paths).graph := by
      constructor
      · rwa [names_ofFiles, names_ofFiles]
      · intro path
        rw [heq]
    exact hr.sort_of_prerequisites_eq wellFormed_ofFiles wellFormed_ofFiles heq

theorem ofFiles_of_perm_circle :
    let fs := FileSystem.ofTexts [("a.f90", "module a\nuse b"), ("b.f90", "module b\nuse a"),
      ("main.f90", "use a"), ("free.f90", "")]
    let paths := ["a.f90", "b.f90", "main.f90", "free.f90"]
    let other := ["main.f90", "b.f90", "free.f90", "a.f90"]
    (∀ path ∈ paths, ∃ required,
      (Analysis.ofFiles fs .modules other).graph.dependencyNames? path = some required ∧
        (Analysis.ofFiles fs .modules paths).graph.dependencyNames? path = some required) ∧
    Alike (SortError.SameKind List.Perm) List.Perm
      (Analysis.ofFiles fs .modules other).graph.sort
      (Analysis.ofFiles fs .modules paths).graph.sort :=
  ofFiles_of_perm (by decide +kernel) (by decide)

/-- Files that are listed in their build order are kept in it. -/
theorem orderFiles_of_ordered {ordered : Ordered} (hu : UniqueProviders fs dialect paths)
    (ho : orderFiles fs dialect paths = .ok ordered) :
    ∃ again, orderFiles fs dialect ordered.files = .ok again ∧ again.files = ordered.files := by
  have hnames : (Analysis.ofFiles fs dialect ordered.files).graph.names
      (Analysis.ofFiles fs dialect ordered.files).graph.ids = ordered.files := by
    rw [names_ofFiles, eraseDups_of_nodup (nodup_files_of_orderFiles ho)]
  have heq := hu.prerequisites_eq fun path => mem_files_of_orderFiles ho
  have hagain := Graph.sort_of_sorted wellFormed_ofFiles wellFormed_ofFiles (sort_of_orderFiles ho)
    hnames heq.symm
  rw [orderFiles_eq, hagain]
  exact ⟨_, rfl, rfl⟩

theorem orderFiles_of_ordered_chain :
    let fs := FileSystem.ofTexts [("main.f90", "use grid\nuse kinds"),
      ("grid.f90", "module grid\nuse kinds"), ("kinds.f90", "module kinds")]
    ∃ again, orderFiles fs .modules ["kinds.f90", "grid.f90", "main.f90"] = .ok again ∧
      again.files = ["kinds.f90", "grid.f90", "main.f90"] :=
  @orderFiles_of_ordered _ _ ["main.f90", "grid.f90", "kinds.f90"] ⟨_, []⟩ (by decide +kernel)
    (by rfl)

end BuildOrder
