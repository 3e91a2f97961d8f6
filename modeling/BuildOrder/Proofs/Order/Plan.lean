import BuildOrder.Plan
import BuildOrder.Proofs.Order.Mixed

/-! The plan of sorted groups is consistent: its order holds each input once, each of its edges
leads backwards in the order and stays within a group, and no edge of a group is missing. All of it
rests on this: a path, however often it is given, goes to the group of its dialect. -/
namespace BuildOrder

/-- The distinct files of a group. -/
def Group.files (group : Group) : List String :=
  group.analysis.graph.names group.analysis.graph.ids

/-- Groups that share the paths out by their dialects. -/
structure Divided (dialectOf? : String → Option Dialect) (paths : List String)
    (groups : List Group) : Prop where
  wellFormed : ∀ group ∈ groups, group.analysis.graph.WellFormed
  nodup_dialects : (groups.map (·.dialect)).Nodup
  mem_files : ∀ group ∈ groups, ∀ path,
    path ∈ group.files ↔ path ∈ paths ∧ dialectOf? path = some group.dialect
  total : ∀ path ∈ paths, ∃ group ∈ groups, path ∈ group.files

section Groups

variable {fs : FileSystem} {forced : Option Dialect} {extensions : Extensions}
  {paths : List String} {groups : List Group}

theorem files_ofFiles (part : Dialect × List String) :
    (Group.ofFiles fs part).files = part.2.eraseDups :=
  names_ofFiles

theorem divided_of_analyzeGroups (h : analyzeGroups fs forced extensions paths = .ok groups) :
    Divided (dialectOf? forced extensions) paths groups := by
  cases hunknown : firstUnknown? forced extensions paths with
  | some unknown =>
    rw [analyzeGroups_of_unknown hunknown] at h
    cases h
  | none =>
    rw [analyzeGroups_of_known hunknown] at h
    obtain rfl := Except.ok.inj h
    refine ⟨?_, ?_, ?_, ?_⟩
    · intro group hgroup
      obtain ⟨part, -, rfl⟩ := List.mem_map.mp hgroup
      exact wellFormed_ofFiles
    · have hdialects : [Dialect.modules, .includes].Nodup := by decide
      rw [List.map_map]
      exact hdialects.sublist (List.filter_sublist.map _)
    · intro group hgroup path
      obtain ⟨part, hpart, rfl⟩ := List.mem_map.mp hgroup
      obtain ⟨dialect, -, rfl⟩ := List.mem_map.mp (List.mem_filter.mp hpart).1
      rw [files_ofFiles, List.mem_eraseDups]
      exact mem_pathsOf
    · intro path hpath
      have hknown := List.find?_eq_none.mp hunknown path hpath
      cases hdialect : dialectOf? forced extensions path with
      | none => simp [hdialect] at hknown
      | some dialect =>
        have hmem : path ∈ pathsOf forced extensions dialect paths :=
          mem_pathsOf.mpr ⟨hpath, hdialect⟩
        refine ⟨.ofFiles fs (dialect, pathsOf forced extensions dialect paths), ?_, ?_⟩
        · refine List.mem_map_of_mem (List.mem_filter.mpr ⟨?_, ?_⟩)
          · exact List.mem_map_of_mem (by cases dialect <;> simp)
          · simpa using List.ne_nil_of_mem hmem
        · rwa [files_ofFiles, List.mem_eraseDups]

end Groups

/-- Where one of the steps fails, so does the whole. -/
theorem mapM_eq_ok_iff {ε α β : Type} {f : α → Except ε β} {xs : List α} {ys : List β} :
    xs.mapM f = .ok ys ↔ List.Forall₂ (fun x y => f x = .ok y) xs ys := by
  induction xs generalizing ys with
  | nil => simp [pure, Except.pure, eq_comm]
  | cons x xs ih =>
    rw [List.mapM_cons, List.forall₂_cons_left_iff]
    cases hx : f x with
    | error e => simp [bind, Except.bind]
    | ok y =>
      cases hxs : xs.mapM f with
      | error e =>
        simp [bind, Except.bind, ← ih, hxs]
      | ok rest =>
        simp [bind, Except.bind, pure, Except.pure, ← ih, hxs, eq_comm]

theorem sortGroups_eq_ok_iff {groups : List Group} {order : List String} :
    sortGroups groups = .ok order ↔ ∃ orders : List (List String),
      List.Forall₂ (fun group files => group.analysis.graph.sort = .ok files) groups orders ∧
        orders.flatten = order := by
  simp only [← mapM_eq_ok_iff, sortGroups]
  cases groups.mapM fun (group : Group) => group.analysis.graph.sort with
  | error e => simp [Except.map]
  | ok orders => simp [Except.map]

section Divided

variable {dialectOf? : String → Option Dialect} {paths : List String} {groups : List Group}
  (h : Divided dialectOf? paths groups)
include h

/-- A path is in one group only. -/
theorem Divided.eq_of_mem {a b : Group} (ha : a ∈ groups) (hb : b ∈ groups) {path : String}
    (hpa : path ∈ a.files) (hpb : path ∈ b.files) : a = b := by
  have hdialect := ((h.mem_files a ha path).mp hpa).2.symm.trans ((h.mem_files b hb path).mp hpb).2
  exact List.inj_on_of_nodup_map h.nodup_dialects ha hb (Option.some.inj hdialect)

theorem Divided.disjoint_files : groups.Pairwise fun a b => a.files.Disjoint b.files := by
  refine (List.pairwise_map.mp h.nodup_dialects).imp_of_mem fun {a b} ha hb hne => ?_
  refine List.disjoint_left.mpr fun path hpa hpb => hne ?_
  rw [h.eq_of_mem ha hb hpa hpb]

theorem Divided.nodup_files : (groups.flatMap Group.files).Nodup :=
  List.nodup_flatMap.mpr ⟨fun group hgroup => Graph.nodup_names_ids (h.wellFormed group hgroup),
    h.disjoint_files⟩

theorem Divided.mem_flatMap_files {path : String} :
    path ∈ groups.flatMap Group.files ↔ path ∈ paths := by
  rw [List.mem_flatMap]
  constructor
  · rintro ⟨group, hgroup, hpath⟩
    exact ((h.mem_files group hgroup path).mp hpath).1
  · exact h.total path

theorem Divided.isQueueOrder {group : Group} (hgroup : group ∈ groups) {files : List String}
    (hs : group.analysis.graph.sort = .ok files) :
    IsQueueOrder group.files group.analysis.graph.prerequisites files :=
  (Graph.sort_eq_ok_iff (h.wellFormed group hgroup)).mp hs

theorem Divided.perm_of_sortGroups {order : List String} (ho : sortGroups groups = .ok order) :
    order.Perm (groups.flatMap Group.files) := by
  obtain ⟨orders, hsorts, rfl⟩ := sortGroups_eq_ok_iff.mp ho
  have hperm : ∀ group ∈ groups, ∀ files, group.analysis.graph.sort = .ok files →
      files.Perm group.files := fun group hgroup files hs => (h.isQueueOrder hgroup hs).perm
  clear h ho
  induction hsorts with
  | nil => exact .nil
  | cons hs _ ih =>
    rw [List.flatten_cons, List.flatMap_cons]
    refine (hperm _ (by simp) _ hs).append (ih fun group hgroup => ?_)
    exact hperm group (List.mem_cons_of_mem _ hgroup)

end Divided

/-- The order of each group is a part of the whole. -/
theorem sublist_of_sortGroups {groups : List Group} {order : List String}
    (ho : sortGroups groups = .ok order) {group : Group} (hgroup : group ∈ groups) :
    ∃ files, group.analysis.graph.sort = .ok files ∧ files.Sublist order := by
  obtain ⟨orders, hsorts, rfl⟩ := sortGroups_eq_ok_iff.mp ho
  clear ho
  induction hsorts with
  | nil => exact absurd hgroup List.not_mem_nil
  | cons hs _ ih =>
    rw [List.flatten_cons]
    rcases List.mem_cons.mp hgroup with rfl | hgroup
    · exact ⟨_, hs, List.sublist_append_left _ _⟩
    · obtain ⟨files, hfiles, hsub⟩ := ih hgroup
      exact ⟨files, hfiles, hsub.trans (List.sublist_append_right _ _)⟩

section Edges

variable {dialectOf? : String → Option Dialect} {paths order : List String} {groups : List Group}

theorem mem_edges_ofGroups {edge : Requirement} :
    edge ∈ (Plan.ofGroups groups order).edges ↔
      ∃ group ∈ groups, (edge.file, edge.dependsOn) ∈ group.analysis.graph.edges := by
  simp only [Plan.ofGroups, List.mem_flatMap, List.mem_map, Prod.exists]
  refine exists_congr fun group => and_congr_right fun _ => ?_
  constructor
  · rintro ⟨a, b, hmem, rfl⟩
    exact hmem
  · intro hmem
    exact ⟨_, _, hmem, rfl⟩

variable (h : Divided dialectOf? paths groups)
include h

theorem Divided.mem_files_of_mem_edges {group : Group} (hgroup : group ∈ groups) {a b : String}
    (hedge : (a, b) ∈ group.analysis.graph.edges) : a ∈ group.files ∧ b ∈ group.files := by
  have hg := h.wellFormed group hgroup
  obtain ⟨v, d, hd, rfl, rfl⟩ := (Graph.mem_edges_iff_dependencies hg).mp hedge
  exact ⟨Graph.mem_names_ids.mpr ⟨v, Graph.lt_size_of_mem_dependencies hd, rfl⟩,
    Graph.mem_names_ids.mpr ⟨d, hg.lt_size hd, rfl⟩⟩

theorem Divided.nodup_edges : (Plan.ofGroups groups order).edges.Nodup := by
  refine List.nodup_flatMap.mpr ⟨fun group hgroup => ?_, ?_⟩
  · refine (Graph.nodup_edges (h.wellFormed group hgroup)).map fun x y heq => ?_
    exact Prod.ext (congrArg Requirement.file heq) (congrArg Requirement.dependsOn heq)
  · refine h.disjoint_files.imp_of_mem fun {a b} ha hb hdisjoint => ?_
    simp only [Function.onFun, List.disjoint_left, List.mem_map, Prod.exists]
    rintro edge ⟨x, y, hx, rfl⟩ ⟨x', y', hx', heq⟩
    obtain rfl : x' = x := congrArg Requirement.file heq
    exact hdisjoint (h.mem_files_of_mem_edges ha hx).1 (h.mem_files_of_mem_edges hb hx').1

theorem Divided.sublist_of_mem_edges (ho : sortGroups groups = .ok order) {group : Group}
    (hgroup : group ∈ groups) {a b : String} (hedge : (a, b) ∈ group.analysis.graph.edges) :
    [b, a].Sublist order := by
  obtain ⟨files, hs, hsub⟩ := sublist_of_sortGroups ho hgroup
  have ha := (h.mem_files_of_mem_edges hgroup hedge).1
  have hb := (Graph.mem_edges_iff (h.wellFormed group hgroup)).mp hedge
  exact ((h.isQueueOrder hgroup hs).before a ha b hb).trans hsub

end Edges

/-- The plan of linked and sorted groups holds each input once in its order. Its edges are the
dependencies of the groups, each once; an edge leads back in the order, and both of its files are in
one group and in no other. -/
theorem plan_consistent (fs : FileSystem) (forced : Option Dialect) (extensions : Extensions)
    (paths : List String) (groups : List Group) (order : List String)
    (hgroups : analyzeGroups fs forced extensions paths = .ok groups)
    (horder : sortGroups groups = .ok order) :
    let plan := Plan.ofGroups groups order
    plan.order.Nodup ∧ (∀ path, path ∈ plan.order ↔ path ∈ paths) ∧
      plan.edges.Nodup ∧
      (∀ edge ∈ plan.edges, [edge.dependsOn, edge.file].Sublist plan.order) ∧
      (∀ edge ∈ plan.edges, ∃ group ∈ groups, ∀ other ∈ groups,
        (edge.file ∈ other.files ↔ other = group) ∧
          (edge.dependsOn ∈ other.files ↔ other = group)) ∧
      ∀ a b, ⟨a, b⟩ ∈ plan.edges ↔ ∃ group ∈ groups, ∃ v,
        ∃ d ∈ group.analysis.graph.dependencies v,
          group.analysis.graph.nameOf v = a ∧ group.analysis.graph.nameOf d = b := by
  intro plan
  have h := divided_of_analyzeGroups hgroups
  have hperm := h.perm_of_sortGroups horder
  refine ⟨hperm.nodup_iff.mpr h.nodup_files, fun path => ?_, h.nodup_edges, ?_, ?_, ?_⟩
  · exact hperm.mem_iff.trans h.mem_flatMap_files
  · intro edge hedge
    obtain ⟨group, hgroup, hmem⟩ := mem_edges_ofGroups.mp hedge
    exact h.sublist_of_mem_edges horder hgroup hmem
  · intro edge hedge
    obtain ⟨group, hgroup, hmem⟩ := mem_edges_ofGroups.mp hedge
    obtain ⟨hfile, hdependsOn⟩ := h.mem_files_of_mem_edges hgroup hmem
    refine ⟨group, hgroup, fun other hother => ⟨⟨fun hmem => ?_, ?_⟩, ⟨fun hmem => ?_, ?_⟩⟩⟩
    · exact h.eq_of_mem hother hgroup hmem hfile
    · rintro rfl
      exact hfile
    · exact h.eq_of_mem hother hgroup hmem hdependsOn
    · rintro rfl
      exact hdependsOn
  · intro a b
    refine mem_edges_ofGroups.trans (exists_congr fun group => and_congr_right fun hgroup => ?_)
    exact Graph.mem_edges_iff_dependencies (h.wellFormed group hgroup)

theorem plan_consistent_interleaved :
    let fs := FileSystem.ofTexts [("main.c", "#include <grid.h>"), ("solve.f90", "use mesh"),
      ("grid.c", "#include \"grid.h\""), ("mesh.f90", "module mesh")]
    let paths := ["main.c", "solve.f90", "grid.c", "mesh.f90", "main.c"]
    let groups : List Group :=
      [⟨.modules, ⟨⟨[⟨"solve.f90", [1]⟩, ⟨"mesh.f90", []⟩]⟩, []⟩⟩,
        ⟨.includes, ⟨⟨[⟨"main.c", [1]⟩, ⟨"grid.c", []⟩]⟩, [.duplicateInput "main.c"]⟩⟩]
    let order := ["mesh.f90", "solve.f90", "grid.c", "main.c"]
    let plan := Plan.ofGroups groups order
    analyzeGroups fs none {} paths = .ok groups ∧ sortGroups groups = .ok order ∧
      plan.edges = [⟨"solve.f90", "mesh.f90"⟩, ⟨"main.c", "grid.c"⟩] ∧
      (∀ path, path ∈ plan.order ↔ path ∈ paths) ∧
      ∀ edge ∈ plan.edges, [edge.dependsOn, edge.file].Sublist plan.order := by
  intro fs paths groups order plan
  have hgroups : analyzeGroups fs none {} paths = .ok groups := by decide +kernel
  have horder : sortGroups groups = .ok order := by decide +kernel
  obtain ⟨-, hmem, -, hback, -⟩ := plan_consistent fs none {} paths groups order hgroups horder
  exact ⟨hgroups, horder, rfl, hmem, hback⟩

end BuildOrder
