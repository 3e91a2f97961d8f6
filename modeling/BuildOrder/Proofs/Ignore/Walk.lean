import BuildOrder.Ignore.Walk
import BuildOrder.Proofs.Discovery.Sources
import BuildOrder.Proofs.FileTree

/-! A walk through a tree of files comes upon no place twice, and only upon places below its root. -/
namespace BuildOrder.Ignore

/-- The paths are those of different places below a path. -/
def ArePlaces (path : String) (places : List Location) (paths : List String) : Prop :=
  places.Nodup ∧ (∀ place ∈ places, ∀ name ∈ place, Path.IsName name) ∧
    paths = places.map fun place => place.foldl Path.join path

theorem ArePlaces.nodup {path : String} {places : List Location} {paths : List String}
    (h : ArePlaces path places paths) : paths.Nodup := by
  obtain ⟨hnodup, hnames, rfl⟩ := h
  refine hnodup.map_on fun a ha b hb heq => ?_
  have hparts := congrArg Path.parts heq
  rw [Path.parts_foldl_join (hnames a ha), Path.parts_foldl_join (hnames b hb)] at hparts
  exact List.map_injective_iff.mpr Path.Part.ofComponent_injective (List.append_cancel_left hparts)

theorem ArePlaces.isBelow {path : String} {places : List Location} {paths : List String}
    (h : ArePlaces path places paths) : ∀ p ∈ paths, Path.IsBelow path p := by
  obtain ⟨-, hnames, rfl⟩ := h
  intro p hp
  obtain ⟨place, hplace, heq⟩ := List.mem_map.mp hp
  exact ⟨place, hnames place hplace, heq⟩

@[simp] theorem Position.path_withRules (tree : FileTree) (here : Position) :
    (here.withRules tree).path = here.path := by
  rw [Position.withRules]
  split <;> rfl

theorem eq_of_map_ok {found others : List Found}
    (h : found.map (Except.ok (ε := String)) = others.map .ok) : found = others :=
  List.map_injective_iff.mpr (fun _ _ => Except.ok.inj) h

theorem error_cons_ne_map_ok (cause : String) (rest : List (Except String Found))
    (found : List Found) : .error cause :: rest ≠ found.map .ok := by
  intro h
  obtain ⟨_, _, _, herror, _⟩ := List.map_eq_cons_iff.mp h.symm
  cases herror

section Visits

variable {tree : FileTree}

/-- Whether visits of an entry that do not fail are visits of different places. -/
def VisitsPlaces (tree : FileTree) (entry : Entry) : Prop :=
  ∀ (here : Position) (found : List Found), visits tree here entry = found.map .ok →
    ∃ places, ArePlaces here.path places (found.map (·.path))

/-- The places below a directory begin with the names in it, so that they differ where these do. -/
theorem exists_places_visitsBelow {children : List (String × Entry)}
    (hnodup : (children.map (·.1)).Nodup) (hnames : ∀ child ∈ children, Path.IsName child.1)
    (h : ∀ child ∈ children, VisitsPlaces tree child.2) {here : Position} {found : List Found}
    (hfound : visitsBelow tree here children = found.map .ok) :
    ∃ places, ArePlaces here.path places (found.map (·.path)) ∧
      ∀ place ∈ places, ∃ child ∈ children, ∃ rest, place = child.1 :: rest := by
  induction children generalizing found with
  | nil =>
    rw [visitsBelow, eq_comm, List.map_eq_nil_iff] at hfound
    subst hfound
    exact ⟨[], ⟨List.nodup_nil, List.forall_mem_nil _, rfl⟩, List.forall_mem_nil _⟩
  | cons child children ih =>
    obtain ⟨name, entry⟩ := child
    obtain ⟨hnew, hnodup⟩ := List.nodup_cons.mp hnodup
    obtain ⟨hname, hnames⟩ := List.forall_mem_cons.mp hnames
    obtain ⟨hentry, hchildren⟩ := List.forall_mem_cons.mp h
    rw [visitsBelow, eq_comm, List.map_eq_append_iff] at hfound
    obtain ⟨front, back, rfl, hfront, hback⟩ := hfound
    obtain ⟨later, ⟨hlater, hlaternames, hlaterpaths⟩, hbegin⟩ :=
      ih hnodup hnames hchildren hback.symm
    have hchild : ∃ places, ArePlaces (here.child name).path places (front.map (·.path)) := by
      by_cases hskip : (here.child name).isSkipped entry.isDirectory = true
      · rw [if_pos hskip, List.map_eq_nil_iff] at hfront
        subst hfront
        exact ⟨[], List.nodup_nil, List.forall_mem_nil _, rfl⟩
      · rw [if_neg hskip] at hfront
        exact hentry _ _ hfront.symm
    obtain ⟨places, hplaces, hplacenames, hpaths⟩ := hchild
    refine ⟨places.map (name :: ·) ++ later, ⟨?_, ?_, ?_⟩, ?_⟩
    · refine List.nodup_append.mpr ⟨hplaces.map List.cons_injective, hlater, ?_⟩
      intro a ha b hb heq
      obtain ⟨place, -, rfl⟩ := List.mem_map.mp ha
      obtain ⟨other, hother, rest, hrest⟩ := hbegin b hb
      rw [hrest] at heq
      exact hnew (List.mem_map.mpr ⟨other, hother, (List.cons.inj heq).1.symm⟩)
    · refine List.forall_mem_append.mpr ⟨?_, hlaternames⟩
      intro place hplace
      obtain ⟨rest, hrest, rfl⟩ := List.mem_map.mp hplace
      exact List.forall_mem_cons.mpr ⟨hname, hplacenames rest hrest⟩
    · rw [List.map_append, hpaths, hlaterpaths, List.map_append, List.map_map]
      rfl
    · intro place hplace
      rcases List.mem_append.mp hplace with hplace | hplace
      · obtain ⟨rest, -, rfl⟩ := List.mem_map.mp hplace
        exact ⟨(name, entry), List.mem_cons_self, rest, rfl⟩
      · obtain ⟨other, hother, hrest⟩ := hbegin place hplace
        exact ⟨other, List.mem_cons_of_mem _ hother, hrest⟩

theorem visitsPlaces {entry : Entry} (h : entry.Proper) : VisitsPlaces tree entry := by
  induction h with
  | file content =>
    intro here found hfound
    have hone : found = [⟨here.path, some .file⟩] := by
      rw [visits, ← List.map_singleton] at hfound
      exact (eq_of_map_ok hfound).symm
    subst hone
    exact ⟨[[]], List.nodup_singleton _, by simp, rfl⟩
  | @directory children hnodup hnames _ ih =>
    intro here found hfound
    rw [visits, eq_comm, List.map_eq_cons_iff] at hfound
    obtain ⟨entry, below, rfl, hentry, hbelow⟩ := hfound
    obtain rfl := Except.ok.inj hentry
    have hchildren : visitsBelow tree (here.withRules tree) children = below.map .ok := by
      cases hlocate : tree.locate here.path with
      | error cause =>
        rw [hlocate] at hbelow
        exact absurd hbelow.symm (error_cons_ne_map_ok _ _ _)
      | ok trail =>
        rw [hlocate] at hbelow
        exact hbelow.symm
    obtain ⟨places, ⟨hplaces, hplacenames, hpaths⟩, hbegin⟩ :=
      exists_places_visitsBelow hnodup hnames ih hchildren
    rw [Position.path_withRules] at hpaths
    refine ⟨[] :: places, List.nodup_cons.mpr ⟨?_, hplaces⟩, ?_, ?_⟩
    · intro hnil
      obtain ⟨child, -, rest, heq⟩ := hbegin _ hnil
      cases heq
    · exact List.forall_mem_cons.mpr ⟨List.forall_mem_nil _, hplacenames⟩
    · rw [List.map_cons, hpaths]
      rfl

end Visits

/-- In a tree as it can exist a walk that does not fail comes upon each place once. -/
theorem isWalk_walk {tree : FileTree} (h : tree.Proper) {userRules : List UInt8} {root : String}
    {entries : List Found} (hentries : walk tree userRules root = entries.map .ok) :
    Discovery.IsWalk (walk tree userRules) root entries := by
  have hplaces : ∃ places, ArePlaces root places (entries.map (·.path)) := by
    rw [walk] at hentries
    split at hentries
    next =>
      rw [← List.map_singleton] at hentries
      obtain rfl := eq_of_map_ok hentries
      exact ⟨[[]], List.nodup_singleton _, by simp, rfl⟩
    next =>
      split at hentries
      next => exact absurd hentries (error_cons_ne_map_ok _ _ _)
      next location entry hlookup =>
        simp only at hentries
        split at hentries
        next => exact visitsPlaces (h.lookup hlookup) _ _ hentries
        next => exact absurd hentries (error_cons_ne_map_ok _ _ _)
  obtain ⟨places, hplaces⟩ := hplaces
  refine ⟨.of_eq hentries, hplaces.nodup, fun found hfound => ?_⟩
  exact hplaces.isBelow _ (List.mem_map_of_mem hfound)

/-- In such a tree a walk finds source files in strictly increasing order of their steps. -/
theorem increasing_sources_walk {tree : FileTree} (h : tree.Proper) {userRules : List UInt8}
    {extensions : Extensions} {root : String} {found : List String}
    (hfound : Discovery.sources (walk tree userRules) extensions root = .ok found) :
    Path.Increasing found := by
  obtain ⟨entries, hentries, rfl⟩ := Discovery.sources_eq_ok_iff.mp hfound
  have hwalk := isWalk_walk h hentries
  exact Discovery.increasing_sourcesAmong hwalk.once hwalk.below

end BuildOrder.Ignore
