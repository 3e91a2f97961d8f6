import BuildOrder.Proofs.Alike
import BuildOrder.Proofs.Graph.Names
import Mathlib.Data.List.Forall2

/-! Graphs that have the same names and requirements in another arrangement: they have a build order
or not together, and a failed sort is explained by the same names. -/
namespace BuildOrder.Graph
open Relation

/-- Neither the order of the nodes nor that of the edges of a node has to be the same. -/
structure Rearranged (g h : Graph) : Prop where
  names : (g.names g.ids).Perm (h.names h.ids)
  prerequisites : ∀ a, (g.prerequisites a).Perm (h.prerequisites a)

section Rearranged

variable {g h : Graph} (hr : Rearranged g h)
include hr

theorem Rearranged.requiresName : g.RequiresName = h.RequiresName := by
  funext a b
  exact propext (hr.prerequisites a).mem_iff

theorem Rearranged.nameReachesCycle : g.NameReachesCycle = h.NameReachesCycle := by
  funext a
  rw [NameReachesCycle, NameReachesCycle, hr.requiresName]

theorem Rearranged.size_eq : g.size = h.size := by
  simpa [Graph.names] using hr.names.length_eq

variable (hg : g.WellFormed) (hh : h.WellFormed)
include hg hh

theorem Rearranged.acyclic_iff : g.Acyclic ↔ h.Acyclic := by
  rw [acyclic_iff_names hg, acyclic_iff_names hh, hr.requiresName]

theorem Rearranged.roots_eq_nil_iff : g.roots = [] ↔ h.roots = [] := by
  rw [roots_eq_nil_iff_names hg, roots_eq_nil_iff_names hh]
  constructor
  · intro hne a ha
    have hperm := hr.prerequisites a
    exact fun hnil => hne a (hr.names.mem_iff.mpr ha) (List.perm_nil.mp (hnil ▸ hperm))
  · intro hne a ha
    have hperm := hr.prerequisites a
    exact fun hnil => hne a (hr.names.mem_iff.mp ha) (List.nil_perm.mp (hnil ▸ hperm))

theorem Rearranged.sort {listings : Listing → Listing → Prop}
    {orders : List String → List String → Prop}
    (hadjacency : listings g.adjacency h.adjacency)
    (hcycles : listings g.cycleListing h.cycleListing)
    (horders : ∀ o o', g.sort = .ok o → h.sort = .ok o' → orders o o') :
    Alike (SortError.SameKind listings) orders g.sort h.sort := by
  rcases sortIds_cases hg with ⟨ha, -⟩ | ⟨hsize, hroots, -⟩ | ⟨hroots, ha, -⟩
  · have hs := sort_of_acyclic hg ha
    have hs' := sort_of_acyclic hh ((hr.acyclic_iff hg hh).mp ha)
    have horder := horders _ _ hs hs'
    rw [hs, hs']
    exact .ok horder
  · have hroots' := (hr.roots_eq_nil_iff hg hh).mp hroots
    rw [(sort_eq_noRoots_iff hg).mpr ⟨hsize, hroots, rfl⟩,
      (sort_eq_noRoots_iff hh).mpr ⟨hr.size_eq ▸ hsize, hroots', rfl⟩]
    exact .error (.noRoots hadjacency)
  · have hroots' := mt (hr.roots_eq_nil_iff hg hh).mpr hroots
    have ha' := mt (hr.acyclic_iff hg hh).mpr ha
    rw [(sort_eq_cycle_iff hg).mpr ⟨hroots, ha, rfl⟩,
      (sort_eq_cycle_iff hh).mpr ⟨hroots', ha', rfl⟩]
    exact .error (.cycle hcycles)

/-- Graphs that differ only in the order of edges have the same build order, and the same names are
listed where they have none. -/
theorem Rearranged.sort_of_names_eq (hnames : g.names g.ids = h.names h.ids) :
    Alike (SortError.SameKind (List.Forall₂ fun x y => x.1 = y.1 ∧ x.2.Perm y.2)) (· = ·)
      g.sort h.sort := by
  refine hr.sort hg hh ?_ ?_ fun o o' ho ho' => ?_
  · rw [adjacency_eq_names hg, adjacency_eq_names hh, ← hnames]
    rw [List.forall₂_map_left_iff, List.forall₂_map_right_iff, List.forall₂_same]
    exact fun a _ => ⟨rfl, hr.prerequisites a⟩
  · rw [cycleListing_eq_names hg, cycleListing_eq_names hh, ← hnames, ← hr.nameReachesCycle]
    rw [List.forall₂_map_left_iff, List.forall₂_map_right_iff, List.forall₂_same]
    exact fun a _ => ⟨rfl, (hr.prerequisites a).filter _⟩
  · have hqueue := (sort_eq_ok_iff hg).mp ho
    have hqueue := hqueue.congr fun a _ b => (hr.prerequisites a).mem_iff
    rw [hnames] at hqueue
    exact hqueue.unique ((sort_eq_ok_iff hh).mp ho')

/-- Graphs that differ only in the order of nodes list the same entries where they have no build
order. -/
theorem Rearranged.sort_of_prerequisites_eq (heq : g.prerequisites = h.prerequisites) :
    Alike (SortError.SameKind List.Perm) List.Perm g.sort h.sort := by
  refine hr.sort hg hh ?_ ?_ fun o o' ho ho' => ?_
  · rw [adjacency_eq_names hg, adjacency_eq_names hh, ← heq]
    exact hr.names.map _
  · rw [cycleListing_eq_names hg, cycleListing_eq_names hh, ← hr.nameReachesCycle, ← heq]
    exact (hr.names.filter _).map _
  · have hperm := ((sort_eq_ok_iff hg).mp ho).perm
    exact (hperm.trans hr.names).trans ((sort_eq_ok_iff hh).mp ho').perm.symm

end Rearranged

/-- A part of a graph that requires nothing outside it is built in the order of the whole. -/
theorem sort_of_part {g h : Graph} (hg : g.WellFormed) (hh : h.WellFormed) {order : List String}
    (ho : g.sort = .ok order) {keep : String → Bool}
    (hnames : h.names h.ids = (g.names g.ids).filter keep)
    (hprerequisites : ∀ a ∈ h.names h.ids, h.prerequisites a = g.prerequisites a)
    (hkeep : ∀ a ∈ g.names g.ids, keep a = true → ∀ b ∈ g.prerequisites a, keep b = true) :
    h.sort = .ok (order.filter keep) := by
  have hpart := ((sort_eq_ok_iff hg).mp ho).filter hkeep
  rw [sort_eq_ok_iff hh, hnames]
  refine hpart.congr fun a ha b => ?_
  rw [hprerequisites a (hnames ▸ ha)]

/-- A graph whose nodes stand in a build order of a queue already is left in that order. -/
theorem sort_of_sorted {g h : Graph} (hg : g.WellFormed) (hh : h.WellFormed) {order : List String}
    (ho : g.sort = .ok order) (hnames : h.names h.ids = order)
    (heq : g.prerequisites = h.prerequisites) : h.sort = .ok order := by
  have hqueue := (sort_eq_ok_iff hg).mp ho
  rw [sort_eq_ok_iff hh, hnames, ← heq]
  exact hqueue.self

end BuildOrder.Graph
