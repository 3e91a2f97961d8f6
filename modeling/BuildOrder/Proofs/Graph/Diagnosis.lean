import BuildOrder.Proofs.Graph.Order

/-! What a failed sort tells. Where no node can be the first it lists the whole graph, and else the
nodes that reach a cycle, each with those of its dependencies that reach one as well. -/
namespace BuildOrder.Graph
open Relation

theorem adjacency_eq (g : Graph) :
    g.adjacency = g.ids.map fun v => (g.nameOf v, g.names (g.dependencies v)) := by
  apply List.ext_getElem?
  intro v
  by_cases hv : v < g.nodes.length
  · simp [adjacency, ids, size, nameOf, dependencies, hv]
  · simp [adjacency, ids, size, hv]

open Classical in
/-- The nodes that reach a cycle, each with its dependencies that do. -/
noncomputable def cycleListing (g : Graph) : Listing :=
  (g.ids.filter fun v => g.ReachesCycle v).map fun v =>
    (g.nameOf v, g.names ((g.dependencies v).filter fun d => g.ReachesCycle d))

open Classical in
theorem residual_placed {g : Graph} (hg : g.WellFormed) : g.residual g.placed = g.cycleListing := by
  have hplaced : ∀ v < g.size, v ∉ g.placed ↔ g.ReachesCycle v := fun v => not_mem_placed hg
  have hids : (g.ids.filter (· ∉ g.placed)) = g.ids.filter fun v => g.ReachesCycle v :=
    List.filter_congr fun v hv => by simp only [hplaced v (mem_ids.mp hv)]
  rw [residual, cycleListing, hids]
  refine List.map_congr_left fun v _ => ?_
  congr 2
  exact List.filter_congr fun d hd => by simp only [hplaced d (hg.lt_size hd)]

theorem sort_eq_error_iff {g : Graph} {e : SortError} :
    g.sort = .error e ↔ g.sortIds = .error e := by
  cases hs : g.sortIds <;> simp [sort, hs, Except.map]

theorem sort_eq_noRoots_iff {g : Graph} (hg : g.WellFormed) {listing : Listing} :
    g.sort = .error (.noRoots listing) ↔
      g.size ≠ 0 ∧ g.roots = [] ∧ listing = g.adjacency := by
  rw [sort_eq_error_iff]
  constructor
  · intro he
    rcases sortIds_cases hg with ⟨-, hs⟩ | ⟨hsize, hr, hs⟩ | ⟨-, -, hs⟩
    · rw [hs] at he
      cases he
    · rw [hs] at he
      cases he
      exact ⟨hsize, hr, rfl⟩
    · rw [hs] at he
      cases he
  · rintro ⟨hsize, hr, rfl⟩
    exact sortIds_of_roots_eq_nil hr hsize

theorem sort_eq_cycle_iff {g : Graph} (hg : g.WellFormed) {listing : Listing} :
    g.sort = .error (.cycle listing) ↔ g.roots ≠ [] ∧ ¬ g.Acyclic ∧ listing = g.cycleListing := by
  rw [sort_eq_error_iff, ← residual_placed hg]
  constructor
  · intro he
    rcases sortIds_cases hg with ⟨-, hs⟩ | ⟨-, -, hs⟩ | ⟨hr, ha, hs⟩
    · rw [hs] at he
      cases he
    · rw [hs] at he
      cases he
    · rw [hs] at he
      cases he
      exact ⟨hr, ha, rfl⟩
  · rintro ⟨hr, ha, rfl⟩
    exact sortIds_of_not_acyclic hg hr ha

open Classical in
/-- An error lists nodes that reach a cycle, with dependencies that do. -/
theorem mem_listing_of_sort {g : Graph} (hg : g.WellFormed) {e : SortError}
    (he : g.sort = .error e) {name : String} {required : List String}
    (hmem : (name, required) ∈ e.listing) :
    required ≠ [] ∧ ∃ v, g.ReachesCycle v ∧ g.nameOf v = name := by
  cases e with
  | noRoots listing =>
    obtain ⟨-, hr, rfl⟩ := (sort_eq_noRoots_iff hg).mp he
    rw [SortError.listing, adjacency_eq, List.mem_map] at hmem
    obtain ⟨v, hv, heq⟩ := hmem
    have hlt := mem_ids.mp hv
    cases heq
    refine ⟨by simpa [names] using roots_eq_nil_iff.mp hr v hlt, v, ?_, rfl⟩
    by_contra hc
    exact (buildable_of_not_reachesCycle hg hlt hc).exists_root hg hlt hr
  | cycle listing =>
    obtain ⟨-, -, rfl⟩ := (sort_eq_cycle_iff hg).mp he
    rw [SortError.listing, cycleListing, List.mem_map] at hmem
    obtain ⟨v, hv, heq⟩ := hmem
    have hc : g.ReachesCycle v := of_decide_eq_true (List.mem_filter.mp hv).2
    cases heq
    refine ⟨?_, v, hc, rfl⟩
    obtain ⟨d, hd, hcd⟩ := hc.exists_requires
    have hmem : d ∈ (g.dependencies v).filter fun d => g.ReachesCycle d :=
      List.mem_filter.mpr ⟨hd, decide_eq_true hcd⟩
    simpa only [names, ne_eq, List.map_eq_nil_iff] using List.ne_nil_of_mem hmem

/-- A failed sort blames what is to blame: all nodes where each requires another, and else exactly
the nodes that reach a cycle. None of the listed nodes could have been built. -/
theorem Reachable.sort_diagnosis {g : Graph} (h : g.Reachable) :
    (∀ listing, g.sort = .error (.noRoots listing) ↔
      g.size ≠ 0 ∧ (∀ v < g.size, g.dependencies v ≠ []) ∧
        listing = g.ids.map fun v => (g.nameOf v, g.names (g.dependencies v))) ∧
    (∀ listing, g.sort = .error (.cycle listing) ↔
      (∃ v < g.size, g.dependencies v = []) ∧ (∃ v, TransGen g.Requires v v) ∧
        listing = g.cycleListing) ∧
    ∀ e, g.sort = .error e → (∀ entry ∈ e.listing, entry.2 ≠ []) ∧
      ∀ v < g.size, g.Buildable v → g.nameOf v ∉ e.listing.map (·.1) := by
  have hg := h.wellFormed
  refine ⟨fun listing => ?_, fun listing => ?_, fun e he => ⟨?_, ?_⟩⟩
  · rw [sort_eq_noRoots_iff hg, roots_eq_nil_iff, adjacency_eq]
  · rw [sort_eq_cycle_iff hg, ne_eq, roots_eq_nil_iff]
    simp [Acyclic]
  · rintro ⟨name, required⟩ hmem
    exact (mem_listing_of_sort hg he hmem).1
  · intro v hv hb hmem
    obtain ⟨⟨name, required⟩, hentry, hname⟩ := List.mem_map.mp hmem
    obtain ⟨-, w, hc, hw⟩ := mem_listing_of_sort hg he hentry
    have hvw : w = v := hg.nameOf_inj hc.lt_size hv (hw.trans hname)
    exact hb.not_reachesCycle (hvw ▸ hc)

theorem cycleListing_behind_root :
    (ofLists [("root", []), ("a", [0, 3]), ("b", [1]), ("c", [2]), ("leaf", [1])]).cycleListing =
      [("a", ["c"]), ("b", ["a"]), ("c", ["b"]), ("leaf", ["a"])] :=
  (((Reachable.sort_diagnosis (reachable_ofLists _)).2.1 _).mp (by decide)).2.2.symm

end BuildOrder.Graph
