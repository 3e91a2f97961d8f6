import BuildOrder.Proofs.Graph.Progress

/-! A sort succeeds on exactly the graphs without a cycle, and what it gives is a build order. -/
namespace BuildOrder.Graph
open Relation

/-- An arrangement of all nodes where each stands behind its dependencies. -/
structure IsBuildOrder (g : Graph) (order : List Nat) : Prop where
  perm : order.Perm g.ids
  before : ∀ v, ∀ d ∈ g.dependencies v, [d, v].Sublist order

theorem mem_roots {g : Graph} {v : Nat} : v ∈ g.roots ↔ v < g.size ∧ g.dependencies v = [] := by
  simp [roots]

theorem roots_eq_nil_iff {g : Graph} :
    g.roots = [] ↔ ∀ v < g.size, g.dependencies v ≠ [] := by
  simp [List.eq_nil_iff_forall_not_mem, mem_roots]

/-- The names without dependencies are those of roots. -/
theorem dependencyNames?_eq_nil_iff {g : Graph} {name : String} :
    g.dependencyNames? name = some [] ↔ ∃ v ∈ g.roots, g.find? name = some v := by
  cases hfind : g.find? name with
  | none => simp [dependencyNames?, hfind]
  | some v => simp [dependencyNames?, hfind, names, mem_roots, (find?_some hfind).1]

/-- Where every node requires another, no node can be the first. -/
theorem Buildable.exists_root {g : Graph} (hg : g.WellFormed) {v : Nat} (hb : g.Buildable v)
    (hv : v < g.size) : g.roots ≠ [] := by
  induction hb with
  | @intro v _ ih =>
    cases hdeps : g.dependencies v with
    | nil => exact List.ne_nil_of_mem (mem_roots.mpr ⟨hv, hdeps⟩)
    | cons d _ =>
      have hd : d ∈ g.dependencies v := by simp [hdeps]
      exact ih d hd (hg.lt_size hd)

theorem Acyclic.roots_ne_nil {g : Graph} (hg : g.WellFormed) (ha : g.Acyclic)
    (hsize : g.size ≠ 0) : g.roots ≠ [] := by
  have hpos : 0 < g.size := Nat.pos_of_ne_zero hsize
  exact ((acyclic_iff_buildable hg).mp ha 0 hpos).exists_root hg hpos

theorem sortIds_of_acyclic {g : Graph} (hg : g.WellFormed) (ha : g.Acyclic) :
    g.sortIds = .ok g.placed := by
  have hroots : ¬ (g.roots = [] ∧ g.size ≠ 0) := fun ⟨hr, hs⟩ => ha.roots_ne_nil hg hs hr
  have hlen : ¬ g.placed.length < g.size := by rw [length_placed_lt_iff hg, not_not]; exact ha
  rw [sortIds, if_neg hroots]
  exact if_neg hlen

theorem sortIds_of_roots_eq_nil {g : Graph} (hr : g.roots = []) (hsize : g.size ≠ 0) :
    g.sortIds = .error (.noRoots g.adjacency) := by
  rw [sortIds, if_pos ⟨hr, hsize⟩]

theorem sortIds_of_not_acyclic {g : Graph} (hg : g.WellFormed) (hr : g.roots ≠ [])
    (ha : ¬ g.Acyclic) : g.sortIds = .error (.cycle (g.residual g.placed)) := by
  rw [sortIds, if_neg fun h => hr h.1]
  exact if_pos ((length_placed_lt_iff hg).mpr ha)

theorem isBuildOrder_placed {g : Graph} (hg : g.WellFormed) (ha : g.Acyclic) :
    g.IsBuildOrder g.placed where
  perm := (placed_perm_ids_iff hg).mpr ha
  before v d hd := by
    refine ordered_placed hg ((mem_placed hg).mpr ?_) hd
    have hv := lt_size_of_mem_dependencies hd
    exact ⟨hv, (acyclic_iff_buildable hg).mp ha v hv⟩

theorem sortIds_cases {g : Graph} (hg : g.WellFormed) :
    (g.Acyclic ∧ g.sortIds = .ok g.placed) ∨
    (g.size ≠ 0 ∧ g.roots = [] ∧ g.sortIds = .error (.noRoots g.adjacency)) ∨
    (g.roots ≠ [] ∧ ¬ g.Acyclic ∧ g.sortIds = .error (.cycle (g.residual g.placed))) := by
  by_cases ha : g.Acyclic
  · exact Or.inl ⟨ha, sortIds_of_acyclic hg ha⟩
  by_cases hr : g.roots = []
  · have hsize : g.size ≠ 0 := by
      intro hz
      exact ha (acyclic_iff.mpr fun v hc => by simpa [hz] using hc.lt_size)
    exact Or.inr (Or.inl ⟨hsize, hr, sortIds_of_roots_eq_nil hr hsize⟩)
  · exact Or.inr (Or.inr ⟨hr, ha, sortIds_of_not_acyclic hg hr ha⟩)

theorem exists_sortIds_eq_ok_iff {g : Graph} (hg : g.WellFormed) :
    (∃ order, g.sortIds = .ok order) ↔ g.Acyclic := by
  constructor
  · rintro ⟨order, ho⟩
    rcases sortIds_cases hg with ⟨ha, -⟩ | ⟨-, -, hs⟩ | ⟨-, -, hs⟩
    · exact ha
    · rw [hs] at ho
      cases ho
    · rw [hs] at ho
      cases ho
  · intro ha
    exact ⟨_, sortIds_of_acyclic hg ha⟩

theorem isBuildOrder_of_sortIds {g : Graph} (hg : g.WellFormed) {order : List Nat}
    (ho : g.sortIds = .ok order) : g.IsBuildOrder order := by
  have ha := (exists_sortIds_eq_ok_iff hg).mp ⟨order, ho⟩
  rw [sortIds_of_acyclic hg ha] at ho
  cases ho
  exact isBuildOrder_placed hg ha

/-- A sort decides whether there is a cycle, and without one it gives a build order. -/
theorem Reachable.sortIds_decides_acyclic {g : Graph} (h : g.Reachable) :
    ((∃ order, g.sortIds = .ok order) ↔ g.Acyclic) ∧
      ∀ order, g.sortIds = .ok order → g.IsBuildOrder order :=
  ⟨exists_sortIds_eq_ok_iff h.wellFormed, fun _ ho => isBuildOrder_of_sortIds h.wellFormed ho⟩

theorem isBuildOrder_of_four_files :
    (ofLists [("a", [1, 2]), ("b", []), ("c", [3]), ("d", [1])]).IsBuildOrder [1, 3, 2, 0] :=
  (Reachable.sortIds_decides_acyclic (reachable_ofLists _)).2 _ (by decide)

end BuildOrder.Graph
