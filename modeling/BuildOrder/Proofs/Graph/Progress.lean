import BuildOrder.Graph.Sort
import BuildOrder.Proofs.Graph.Cycle
import Mathlib.Data.List.Count
import Mathlib.Data.List.Perm.Subperm

/-! What holds throughout a sort: the counters tell how many dependencies are not placed yet, and
the placed nodes and the frontier are the nodes with none left. In the end the placed nodes are the
ones that can be built. -/
namespace BuildOrder.Graph

theorem mem_dependentsOf {g : Graph} {id v : Nat} :
    v ∈ g.dependentsOf id ↔ id ∈ g.dependencies v := by
  cases hv : g.nodes[v]? with
  | none => simp [dependentsOf, dependencies, List.mem_zipIdx_iff_getElem?, hv]
  | some node => simp [dependentsOf, dependencies, List.mem_zipIdx_iff_getElem?, hv]

theorem dependentsOf_sublist_ids (g : Graph) (id : Nat) : (g.dependentsOf id).Sublist g.ids := by
  have hids : g.nodes.zipIdx.map (·.2) = g.ids := by
    simp [ids, size, List.range_eq_range']
  rw [← hids]
  exact List.filter_sublist.map _

theorem nodup_dependentsOf (g : Graph) (id : Nat) : (g.dependentsOf id).Nodup :=
  (dependentsOf_sublist_ids g id).nodup g.nodup_ids

/-- The dependencies of a node that a sort has not placed yet. -/
def waiting (g : Graph) (placed : List Nat) (v : Nat) : Nat :=
  (g.dependencies v).countP (· ∉ placed)

theorem waiting_eq_zero {g : Graph} {placed : List Nat} {v : Nat} :
    g.waiting placed v = 0 ↔ ∀ d ∈ g.dependencies v, d ∈ placed := by
  simp [waiting, List.countP_eq_zero]

/-- Placing one more node leaves one dependency less to its dependents, and only to them. -/
theorem waiting_append {g : Graph} (hg : g.WellFormed) {placed : List Nat} {id : Nat}
    (hid : id ∉ placed) (v : Nat) :
    g.waiting placed v =
      g.waiting (placed ++ [id]) v + if id ∈ g.dependencies v then 1 else 0 := by
  have hcount : ∀ xs : List Nat,
      xs.countP (· ∉ placed) = xs.countP (· ∉ placed ++ [id]) + xs.count id := by
    intro xs
    induction xs with
    | nil => rfl
    | cons x xs ih =>
      by_cases hx : x = id
      · subst hx
        simp only [List.countP_cons, List.count_cons_self, ih, List.mem_append,
          List.mem_singleton, hid, not_false_eq_true, or_true, not_true_eq_false, decide_true,
          decide_false, if_true, Bool.false_eq_true, if_false]
        omega
      · simp only [List.countP_cons, List.count_cons, ih, List.mem_append, List.mem_singleton, hx,
          or_false, beq_iff_eq, if_false]
        omega
  rw [waiting, waiting, hcount, (hg.nodup_dependencies v).count]

/-- What is true between two steps of a sort. -/
structure Invariant (g : Graph) (p : Progress) : Prop where
  remaining : ∀ v < g.size, p.remaining[v]? = some (g.waiting p.placed v)
  nodup : (p.placed ++ p.frontier).Nodup
  mem_iff : ∀ v, v ∈ p.placed ++ p.frontier ↔ v < g.size ∧ g.waiting p.placed v = 0
  ordered : ∀ v ∈ p.placed, ∀ d ∈ g.dependencies v, [d, v].Sublist p.placed
  buildable : ∀ v ∈ p.placed, g.Buildable v

theorem invariant_start (g : Graph) : g.Invariant g.start where
  remaining v hv := by
    have hlt : v < g.nodes.length := hv
    simp [start, waiting, dependencies, hlt]
  nodup := g.nodup_ids.filter _
  mem_iff v := by
    simp [start, roots, waiting_eq_zero, List.eq_nil_iff_forall_not_mem]
  ordered v hv := absurd hv List.not_mem_nil
  buildable v hv := absurd hv List.not_mem_nil

theorem step_of_nil {g : Graph} {p : Progress} (hp : p.frontier = []) : g.step p = p := by
  simp [step, hp]

section Step

variable {g : Graph} {p : Progress} {id : Nat} {rest : List Nat}

theorem placed_step (hp : p.frontier = id :: rest) : (g.step p).placed = p.placed ++ [id] := by
  simp [step, hp]

theorem remaining_step (hp : p.frontier = id :: rest) (v : Nat) :
    (g.step p).remaining[v]? =
      p.remaining[v]?.map fun count => if id ∈ g.dependencies v then count - 1 else count := by
  simp [step, hp, mem_dependentsOf]

theorem frontier_step (hp : p.frontier = id :: rest) :
    (g.step p).frontier =
      rest ++ (g.dependentsOf id).filter fun v => (g.step p).remaining[v]? = some 0 := by
  simp [step, hp]

/-- The node at the head of the frontier is not placed yet, and all that it waits for is. -/
theorem Invariant.head (h : g.Invariant p) (hp : p.frontier = id :: rest) :
    id ∉ p.placed ∧ id < g.size ∧ ∀ d ∈ g.dependencies id, d ∈ p.placed := by
  have hmem : id ∈ p.placed ++ p.frontier := by simp [hp]
  obtain ⟨hlt, hwait⟩ := (h.mem_iff id).mp hmem
  refine ⟨fun hid => ?_, hlt, waiting_eq_zero.mp hwait⟩
  exact (List.nodup_append.mp h.nodup).2.2 id hid id (by simp [hp]) rfl

theorem Invariant.remaining_step (hg : g.WellFormed) (h : g.Invariant p)
    (hp : p.frontier = id :: rest) {v : Nat} (hv : v < g.size) :
    (g.step p).remaining[v]? = some (g.waiting (p.placed ++ [id]) v) := by
  have hwait := waiting_append hg (h.head hp).1 v
  rw [Graph.remaining_step hp, h.remaining v hv, Option.map_some]
  split_ifs at hwait ⊢ <;> rw [hwait] <;> rfl

theorem Invariant.mem_joining (hg : g.WellFormed) (h : g.Invariant p)
    (hp : p.frontier = id :: rest) {v : Nat} :
    (v ∈ (g.dependentsOf id).filter fun v => (g.step p).remaining[v]? = some 0) ↔
      id ∈ g.dependencies v ∧ g.waiting (p.placed ++ [id]) v = 0 := by
  simp only [List.mem_filter, mem_dependentsOf, decide_eq_true_eq]
  refine and_congr_right fun hid => ?_
  rw [h.remaining_step hg hp (lt_size_of_mem_dependencies hid), Option.some.injEq]

theorem Invariant.step_of_cons (hg : g.WellFormed) (h : g.Invariant p)
    (hp : p.frontier = id :: rest) : g.Invariant (g.step p) := by
  obtain ⟨hnew, hlt, hdeps⟩ := h.head hp
  have hold : p.placed ++ p.frontier = (p.placed ++ [id]) ++ rest := by simp [hp]
  have hmem := fun v => h.mem_joining hg hp (v := v)
  have hwait := waiting_append hg hnew
  refine ⟨fun v hv => ?_, ?_, fun v => ?_, fun v hv d hd => ?_, fun v hv => ?_⟩
  · rw [placed_step hp]
    exact h.remaining_step hg hp hv
  · rw [placed_step hp, frontier_step hp, ← List.append_assoc, ← hold]
    refine List.nodup_append.mpr ⟨h.nodup, (g.nodup_dependentsOf id).filter _, ?_⟩
    rintro v hv w hw rfl
    have hzero := ((h.mem_iff v).mp hv).2
    have := hwait v
    rw [if_pos ((hmem v).mp hw).1] at this
    omega
  · rw [placed_step hp, frontier_step hp, ← List.append_assoc, ← hold, List.mem_append,
      h.mem_iff, hmem, hwait v]
    by_cases hid : id ∈ g.dependencies v
    · simp [hid, lt_size_of_mem_dependencies hid]
    · simp [hid]
  · rw [placed_step hp] at hv ⊢
    rcases List.mem_append.mp hv with hv | hv
    · exact (h.ordered v hv d hd).trans (List.sublist_append_left _ _)
    · obtain rfl := List.mem_singleton.mp hv
      exact (List.singleton_sublist.mpr (hdeps d hd)).append (List.Sublist.refl [v])
  · rw [placed_step hp] at hv
    rcases List.mem_append.mp hv with hv | hv
    · exact h.buildable v hv
    · obtain rfl := List.mem_singleton.mp hv
      exact .intro fun d hd => h.buildable d (hdeps d hd)

end Step

theorem Invariant.step {g : Graph} (hg : g.WellFormed) {p : Progress} (h : g.Invariant p) :
    g.Invariant (g.step p) := by
  cases hp : p.frontier with
  | nil => rwa [step_of_nil hp]
  | cons id rest => exact h.step_of_cons hg hp

theorem invariant_after {g : Graph} (hg : g.WellFormed) (k : Nat) : g.Invariant (g.after k) := by
  induction k with
  | zero => exact invariant_start g
  | succ k ih => exact ih.step hg

/-- Nodes are placed at most once, so there are no more of them than nodes. -/
theorem Invariant.length_le {g : Graph} {p : Progress} (h : g.Invariant p) :
    p.placed.length + p.frontier.length ≤ g.size := by
  rw [← List.length_append, ← length_ids]
  refine (h.nodup.subperm fun v hv => ?_).length_le
  exact mem_ids.mpr ((h.mem_iff v).mp hv).1

theorem frontier_after_eq_nil_or {g : Graph} (k : Nat) :
    (g.after k).frontier = [] ∨ (g.after k).placed.length = k := by
  induction k with
  | zero => exact Or.inr rfl
  | succ k ih =>
    cases hp : (g.after k).frontier with
    | nil =>
      left
      rw [after, step_of_nil hp, hp]
    | cons id rest =>
      right
      have hlen : (g.after k).placed.length = k := ih.resolve_left (by simp [hp])
      rw [after, placed_step hp, List.length_append, hlen, List.length_singleton]

/-- A sort is over after as many steps as there are nodes. -/
theorem frontier_after_size {g : Graph} (hg : g.WellFormed) : (g.after g.size).frontier = [] := by
  have hle := (invariant_after hg g.size).length_le
  rcases frontier_after_eq_nil_or (g := g) g.size with hnil | hlen
  · exact hnil
  · exact List.eq_nil_of_length_eq_zero (by omega)

section Placed

variable {g : Graph} (hg : g.WellFormed)
include hg

theorem nodup_placed : g.placed.Nodup :=
  (List.nodup_append.mp (invariant_after hg g.size).nodup).1

theorem ordered_placed {v d : Nat} (hv : v ∈ g.placed) (hd : d ∈ g.dependencies v) :
    [d, v].Sublist g.placed :=
  (invariant_after hg g.size).ordered v hv d hd

theorem mem_placed_iff_waiting {v : Nat} :
    v ∈ g.placed ↔ v < g.size ∧ g.waiting g.placed v = 0 := by
  have hmem := (invariant_after hg g.size).mem_iff v
  rwa [frontier_after_size hg, List.append_nil] at hmem

theorem mem_placed {v : Nat} : v ∈ g.placed ↔ v < g.size ∧ g.Buildable v := by
  constructor
  · intro hv
    exact ⟨((mem_placed_iff_waiting hg).mp hv).1, (invariant_after hg g.size).buildable v hv⟩
  · rintro ⟨hv, hb⟩
    induction hb with
    | intro _ ih =>
      refine (mem_placed_iff_waiting hg).mpr ⟨hv, waiting_eq_zero.mpr fun d hd => ?_⟩
      exact ih d hd (hg.lt_size hd)

theorem not_mem_placed {v : Nat} (hv : v < g.size) : v ∉ g.placed ↔ g.ReachesCycle v := by
  rw [mem_placed hg, buildable_iff hg hv]
  simp [hv]

theorem placed_subperm_ids : g.placed.Subperm g.ids :=
  (nodup_placed hg).subperm fun _ hv => mem_ids.mpr ((mem_placed hg).mp hv).1

theorem placed_perm_ids_iff : g.placed.Perm g.ids ↔ g.Acyclic := by
  rw [acyclic_iff_buildable hg, List.perm_ext_iff_of_nodup (nodup_placed hg) g.nodup_ids]
  simp only [mem_placed hg, mem_ids]
  exact forall_congr' fun v => and_iff_left_iff_imp

theorem length_placed_lt_iff : g.placed.length < g.size ↔ ¬ g.Acyclic := by
  have hsub := placed_subperm_ids hg
  rw [← placed_perm_ids_iff hg, ← length_ids]
  constructor
  · intro hlt hperm
    exact hlt.ne hperm.length_eq
  · intro hperm
    refine lt_of_le_of_ne hsub.length_le fun hlen => hperm ?_
    exact hsub.perm_of_length_le hlen.ge

end Placed

end BuildOrder.Graph
