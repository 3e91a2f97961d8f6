import BuildOrder.Proofs.Graph.Checked
import BuildOrder.Proofs.Graph.Queue

/-! The loop of a sort, from one pop to the next and, within a pop, from one counter to the next.
Counters never fall below zero, nodes are queued at most once, and there are no more pops than
nodes. -/
namespace BuildOrder.Graph

/-- The popped nodes and the queue hold the nodes whose counter is zero, each once. -/
structure HoldsZeros (counters popped queue : List Nat) : Prop where
  nodup : (popped ++ queue).Nodup
  mem_iff : ∀ v, v ∈ popped ++ queue ↔ counters[v]? = some 0

/-- How many dependencies of each node are not popped, if `popped v` is what has been popped as far
as the counter of `v` knows. -/
def counters (g : Graph) (popped : Nat → List Nat) : List Nat :=
  g.ids.map fun v => g.waiting (popped v) v

theorem getElem?_counters (g : Graph) (popped : Nat → List Nat) (v : Nat) :
    (g.counters popped)[v]? = if v < g.size then some (g.waiting (popped v) v) else none := by
  unfold counters ids
  by_cases hv : v < g.size
  · simp [hv]
  · simp [hv]

theorem getElem?_counters_eq_zero {g : Graph} {popped : Nat → List Nat} {v : Nat} :
    (g.counters popped)[v]? = some 0 ↔ v < g.size ∧ g.waiting (popped v) v = 0 := by
  rw [getElem?_counters]
  by_cases hv : v < g.size
  · simp [hv]
  · simp [hv]

section Pops

variable {g : Graph}

theorem length_remaining_step (p : Progress) : (g.step p).remaining.length = p.remaining.length := by
  unfold step
  cases p.frontier with
  | nil => rfl
  | cons id rest => exact List.length_mapIdx

theorem length_remaining_after (k : Nat) : (g.after k).remaining.length = g.size := by
  induction k with
  | zero => simp [after, start, size]
  | succ k ih => rw [after, length_remaining_step, ih]

theorem remaining_after (hg : g.WellFormed) (k : Nat) :
    (g.after k).remaining = g.counters fun _ => (g.after k).placed := by
  apply List.ext_getElem?
  intro v
  rw [getElem?_counters]
  by_cases hv : v < g.size
  · rw [if_pos hv]
    exact (invariant_after hg k).remaining v hv
  · rw [if_neg hv]
    apply List.getElem?_eq_none
    have hlength := length_remaining_after (g := g) k
    omega

theorem holdsZeros_after (hg : g.WellFormed) (k : Nat) :
    HoldsZeros (g.after k).remaining (g.after k).placed (g.after k).frontier where
  nodup := (invariant_after hg k).nodup
  mem_iff v := by
    rw [remaining_after hg, getElem?_counters_eq_zero]
    exact (invariant_after hg k).mem_iff v

theorem queue_prefix_step (p : Progress) :
    p.placed ++ p.frontier <+: (g.step p).placed ++ (g.step p).frontier := by
  cases hp : p.frontier with
  | nil => rw [step_of_nil hp, hp]
  | cons id rest =>
    rw [queue_step hp, ← hp]
    exact List.prefix_append _ _

/-- What is queued is not taken out of the record, and new nodes join at its end. -/
theorem queue_prefix_after {j k : Nat} (hjk : j ≤ k) :
    (g.after j).placed ++ (g.after j).frontier <+: (g.after k).placed ++ (g.after k).frontier := by
  induction hjk with
  | refl => exact List.prefix_rfl
  | step _ ih => exact ih.trans (queue_prefix_step _)

theorem after_of_frontier_eq_nil {j k : Nat} (hjk : j ≤ k) (hj : (g.after j).frontier = []) :
    g.after k = g.after j := by
  induction hjk with
  | refl => rfl
  | step _ ih => rw [after, ih, step_of_nil hj]

theorem length_placed_after_le (k : Nat) : (g.after k).placed.length ≤ k := by
  induction k with
  | zero => exact Nat.le_refl 0
  | succ k ih =>
    cases hp : (g.after k).frontier with
    | nil =>
      rw [after, step_of_nil hp]
      omega
    | cons id rest =>
      rw [after, placed_step hp, List.length_append, List.length_singleton]
      omega

section Ends

variable (hg : g.WellFormed)
include hg

theorem placed_of_frontier_eq_nil {k : Nat} (hk : (g.after k).frontier = []) :
    (g.after k).placed = g.placed := by
  unfold placed
  rcases Nat.le_total k g.size with hle | hle
  · rw [after_of_frontier_eq_nil hle hk]
  · rw [after_of_frontier_eq_nil hle (frontier_after_size hg)]

theorem length_placed_after_of_ne_nil {k : Nat} (hk : (g.after k).frontier ≠ []) :
    (g.after k).placed.length = k ∧ k < g.placed.length := by
  have hlength : (g.after k).placed.length = k := (frontier_after_eq_nil_or k).resolve_left hk
  have hle : k < g.size := by
    by_contra hlarge
    have hend := after_of_frontier_eq_nil (Nat.le_of_not_lt hlarge) (frontier_after_size hg)
    exact hk (hend ▸ frontier_after_size hg)
  -- The record at the end holds what is popped and queued now, and the queue is not empty.
  have hqueue := (queue_prefix_after (g := g) (Nat.le_of_lt hle)).length_le
  rw [frontier_after_size hg, List.append_nil, List.length_append, hlength] at hqueue
  have hpos : 0 < (g.after k).frontier.length := List.length_pos_of_ne_nil hk
  exact ⟨hlength, by unfold placed; omega⟩

theorem frontier_after_eq_nil_iff {k : Nat} :
    (g.after k).frontier = [] ↔ g.placed.length ≤ k := by
  constructor
  · intro hk
    rw [← placed_of_frontier_eq_nil hg hk]
    exact length_placed_after_le k
  · intro hle
    by_contra hk
    have hlt := (length_placed_after_of_ne_nil hg hk).2
    omega

theorem placed_after_eq_take (k : Nat) : (g.after k).placed = g.placed.take k := by
  by_cases hk : (g.after k).frontier = []
  · rw [placed_of_frontier_eq_nil hg hk, List.take_of_length_le]
    exact (frontier_after_eq_nil_iff hg).mp hk
  · obtain ⟨hlength, hlt⟩ := length_placed_after_of_ne_nil hg hk
    have hle : k ≤ g.size := by
      have hplaced := (placed_subperm_ids hg).length_le
      rw [length_ids] at hplaced
      omega
    have hqueue := queue_prefix_after (g := g) hle
    rw [frontier_after_size hg, List.append_nil] at hqueue
    have hpre : (g.after k).placed <+: g.placed := (List.prefix_append _ _).trans hqueue
    rw [List.prefix_iff_eq_take.mp hpre, hlength]

end Ends

end Pops

section Counters

variable {g : Graph} {p : Progress} {id : Nat} {rest before : List Nat}

/-- What has been popped as far as the counter of `v` knows, when `id` is popped and the counters
of the nodes in `before` have been lowered for it. -/
def poppedFor (placed : List Nat) (id : Nat) (before : List Nat) (v : Nat) : List Nat :=
  if v ∈ before then placed ++ [id] else placed

theorem Invariant.lowered_eq (hg : g.WellFormed) (h : g.Invariant p)
    (hr : p.remaining = g.counters fun _ => p.placed) (hp : p.frontier = id :: rest)
    (hb : ∀ v ∈ before, v ∈ g.dependentsOf id) :
    lowered before p.remaining = g.counters (poppedFor p.placed id before) := by
  apply List.ext_getElem?
  intro v
  rw [getElem?_lowered, hr, getElem?_counters, getElem?_counters]
  by_cases hv : v < g.size
  · have hwait := waiting_append hg (h.head hp).1 v
    by_cases hmem : v ∈ before
    · rw [if_pos (mem_dependentsOf.mp (hb v hmem))] at hwait
      simp [hv, hmem, poppedFor, hwait]
    · simp [hv, hmem, poppedFor]
  · simp [hv]

/-- While the counters are lowered one by one, the queue stays in step with them. -/
theorem Invariant.holdsZeros_lowered (hg : g.WellFormed) (h : g.Invariant p)
    (hr : p.remaining = g.counters fun _ => p.placed) (hp : p.frontier = id :: rest)
    (hb : before.Sublist (g.dependentsOf id)) :
    HoldsZeros (lowered before p.remaining) (p.placed ++ [id])
      (rest ++ before.filter fun v => (lowered before p.remaining)[v]? = some 0) := by
  have hold : p.placed ++ [id] ++ rest = p.placed ++ p.frontier := by simp [hp]
  have hdependents : ∀ v ∈ before, v ∈ g.dependentsOf id := fun v hv => hb.subset hv
  have hwait := waiting_append hg (h.head hp).1
  have hpositive : ∀ v ∈ before, g.waiting p.placed v ≠ 0 := by
    intro v hv
    have hone := hwait v
    rw [if_pos (mem_dependentsOf.mp (hdependents v hv))] at hone
    omega
  rw [h.lowered_eq hg hr hp hdependents]
  constructor
  · rw [← List.append_assoc, hold, List.nodup_append]
    refine ⟨h.nodup, (hb.nodup (g.nodup_dependentsOf id)).filter _, ?_⟩
    intro v hv w hw heq
    subst heq
    exact hpositive v (List.mem_filter.mp hw).1 ((h.mem_iff v).mp hv).2
  · intro v
    rw [← List.append_assoc, hold, List.mem_append, List.mem_filter, decide_eq_true_eq,
      getElem?_counters_eq_zero, h.mem_iff]
    by_cases hmem : v ∈ before
    · simp [hmem, hpositive v hmem]
    · simp [hmem, poppedFor]

/-- No counter is zero when its turn to be lowered comes. -/
theorem Invariant.exists_release (hg : g.WellFormed) (h : g.Invariant p)
    (hr : p.remaining = g.counters fun _ => p.placed) (hp : p.frontier = id :: rest)
    {v : Nat} {later : List Nat} (hd : g.dependentsOf id = before ++ v :: later) :
    ∃ queue, before.foldlM release? (p.remaining, rest) =
        some (g.counters (poppedFor p.placed id before), queue) ∧
      HoldsZeros (g.counters (poppedFor p.placed id before)) (p.placed ++ [id]) queue ∧
      ∃ count, (g.counters (poppedFor p.placed id before))[v]? = some (count + 1) := by
  have hnodup := g.nodup_dependentsOf id
  have hb : before.Sublist (g.dependentsOf id) := by
    rw [hd]
    exact List.sublist_append_left _ _
  have hdependents : ∀ w ∈ before, w ∈ g.dependentsOf id := fun w hw => hb.subset hw
  have hcounter : ∀ w ∈ g.dependentsOf id, ∃ count, p.remaining[w]? = some (count + 1) :=
    fun w => h.exists_counter hg hp
  have hlowered := h.lowered_eq hg hr hp hdependents
  refine ⟨rest ++ before.filter fun w => (lowered before p.remaining)[w]? = some 0, ?_, ?_, ?_⟩
  · rw [foldlM_release? (hb.nodup hnodup) fun w hw => hcounter w (hdependents w hw), hlowered]
  · rw [← hlowered]
    exact h.holdsZeros_lowered hg hr hp hb
  -- As `v` is among the dependents once, its counter is still what it was before the pop.
  · have hv : v ∉ before := by
      rw [hd] at hnodup
      intro hmem
      exact (List.nodup_append.mp hnodup).2.2 v hmem v List.mem_cons_self rfl
    obtain ⟨count, hcount⟩ := hcounter v (by simp [hd])
    refine ⟨count, ?_⟩
    rw [← hlowered, getElem?_lowered, hcount, Option.map_some, if_neg hv]

end Counters

/-- What the loop of a sort keeps, in graphs with cycles too. Between two pops each counter is the
number of dependencies that are not popped yet; the popped nodes and the queue hold the nodes whose
counter is zero, each once. Within a pop the counters that are lowered so far have seen it and the
others have not, the queue is in step with them, and the next one to be lowered is not zero. So no
step of the checked loop fails. The record of the queue only grows at its end. Each step pops one
node until the queue is empty, which is after as many pops as there are nodes at the latest. -/
theorem Reachable.loop_counts_and_ends {g : Graph} (h : g.Reachable) :
    (∀ k, (g.after k).remaining = g.counters (fun _ => (g.after k).placed) ∧
      HoldsZeros (g.after k).remaining (g.after k).placed (g.after k).frontier) ∧
    (∀ k id rest, (g.after k).frontier = id :: rest →
      ∀ before v later, g.dependentsOf id = before ++ v :: later →
        let counters := g.counters (poppedFor (g.after k).placed id before)
        ∃ queue, before.foldlM release? ((g.after k).remaining, rest) = some (counters, queue) ∧
          HoldsZeros counters ((g.after k).placed ++ [id]) queue ∧
          ∃ count, counters[v]? = some (count + 1)) ∧
    (∀ k, step? g.dependents (g.after k) = some (g.after (k + 1))) ∧
    (∀ j k, j ≤ k →
      (g.after j).placed ++ (g.after j).frontier <+: (g.after k).placed ++ (g.after k).frontier) ∧
    (∀ k, (g.after k).placed = g.placed.take k ∧
      ((g.after k).frontier = [] ↔ g.placed.length ≤ k)) ∧
    g.placed.length ≤ g.size := by
  have hg := h.wellFormed
  refine ⟨fun k => ⟨remaining_after hg k, holdsZeros_after hg k⟩, ?_, ?_, ?_, ?_, ?_⟩
  · intro k id rest hp before v later hd
    exact (invariant_after hg k).exists_release hg (remaining_after hg k) hp hd
  · intro k
    exact (invariant_after hg k).step?_eq hg
  · intro j k hjk
    exact queue_prefix_after hjk
  · intro k
    exact ⟨placed_after_eq_take hg k, frontier_after_eq_nil_iff hg⟩
  · have hplaced := (placed_subperm_ids hg).length_le
    rwa [length_ids] at hplaced

/-- With a cycle behind a root: within the first pop the second counter is not zero when it is to
be lowered, and the queue is empty after two pops of four nodes. -/
theorem loop_counts_and_ends_behind_root :
    let g := ofLists [("root", []), ("a", [0, 2]), ("b", [1]), ("leaf", [0])]
    g.start.frontier = [0] ∧ g.dependentsOf 0 = [1, 3] ∧
      (∃ queue, [1].foldlM release? (g.start.remaining, []) = some ([0, 1, 1, 1], queue) ∧
        HoldsZeros [0, 1, 1, 1] [0] queue) ∧
      (g.after 2).frontier = [] ∧ (g.after 2).placed = g.placed := by
  intro g
  have hfrontier : g.start.frontier = [0] := by decide
  have hdependents : g.dependentsOf 0 = [1, 3] := by decide
  have hlength : g.placed.length = 2 := by decide
  obtain ⟨-, hrelease, -, -, hpops, -⟩ :=
    Reachable.loop_counts_and_ends (g := g) (reachable_ofLists _)
  obtain ⟨queue, hqueue, hzeros, -⟩ := hrelease 0 0 [] hfrontier [1] 3 [] hdependents
  have hcounters : g.counters (poppedFor (g.after 0).placed 0 [1]) = [0, 1, 1, 1] := by decide
  rw [hcounters] at hqueue hzeros
  refine ⟨hfrontier, hdependents, ⟨queue, hqueue, hzeros⟩, ?_, ?_⟩
  · exact (hpops 2).2.mpr (Nat.le_of_eq hlength)
  · rw [(hpops 2).1, ← hlength, List.take_length]

end BuildOrder.Graph
