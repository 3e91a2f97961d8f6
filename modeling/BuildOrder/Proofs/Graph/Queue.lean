import BuildOrder.Proofs.Graph.Order
import BuildOrder.Proofs.QueueOrder

/-! The order that a sort gives is the order of a queue of nodes. -/
namespace BuildOrder.Graph

/-- The placed nodes and the frontier stand in the order in which they joined the queue. -/
def InTurn (g : Graph) (p : Progress) : Prop :=
  (p.placed ++ p.frontier).Pairwise fun v w =>
    turn g.ids g.dependencies p.placed v < turn g.ids g.dependencies p.placed w

/-- Nodes that are ready at the same time take turns as they were inserted. -/
theorem pairwise_turn_of_readyAt {g : Graph} {placed vs : List Nat} {n : ℕ}
    (hvs : vs.Sublist g.ids) (hready : ∀ v ∈ vs, readyAt g.dependencies placed v = n) :
    vs.Pairwise fun v w =>
      turn g.ids g.dependencies placed v < turn g.ids g.dependencies placed w := by
  refine ((pairwise_idxOf g.nodup_ids).sublist hvs).imp_of_mem fun {v w} hv hw hlt => ?_
  refine Prod.Lex.toLex_lt_toLex'.mpr ⟨?_, fun _ => hlt⟩
  exact le_of_eq ((hready v hv).trans (hready w hw).symm)

theorem inTurn_start (g : Graph) : g.InTurn g.start := by
  refine pairwise_turn_of_readyAt (n := 0) List.filter_sublist fun v hv => ?_
  exact readyAt_eq_zero (mem_roots.mp hv).2

section Step

variable {g : Graph} {p : Progress}

/-- What a node in the queue requires is placed. -/
theorem Invariant.mem_placed_of_mem (h : g.Invariant p) {v d : Nat}
    (hv : v ∈ p.placed ++ p.frontier) (hd : d ∈ g.dependencies v) : d ∈ p.placed :=
  waiting_eq_zero.mp ((h.mem_iff v).mp hv).2 d hd

theorem queue_step {id : Nat} {rest : List Nat} (hp : p.frontier = id :: rest) :
    (g.step p).placed ++ (g.step p).frontier = p.placed ++ p.frontier ++
      (g.dependentsOf id).filter fun v => (g.step p).remaining[v]? = some 0 := by
  rw [placed_step hp, frontier_step hp, hp]
  simp

theorem Invariant.readyAt_joining (hg : g.WellFormed) (h : g.Invariant p) {id : Nat}
    {rest : List Nat} (hp : p.frontier = id :: rest) {v : Nat}
    (hv : v ∈ (g.dependentsOf id).filter fun v => (g.step p).remaining[v]? = some 0) :
    readyAt g.dependencies (p.placed ++ [id]) v = p.placed.length + 1 := by
  have hmem : v ∈ (g.step p).placed ++ (g.step p).frontier := by
    rw [queue_step hp]
    exact List.mem_append_right _ hv
  have hdeps : ∀ d ∈ g.dependencies v, d ∈ p.placed ++ [id] := by
    rw [← placed_step hp]
    exact fun d hd => (h.step hg).mem_placed_of_mem hmem hd
  exact readyAt_append_singleton (h.head hp).1 ((h.mem_joining hg hp).mp hv).1 hdeps

/-- The nodes that join the queue are ready later than those in it. -/
theorem InTurn.step (hg : g.WellFormed) (h : g.Invariant p) (ht : g.InTurn p) :
    g.InTurn (g.step p) := by
  cases hp : p.frontier with
  | nil => rwa [step_of_nil hp]
  | cons id rest =>
    have hold : ∀ v ∈ p.placed ++ p.frontier,
        turn g.ids g.dependencies (p.placed ++ [id]) v = turn g.ids g.dependencies p.placed v :=
      fun v hv => turn_append (fun d hd => h.mem_placed_of_mem hv hd) [id]
    rw [InTurn, queue_step hp, placed_step hp]
    -- Nodes in the queue have had all they need before `id`; those that join it wait for `id`.
    refine List.pairwise_append.mpr ⟨?_, ?_, fun v hv w hw => ?_⟩
    · refine ht.imp_of_mem fun {v w} hv hw hlt => ?_
      rwa [hold v hv, hold w hw]
    · refine pairwise_turn_of_readyAt ?_ fun v hv => h.readyAt_joining hg hp hv
      exact List.filter_sublist.trans (dependentsOf_sublist_ids g id)
    · have hle : readyAt g.dependencies p.placed v ≤ p.placed.length :=
        readyAt_le_length fun d hd => h.mem_placed_of_mem hv hd
      rw [hold v hv]
      refine Prod.Lex.toLex_lt_toLex.mpr (Or.inl ?_)
      rw [h.readyAt_joining hg hp hw]
      exact Nat.lt_succ_of_le hle

end Step

theorem inTurn_after {g : Graph} (hg : g.WellFormed) (k : Nat) : g.InTurn (g.after k) := by
  induction k with
  | zero => exact inTurn_start g
  | succ k ih => exact ih.step hg (invariant_after hg k)

theorem isQueueOrder_placed {g : Graph} (hg : g.WellFormed) (ha : g.Acyclic) :
    IsQueueOrder g.ids g.dependencies g.placed where
  perm := (isBuildOrder_placed hg ha).perm
  before v _ := (isBuildOrder_placed hg ha).before v
  queued := by
    have hturn := inTurn_after hg g.size
    rwa [InTurn, frontier_after_size hg, List.append_nil] at hturn

/-- A sort succeeds with an order exactly when this is the order of a queue. -/
theorem sortIds_eq_ok_iff {g : Graph} (hg : g.WellFormed) {order : List Nat} :
    g.sortIds = .ok order ↔ IsQueueOrder g.ids g.dependencies order := by
  constructor
  · intro ho
    have ha := (exists_sortIds_eq_ok_iff hg).mp ⟨order, ho⟩
    rw [sortIds_of_acyclic hg ha] at ho
    cases ho
    exact isQueueOrder_placed hg ha
  · intro h
    have ha : g.Acyclic :=
      h.not_transGen fun hr => ⟨mem_ids.mpr (lt_size_of_mem_dependencies hr), hr⟩
    rw [sortIds_of_acyclic hg ha, (isQueueOrder_placed hg ha).unique h]

end BuildOrder.Graph
