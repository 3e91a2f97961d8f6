import BuildOrder.Proofs.Graph.Queue
import Mathlib.Order.Bounds.Basic

/-! The layers of the order that a sort gives. A node is placed behind all nodes from which only
shorter chains of dependencies start, although the sort never measures a chain. -/
namespace BuildOrder.Graph

/-- Each node depends on the next one, from `v` on. -/
def IsChainFrom (g : Graph) (v : Nat) (chain : List Nat) : Prop :=
  (v :: chain).IsChain g.Requires

/-- The length of the longest chain from a node, where chains are followed for `k` steps. -/
def depthWithin (g : Graph) : Nat → Nat → Nat
  | 0, _ => 0
  | k + 1, v => (g.dependencies v).toFinset.sup fun d => g.depthWithin k d + 1

/-- The length of the longest chain from a node of a graph without cycles, in which no chain is as
long as there are nodes. -/
def depth (g : Graph) (v : Nat) : Nat :=
  g.depthWithin g.size v

/-- The position in an order of the last of the dependencies of a node. -/
def lastPosition (g : Graph) (order : List Nat) (v : Nat) : Nat :=
  (g.dependencies v).toFinset.sup order.idxOf

theorem isChainFrom_cons {g : Graph} {v d : Nat} {chain : List Nat} :
    g.IsChainFrom v (d :: chain) ↔ d ∈ g.dependencies v ∧ g.IsChainFrom d chain :=
  List.isChain_cons_cons

theorem isGreatest_depthWithin (g : Graph) (k v : Nat) :
    IsGreatest {n | n ≤ k ∧ ∃ chain, chain.length = n ∧ g.IsChainFrom v chain}
      (g.depthWithin k v) := by
  induction k generalizing v with
  | zero => exact ⟨⟨le_refl 0, [], rfl, List.isChain_singleton v⟩, fun n hn => hn.1⟩
  | succ k ih =>
    constructor
    · by_cases hdeps : (g.dependencies v).toFinset.Nonempty
      · obtain ⟨d, hd, hsup⟩ := Finset.exists_mem_eq_sup _ hdeps fun d => g.depthWithin k d + 1
        obtain ⟨hle, chain, hlen, hchain⟩ := (ih d).1
        rw [depthWithin, hsup]
        refine ⟨by omega, d :: chain, by simp [hlen], isChainFrom_cons.mpr ⟨?_, hchain⟩⟩
        exact List.mem_toFinset.mp hd
      · rw [depthWithin, Finset.not_nonempty_iff_eq_empty.mp hdeps]
        exact ⟨Nat.zero_le _, [], rfl, List.isChain_singleton v⟩
    · rintro n ⟨hle, chain, rfl, hchain⟩
      cases chain with
      | nil => exact Nat.zero_le _
      | cons d chain =>
        obtain ⟨hd, hchain⟩ := isChainFrom_cons.mp hchain
        have hlen : chain.length ≤ g.depthWithin k d :=
          (ih d).2 ⟨Nat.le_of_succ_le_succ hle, chain, rfl, hchain⟩
        have hsup := Finset.le_sup (f := fun d => g.depthWithin k d + 1) (List.mem_toFinset.mpr hd)
        exact (Nat.succ_le_succ hlen).trans hsup

section Order

variable {g : Graph} {order : List Nat} (h : IsQueueOrder g.ids g.dependencies order)
include h

/-- A chain goes backwards in an order, so that it is no longer than the way to its first node. -/
theorem length_le_idxOf_of_isChainFrom {v : Nat} {chain : List Nat} (hc : g.IsChainFrom v chain) :
    chain.length ≤ order.idxOf v := by
  induction chain generalizing v with
  | nil => exact Nat.zero_le _
  | cons d chain ih =>
    obtain ⟨hd, hc⟩ := isChainFrom_cons.mp hc
    have hlt := h.idxOf_lt (mem_ids.mpr (lt_size_of_mem_dependencies hd)) hd
    have hle := ih hc
    rw [List.length_cons]
    omega

theorem isGreatest_depth (v : Nat) :
    IsGreatest {n | ∃ chain, chain.length = n ∧ g.IsChainFrom v chain} (g.depth v) := by
  have hwithin := g.isGreatest_depthWithin g.size v
  refine ⟨hwithin.1.2, ?_⟩
  rintro n ⟨chain, rfl, hchain⟩
  have hsize : order.length = g.size := by rw [h.perm.length_eq, length_ids]
  have hle := (length_le_idxOf_of_isChainFrom h hchain).trans List.idxOf_le_length
  exact hwithin.2 ⟨hsize ▸ hle, chain, rfl, hchain⟩

theorem depth_lt_of_mem_dependencies {v d : Nat} (hd : d ∈ g.dependencies v) :
    g.depth d < g.depth v := by
  obtain ⟨chain, hlen, hchain⟩ := (isGreatest_depth h d).1
  have hle := (isGreatest_depth h v).2 ⟨d :: chain, rfl, isChainFrom_cons.mpr ⟨hd, hchain⟩⟩
  rw [List.length_cons] at hle
  omega

/-- A longest chain goes on with a longest chain. -/
theorem exists_mem_dependencies_of_lt_depth {v n : Nat} (hn : n < g.depth v) :
    ∃ d ∈ g.dependencies v, n ≤ g.depth d := by
  obtain ⟨chain, hlen, hchain⟩ := (isGreatest_depth h v).1
  cases chain with
  | nil =>
    rw [List.length_nil] at hlen
    omega
  | cons d chain =>
    obtain ⟨hd, hchain⟩ := isChainFrom_cons.mp hchain
    have hle := (isGreatest_depth h d).2 ⟨chain, rfl, hchain⟩
    rw [List.length_cons] at hlen
    exact ⟨d, hd, by omega⟩

theorem depth_eq_zero_iff {v : Nat} : g.depth v = 0 ↔ g.dependencies v = [] := by
  constructor
  · intro hzero
    refine List.eq_nil_iff_forall_not_mem.mpr fun d hd => ?_
    have hlt := depth_lt_of_mem_dependencies h hd
    omega
  · intro hnil
    by_contra hne
    obtain ⟨d, hd, -⟩ := exists_mem_dependencies_of_lt_depth h (Nat.pos_of_ne_zero hne)
    rw [hnil] at hd
    exact List.not_mem_nil hd

theorem readyAt_eq_lastPosition_add_one {v : Nat} (hpos : 0 < g.depth v) :
    readyAt g.dependencies order v = g.lastPosition order v + 1 := by
  obtain ⟨d, hd, -⟩ := exists_mem_dependencies_of_lt_depth h hpos
  have hne : (g.dependencies v).toFinset.Nonempty := ⟨d, List.mem_toFinset.mpr hd⟩
  apply le_antisymm
  · refine readyAt_le_iff.mpr fun b hb => Nat.lt_succ_of_le ?_
    exact Finset.le_sup (f := order.idxOf) (List.mem_toFinset.mpr hb)
  · obtain ⟨b, hb, hlast⟩ := Finset.exists_mem_eq_sup _ hne order.idxOf
    rw [lastPosition, hlast]
    exact readyAt_le_iff.mp (le_refl (readyAt g.dependencies order v)) b (List.mem_toFinset.mp hb)

/-- The induction is on the smaller depth: all that `u` waits for is placed before a dependency of
`v` that is as deep as `u` at least. -/
theorem idxOf_lt_of_depth_lt {u v : Nat} (hu : u < g.size) (hv : v < g.size)
    (hlt : g.depth u < g.depth v) : order.idxOf u < order.idxOf v := by
  induction hn : g.depth u using Nat.strong_induction_on generalizing u v with
  | _ n ih =>
    subst hn
    obtain ⟨w, hw, hle⟩ := exists_mem_dependencies_of_lt_depth h hlt
    have hwsize : w < g.size := mem_ids.mp (h.mem_items_of_mem_needs (mem_ids.mpr hv) hw)
    have hbefore : readyAt g.dependencies order u ≤ order.idxOf w := by
      refine readyAt_le_iff.mpr fun d hd => ?_
      have hdsize : d < g.size := mem_ids.mp (h.mem_items_of_mem_needs (mem_ids.mpr hu) hd)
      have hdepth := depth_lt_of_mem_dependencies h hd
      exact ih _ hdepth hdsize hwsize (hdepth.trans_le hle) rfl
    have hafter : order.idxOf w < readyAt g.dependencies order v :=
      readyAt_le_iff.mp (le_refl (readyAt g.dependencies order v)) w hw
    rw [h.idxOf_lt_idxOf_iff (mem_ids.mpr hu) (mem_ids.mpr hv)]
    exact Prod.Lex.toLex_lt_toLex.mpr (Or.inl (hbefore.trans_lt hafter))

/-- Within a layer the last placed dependencies decide, and then the order of insertion. -/
theorem idxOf_lt_iff_of_depth_eq {u v : Nat} (hu : u < g.size) (hv : v < g.size)
    (hpos : 0 < g.depth u) (heq : g.depth u = g.depth v) :
    order.idxOf u < order.idxOf v ↔
      toLex (g.lastPosition order u, u) < toLex (g.lastPosition order v, v) := by
  rw [h.idxOf_lt_idxOf_iff (mem_ids.mpr hu) (mem_ids.mpr hv), turn, turn, idxOf_ids hu,
    idxOf_ids hv, readyAt_eq_lastPosition_add_one h hpos,
    readyAt_eq_lastPosition_add_one h (heq ▸ hpos), Prod.Lex.toLex_lt_toLex,
    Prod.Lex.toLex_lt_toLex]
  simp only [Nat.add_lt_add_iff_right, Nat.add_right_cancel_iff]

theorem idxOf_lt_iff_of_depth_eq_zero {u v : Nat} (hu : u < g.size) (hv : v < g.size)
    (hzero : g.depth u = 0) (hzero' : g.depth v = 0) :
    order.idxOf u < order.idxOf v ↔ u < v := by
  rw [h.idxOf_lt_idxOf_iff (mem_ids.mpr hu) (mem_ids.mpr hv), turn, turn, idxOf_ids hu,
    idxOf_ids hv, readyAt_eq_zero ((depth_eq_zero_iff h).mp hzero),
    readyAt_eq_zero ((depth_eq_zero_iff h).mp hzero'), Prod.Lex.toLex_lt_toLex]
  simp

theorem idxOf_lt_iff {u v : Nat} (hu : u < g.size) (hv : v < g.size) :
    order.idxOf u < order.idxOf v ↔
      g.depth u < g.depth v ∨ (g.depth u = 0 ∧ g.depth v = 0 ∧ u < v) ∨
        (g.depth u = g.depth v ∧ 0 < g.depth u ∧
          toLex (g.lastPosition order u, u) < toLex (g.lastPosition order v, v)) := by
  rcases Nat.lt_trichotomy (g.depth u) (g.depth v) with hlt | heq | hgt
  · have hidx := idxOf_lt_of_depth_lt h hu hv hlt
    simp only [hidx, hlt, true_or]
  · rcases Nat.eq_zero_or_pos (g.depth u) with hzero | hpos
    · have hzero' : g.depth v = 0 := heq ▸ hzero
      rw [idxOf_lt_iff_of_depth_eq_zero h hu hv hzero hzero']
      simp [hzero, hzero']
    · rw [idxOf_lt_iff_of_depth_eq h hu hv hpos heq]
      have hne : g.depth u ≠ 0 := Nat.ne_of_gt hpos
      simp [← heq, hpos, hne]
  · have hidx := idxOf_lt_of_depth_lt h hv hu hgt
    constructor
    · intro hlt
      exact absurd hlt hidx.asymm
    · omega

theorem pairwise_depth_le : order.Pairwise fun u v => g.depth u ≤ g.depth v := by
  refine (pairwise_idxOf h.nodup).imp_of_mem fun {u v} hu hv hidx => ?_
  have husize := mem_ids.mp (h.mem_iff.mp hu)
  have hvsize := mem_ids.mp (h.mem_iff.mp hv)
  by_contra hlt
  exact hidx.asymm (idxOf_lt_of_depth_lt h hvsize husize (Nat.not_le.mp hlt))

end Order

/-- A sort gives the layers of a graph one after the other: the nodes without dependencies as they
were inserted, and then deeper and deeper nodes. The nodes of a layer come in the order of their
last placed dependencies, and where these are the same, as they were inserted. How the dependencies
of a node are arranged does not matter. -/
theorem Reachable.sortIds_layers {g : Graph} (h : g.Reachable) {order : List Nat}
    (ho : g.sortIds = .ok order) :
    (∀ v, IsGreatest {n | ∃ chain, chain.length = n ∧ g.IsChainFrom v chain} (g.depth v)) ∧
    (∀ u < g.size, ∀ v < g.size, order.idxOf u < order.idxOf v ↔
      g.depth u < g.depth v ∨ (g.depth u = 0 ∧ g.depth v = 0 ∧ u < v) ∨
        (g.depth u = g.depth v ∧ 0 < g.depth u ∧
          toLex (g.lastPosition order u, u) < toLex (g.lastPosition order v, v))) ∧
    (order.Pairwise fun u v => g.depth u ≤ g.depth v) ∧
    ∀ other : Graph, other.Reachable → other.size = g.size →
      (∀ v < g.size, (other.dependencies v).Perm (g.dependencies v)) →
        other.sortIds = .ok order := by
  have hqueue := (sortIds_eq_ok_iff h.wellFormed).mp ho
  refine ⟨isGreatest_depth hqueue, fun u hu v hv => idxOf_lt_iff hqueue hu hv,
    pairwise_depth_le hqueue, fun other hother hsize hdeps => ?_⟩
  have hids : other.ids = g.ids := by rw [ids, ids, hsize]
  rw [sortIds_eq_ok_iff hother.wellFormed, hids]
  exact hqueue.congr fun v hv d => (hdeps v (mem_ids.mp hv)).mem_iff.symm

/-- Of the two files above `kinds`, `io` was inserted first. It stays first when the edges are added
in another order. -/
theorem sortIds_layers_diamond :
    let g := ofLists [("app", [1, 2]), ("io", [3]), ("math", [3, 4]), ("kinds", []), ("const", [3])]
    let other := ofLists
      [("app", [2, 1]), ("io", [3]), ("math", [4, 3]), ("kinds", []), ("const", [3])]
    let order := [3, 1, 4, 2, 0]
    g.sortIds = .ok order ∧
      IsGreatest {n | ∃ chain, chain.length = n ∧ g.IsChainFrom 0 chain} 3 ∧
      order.idxOf 1 < order.idxOf 4 ∧ other.sortIds = .ok order := by
  intro g other order
  have ho : g.sortIds = .ok order := by decide +kernel
  obtain ⟨hdepth, hidx, -, hother⟩ := (reachable_ofLists _).sortIds_layers ho
  have happ : g.depth 0 = 3 := by decide +kernel
  have hlayer : g.depth 1 = g.depth 4 ∧ 0 < g.depth 1 ∧
      toLex (g.lastPosition order 1, 1) < toLex (g.lastPosition order 4, 4) := by decide +kernel
  refine ⟨ho, happ ▸ hdepth 0, ?_, ?_⟩
  · exact (hidx 1 (by decide +kernel) 4 (by decide +kernel)).mpr (Or.inr (Or.inr hlayer))
  · exact hother other (reachable_ofLists _) (by decide +kernel) (by decide +kernel)

end BuildOrder.Graph
