import BuildOrder.Proofs.Graph.Order

/-! The views of a graph and its sort with every look-up checked. There is no result where a
position is out of bounds or a counter would fall below zero. In a well-formed graph this never
happens, and the checked views are the views. -/
namespace BuildOrder

section Lists

variable {α β : Type}

theorem mapM_eq_some {f : α → Option β} {h : α → β} {xs : List α}
    (hf : ∀ x ∈ xs, f x = some (h x)) : xs.mapM f = some (xs.map h) := by
  induction xs with
  | nil => rfl
  | cons x xs ih =>
    rw [List.mapM_cons, hf x List.mem_cons_self, ih fun y hy => hf y (List.mem_cons_of_mem x hy)]
    rfl

/-- Changes the entry at a position, if there is one. -/
def modify? (f : α → α) (xs : List α) (i : Nat) : Option (List α) :=
  if i < xs.length then some (xs.modify i f) else none

theorem foldlM_modify? {f : α → α} {xs : List α} {positions : List Nat}
    (hp : ∀ i ∈ positions, i < xs.length) :
    positions.foldlM (modify? f) xs = some (positions.foldl (fun xs i => xs.modify i f) xs) := by
  induction positions generalizing xs with
  | nil => rfl
  | cons i positions ih =>
    have hmodify : modify? f xs i = some (xs.modify i f) := if_pos (hp i List.mem_cons_self)
    have hrest : ∀ j ∈ positions, j < (xs.modify i f).length := by
      simpa using fun j hj => hp j (List.mem_cons_of_mem i hj)
    rw [List.foldlM_cons, hmodify]
    exact ih hrest

theorem getElem?_foldl_modify (f : α → α) (xs : List α) (positions : List Nat) (j : Nat) :
    (positions.foldl (fun xs i => xs.modify i f) xs)[j]? =
      xs[j]?.map f^[positions.count j] := by
  induction positions generalizing xs with
  | nil => simp
  | cons i positions ih =>
    rw [List.foldl_cons, ih, List.getElem?_modify, List.count_cons]
    by_cases hij : i = j
    · simp [hij, Function.comp_def, Function.iterate_succ]
    · simp [hij]

/-- The positions whose entries satisfy `p`, if all have entries. -/
def select? (p : α → Bool) (entries : List α) : List Nat → Option (List Nat)
  | [] => some []
  | i :: rest => do
    let entry ← entries[i]?
    let selected ← select? p entries rest
    return if p entry then i :: selected else selected

theorem select?_eq {p : α → Bool} {q : Nat → Bool} {entries : List α} {positions : List Nat}
    (h : ∀ i ∈ positions, ∃ entry, entries[i]? = some entry ∧ p entry = q i) :
    select? p entries positions = some (positions.filter q) := by
  induction positions with
  | nil => rfl
  | cons i rest ih =>
    obtain ⟨entry, hentry, hp⟩ := h i List.mem_cons_self
    have ih := ih fun j hj => h j (List.mem_cons_of_mem i hj)
    cases hq : q i <;> simp [select?, hentry, ih, hp, hq]

end Lists

namespace Graph

def name? (g : Graph) (id : Nat) : Option String :=
  g.nodes[id]?.map (·.name)

def names? (g : Graph) (ids : List Nat) : Option (List String) :=
  ids.mapM g.name?

def edges? (g : Graph) : Option (List (String × String)) :=
  (g.nodes.mapM fun (node : Node) => node.dependencies.mapM fun id =>
    (g.name? id).map fun name => (node.name, name)).map List.flatten

def adjacency? (g : Graph) : Option Listing :=
  g.nodes.mapM fun node => (g.names? node.dependencies).map fun names => (node.name, names)

/-- The nodes go over their dependencies in insertion order, and each puts itself last among the
dependents found so far. -/
def dependents? (g : Graph) : Option (List (List Nat)) :=
  g.nodes.zipIdx.foldlM
    (fun lists entry => entry.1.dependencies.foldlM (modify? (· ++ [entry.2])) lists)
    (List.replicate g.size [])

/-- The counters when those of the waiting nodes are one less. -/
def lowered (waiting remaining : List Nat) : List Nat :=
  remaining.mapIdx fun v count => if v ∈ waiting then count - 1 else count

/-- Takes one from the counter of a node, which joins the frontier if none is left. -/
def release? (p : List Nat × List Nat) (v : Nat) : Option (List Nat × List Nat) :=
  match p.1[v]? with
  | some (count + 1) => some (p.1.set v count, if count = 0 then p.2 ++ [v] else p.2)
  | _ => none

def step? (dependents : List (List Nat)) (p : Progress) : Option Progress :=
  match p.frontier with
  | [] => some p
  | id :: rest => do
    let waiting ← dependents[id]?
    let (remaining, frontier) ← waiting.foldlM release? (p.remaining, rest)
    return ⟨remaining, frontier, p.placed ++ [id]⟩

def residual? (g : Graph) (placed : List Nat) : Option Listing := do
  let marks ← placed.foldlM (modify? fun _ => true) (List.replicate g.size false)
  let left ← select? (!·) marks g.ids
  left.mapM fun id => do
    let node ← g.nodes[id]?
    let waiting ← select? (!·) marks node.dependencies
    return (node.name, ← g.names? waiting)

def sortIds? (g : Graph) : Option (Except SortError (List Nat)) := do
  let remaining := g.nodes.map (·.dependencies.length)
  let dependents ← g.dependents?
  let frontier ← select? (· = 0) remaining g.ids
  if frontier = [] ∧ g.size ≠ 0 then
    let adjacency ← g.adjacency?
    return .error (.noRoots adjacency)
  else
    let last ← (List.range g.size).foldlM (fun p _ => step? dependents p) ⟨remaining, frontier, []⟩
    if last.placed.length < g.size then
      let residual ← g.residual? last.placed
      return .error (.cycle residual)
    else return .ok last.placed

def sort? (g : Graph) : Option (Except SortError (List String)) := do
  match ← g.sortIds? with
  | .error e => return .error e
  | .ok ids =>
    let names ← g.names? ids
    return .ok names

theorem name?_eq {g : Graph} {id : Nat} (hid : id < g.size) : g.name? id = some (g.nameOf id) := by
  have hlt : id < g.nodes.length := hid
  simp [name?, nameOf, hlt]

theorem names?_eq {g : Graph} {ids : List Nat} (hids : ∀ id ∈ ids, id < g.size) :
    g.names? ids = some (g.names ids) :=
  mapM_eq_some fun id hid => name?_eq (hids id hid)

theorem foldlM_modify?_dependencies {n : Nat} {entries : List (Node × Nat)}
    (hlt : ∀ entry ∈ entries, ∀ d ∈ entry.1.dependencies, d < n)
    (hnodup : ∀ entry ∈ entries, entry.1.dependencies.Nodup) :
    entries.foldlM
        (fun lists entry => entry.1.dependencies.foldlM (modify? (· ++ [entry.2])) lists)
        (List.replicate n []) =
      some ((List.range n).map fun id =>
        (entries.filter fun entry => id ∈ entry.1.dependencies).map (·.2)) := by
  induction entries using List.reverseRecOn with
  | nil => simp
  | append_singleton entries entry ih =>
    have ih := ih (fun e he => hlt e (List.mem_append_left _ he))
      fun e he => hnodup e (List.mem_append_left _ he)
    have hentry : entry ∈ entries ++ [entry] := by simp
    have hpositions : ∀ d ∈ entry.1.dependencies, d < ((List.range n).map fun id =>
        (entries.filter fun entry => id ∈ entry.1.dependencies).map (·.2)).length := by
      simpa using hlt entry hentry
    rw [List.foldlM_append, ih]
    simp only [Option.bind_eq_bind, Option.bind_some, List.foldlM_cons, List.foldlM_nil,
      foldlM_modify? hpositions, Option.pure_def]
    congr 1
    apply List.ext_getElem?
    intro id
    rw [getElem?_foldl_modify, (hnodup entry hentry).count]
    by_cases hid : id < n
    · by_cases hmem : id ∈ entry.1.dependencies
      · simp [hid, hmem]
      · simp [hid, hmem]
    · simp [hid]

theorem getElem?_lowered (waiting remaining : List Nat) (v : Nat) :
    (lowered waiting remaining)[v]? =
      remaining[v]?.map fun count => if v ∈ waiting then count - 1 else count := by
  simp [lowered]

/-- Counters that are lowered one after the other are lowered together. -/
theorem foldlM_release? {waiting remaining queue : List Nat} (hn : waiting.Nodup)
    (hcount : ∀ v ∈ waiting, ∃ count, remaining[v]? = some (count + 1)) :
    waiting.foldlM release? (remaining, queue) = some (lowered waiting remaining,
      queue ++ waiting.filter fun v => (lowered waiting remaining)[v]? = some 0) := by
  induction waiting generalizing remaining queue with
  | nil => simp [lowered, List.mapIdx_eq_zipIdx_map]
  | cons v rest ih =>
    obtain ⟨hv, hn⟩ := List.nodup_cons.mp hn
    obtain ⟨count, hvcount⟩ := hcount v List.mem_cons_self
    have hlowered : lowered rest (remaining.set v count) = lowered (v :: rest) remaining := by
      apply List.ext_getElem?
      intro w
      rw [getElem?_lowered, getElem?_lowered]
      by_cases hw : v = w
      · subst hw
        have hlt := (List.getElem?_eq_some_iff.mp hvcount).1
        rw [List.getElem?_set_self hlt, hvcount]
        simp [hv]
      · simp [hw, Ne.symm hw]
    have hrest : ∀ w ∈ rest, ∃ c, (remaining.set v count)[w]? = some (c + 1) := by
      intro w hw
      have hne : v ≠ w := fun heq => hv (heq ▸ hw)
      simpa [hne] using hcount w (List.mem_cons_of_mem v hw)
    have hjoins : (lowered (v :: rest) remaining)[v]? = some count := by
      simp [getElem?_lowered, hvcount]
    rw [List.foldlM_cons, release?, hvcount]
    refine (ih hn hrest).trans ?_
    rw [hlowered, List.filter_cons, hjoins]
    by_cases hzero : count = 0 <;> simp [hzero]

section WellFormed

variable {g : Graph} (hg : g.WellFormed)
include hg

theorem of_mem_nodes {node : Node} (hnode : node ∈ g.nodes) :
    (∀ d ∈ node.dependencies, d < g.size) ∧ node.dependencies.Nodup := by
  obtain ⟨v, hv⟩ := List.mem_iff_getElem?.mp hnode
  rw [← dependencies_of_getElem? hv]
  exact ⟨fun d => hg.lt_size, hg.nodup_dependencies v⟩

theorem edges?_eq : g.edges? = some g.edges := by
  rw [edges?, mapM_eq_some fun node hnode => mapM_eq_some fun id hid => by
    rw [name?_eq ((of_mem_nodes hg hnode).1 id hid), Option.map_some]]
  rfl

theorem adjacency?_eq : g.adjacency? = some g.adjacency :=
  mapM_eq_some fun node hnode => by rw [names?_eq (of_mem_nodes hg hnode).1, Option.map_some]

theorem dependents?_eq : g.dependents? = some g.dependents := by
  have hnode : ∀ entry ∈ g.nodes.zipIdx, entry.1 ∈ g.nodes := by
    intro entry hentry
    exact List.mem_of_getElem? (List.mem_zipIdx_iff_getElem?.mp hentry)
  exact foldlM_modify?_dependencies (fun entry hentry => (of_mem_nodes hg (hnode entry hentry)).1)
    fun entry hentry => (of_mem_nodes hg (hnode entry hentry)).2

/-- The popped node is a dependency of its dependents, so each of them still waits for it. -/
theorem Invariant.exists_counter {p : Progress} (h : g.Invariant p) {id : Nat} {rest : List Nat}
    (hp : p.frontier = id :: rest) {v : Nat} (hv : v ∈ g.dependentsOf id) :
    ∃ count, p.remaining[v]? = some (count + 1) := by
  have hid := mem_dependentsOf.mp hv
  refine ⟨g.waiting (p.placed ++ [id]) v, ?_⟩
  rw [h.remaining v (lt_size_of_mem_dependencies hid), waiting_append hg (h.head hp).1 v, if_pos hid]

theorem Invariant.step?_eq {p : Progress} (h : g.Invariant p) :
    step? g.dependents p = some (g.step p) := by
  cases hp : p.frontier with
  | nil => simp [step?, hp, step_of_nil hp]
  | cons id rest =>
    have hdependents : g.dependents[id]? = some (g.dependentsOf id) := by
      simp [dependents, ids, (h.head hp).2.1]
    rw [step?, Graph.step, hp]
    simp only [hdependents, Option.bind_eq_bind, Option.bind_some,
      foldlM_release? (g.nodup_dependentsOf id) fun v => h.exists_counter hg hp]
    rfl

theorem foldlM_step? (k : Nat) :
    (List.range k).foldlM (fun p _ => step? g.dependents p) g.start = some (g.after k) := by
  induction k with
  | zero => rfl
  | succ k ih =>
    rw [List.range_succ, List.foldlM_append, ih]
    simp [(invariant_after hg k).step?_eq hg, after]

theorem residual?_eq {placed : List Nat} (hplaced : ∀ id ∈ placed, id < g.size) :
    g.residual? placed = some (g.residual placed) := by
  let marks := placed.foldl (fun marks id => marks.modify id fun _ => true)
    (List.replicate g.size false)
  have hmarks : placed.foldlM (modify? fun _ => true) (List.replicate g.size false) = some marks :=
    foldlM_modify? (by simpa using hplaced)
  have hmark : ∀ id < g.size, ∃ mark, marks[id]? = some mark ∧ (!mark) = decide (id ∉ placed) := by
    intro id hid
    rw [getElem?_foldl_modify]
    by_cases hmem : id ∈ placed
    · obtain ⟨n, hn⟩ := Nat.exists_eq_succ_of_ne_zero (List.count_pos_iff.mpr hmem).ne'
      rw [hn, Function.iterate_succ']
      simp [hid, hmem]
    · rw [List.count_eq_zero_of_not_mem hmem]
      simp [hid, hmem]
  rw [residual?, hmarks]
  simp only [Option.bind_eq_bind, Option.bind_some]
  rw [select?_eq fun id hid => hmark id (mem_ids.mp hid)]
  refine mapM_eq_some fun id hid => ?_
  have hid : id < g.size := mem_ids.mp (List.mem_filter.mp hid).1
  obtain ⟨node, hnode⟩ : ∃ node, g.nodes[id]? = some node := ⟨_, List.getElem?_eq_getElem hid⟩
  have hdependencies := (of_mem_nodes hg (List.mem_of_getElem? hnode)).1
  have hnames : g.names? (node.dependencies.filter (· ∉ placed)) = some _ :=
    names?_eq fun d hd => hdependencies d (List.mem_filter.mp hd).1
  simp only [hnode, Option.bind_some, select?_eq fun d hd => hmark d (hdependencies d hd), hnames,
    nameOf_of_getElem? hnode, dependencies_of_getElem? hnode]
  rfl

theorem sortIds?_eq : g.sortIds? = some g.sortIds := by
  have hroots : select? (· = 0) (g.nodes.map (·.dependencies.length)) g.ids = some g.roots := by
    refine select?_eq fun id hid => ?_
    have hlt : id < g.nodes.length := mem_ids.mp hid
    exact ⟨g.nodes[id].dependencies.length, by simp [hlt], by simp [dependencies, hlt]⟩
  have hlast := foldlM_step? hg g.size
  have hplaced : ∀ id ∈ g.placed, id < g.size := fun id hid => ((mem_placed hg).mp hid).1
  rw [start] at hlast
  rw [sortIds?, sortIds, dependents?_eq hg, hroots]
  simp only [Option.bind_eq_bind, Option.bind_some, hlast, adjacency?_eq hg]
  rw [← placed, residual?_eq hg hplaced]
  split
  · rfl
  · split <;> rfl

theorem sort?_eq : g.sort? = some g.sort := by
  rw [sort?, sort, sortIds?_eq hg]
  cases hs : g.sortIds with
  | error e => rfl
  | ok ids =>
    have hids : ∀ id ∈ ids, id < g.size := by
      intro id hid
      exact mem_ids.mp ((isBuildOrder_of_sortIds hg hs).perm.mem_iff.mp hid)
    simp only [Option.bind_eq_bind, Option.bind_some, names?_eq hids]
    rfl

end WellFormed

end Graph
end BuildOrder
