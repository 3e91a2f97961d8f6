import BuildOrder.Proofs.Linker.Inputs

/-! Which file provides a symbol: the last of the inputs that provide it, up to case. -/
namespace BuildOrder.Linker

/-- Whether a symbol is provided, up to case. -/
def offers (symbols : Symbols) (symbol : String) : Bool :=
  symbols.provides.any fun provided => Text.upper provided = Text.upper symbol

/-- The path of the last input that provides a symbol. -/
def lastProvider? (inputs : List (String × Symbols)) (symbol : String) : Option String :=
  (inputs.filter fun input => offers input.2 symbol).getLast?.map (·.1)

/-- The last providers of what an input requires, in order and without the input itself. -/
def providers (inputs : List (String × Symbols)) (input : String × Symbols) : List String :=
  (input.2.requires.filterMap (lastProvider? inputs)).filter (· ≠ input.1)

def position (inputs : List (String × Symbols)) (path : String) : Nat :=
  (inputs.map (·.1)).idxOf path

theorem offers_iff {symbols : Symbols} {symbol : String} :
    offers symbols symbol = true ↔ ∃ s ∈ symbols.provides, Text.upper s = Text.upper symbol := by
  simp [offers]

theorem offers_congr {s t : String} (h : Text.upper s = Text.upper t) (symbols : Symbols) :
    offers symbols s = offers symbols t := by
  rw [offers, offers, h]

section Provider

variable {inputs : List (String × Symbols)}

theorem lastProvider?_congr {s t : String} (h : Text.upper s = Text.upper t) :
    lastProvider? inputs s = lastProvider? inputs t := by
  simp only [lastProvider?, offers_congr h]

theorem mem_of_lastProvider? {symbol path : String} (hp : lastProvider? inputs symbol = some path) :
    ∃ symbols, (path, symbols) ∈ inputs ∧ offers symbols symbol := by
  obtain ⟨input, hlast, rfl⟩ := Option.map_eq_some_iff.mp hp
  have hmem := List.mem_filter.mp (List.mem_of_getLast? hlast)
  exact ⟨input.2, hmem.1, hmem.2⟩

theorem lastProvider?_append (input : String × Symbols) (symbol : String) :
    lastProvider? (inputs ++ [input]) symbol =
      if offers input.2 symbol then some input.1 else lastProvider? inputs symbol := by
  unfold lastProvider?
  split_ifs with h <;> simp [h]

private theorem lookup_map_const (keys : List String) (path key : String) :
    (keys.map fun k => (k, path)).lookup key = if key ∈ keys then some path else none := by
  induction keys with
  | nil => rfl
  | cons k keys ih =>
    by_cases hk : key = k
    · simp [hk]
    · have hbeq : (key == k) = false := beq_false_of_ne hk
      simp [List.lookup_cons, hbeq, ih, hk]

/-- A registry that holds the bindings of the inputs, the latest first, finds last providers. -/
theorem lookup_bindings (symbol : String) :
    (inputs.flatMap bindingsOf).reverse.lookup (Text.upper symbol) =
      lastProvider? inputs symbol := by
  induction inputs using List.reverseRecOn with
  | nil => rfl
  | append_singleton inputs input ih =>
    have hkeys : (bindingsOf input).reverse =
        (input.2.provides.map Text.upper).reverse.map fun key => (key, input.1) := by
      simp [bindingsOf, Function.comp_def]
    rw [List.flatMap_append, List.flatMap_singleton, List.reverse_append, List.lookup_append, ih,
      hkeys, lookup_map_const, lastProvider?_append]
    have hoffers : Text.upper symbol ∈ (input.2.provides.map Text.upper).reverse ↔
        offers input.2 symbol = true := by
      simp [offers]
    simp only [hoffers]
    split <;> rfl

theorem Collected.provider? {l : Linker} (h : l.Collected inputs) (symbol : String) :
    l.registry.provider? symbol = lastProvider? inputs symbol := by
  rw [Registry.provider?, h.bindings, lookup_bindings]

theorem mem_providers {input : String × Symbols} {path : String} :
    path ∈ providers inputs input ↔
      path ≠ input.1 ∧ ∃ symbol ∈ input.2.requires, lastProvider? inputs symbol = some path := by
  simp [providers, and_comm]

theorem mem_paths_of_lastProvider? {symbol path : String}
    (hp : lastProvider? inputs symbol = some path) : path ∈ inputs.map (·.1) := by
  obtain ⟨symbols, hmem, -⟩ := mem_of_lastProvider? hp
  exact List.mem_map.mpr ⟨(path, symbols), hmem, rfl⟩

theorem mem_paths_of_mem_providers {input : String × Symbols} {path : String}
    (hp : path ∈ providers inputs input) : path ∈ inputs.map (·.1) := by
  obtain ⟨-, symbol, -, hlast⟩ := mem_providers.mp hp
  exact mem_paths_of_lastProvider? hlast

theorem position_lt {path : String} (hp : path ∈ inputs.map (·.1)) :
    position inputs path < inputs.length := by
  simpa [position] using List.idxOf_lt_length_of_mem hp

theorem position_inj {path other : String} (hp : path ∈ inputs.map (·.1))
    (heq : position inputs path = position inputs other) : path = other :=
  (List.idxOf_inj hp).mp heq

theorem position_getElem (hn : (inputs.map (·.1)).Nodup) {k : Nat} (hk : k < inputs.length) :
    position inputs inputs[k].1 = k := by
  have hidx := hn.idxOf_getElem k (by simpa using hk)
  rwa [List.getElem_map] at hidx

theorem find?_eq_position {g : Graph} (hg : g.nodes.map (·.name) = inputs.map (·.1)) {path : String}
    (hp : path ∈ inputs.map (·.1)) : g.find? path = some (position inputs path) := by
  have hfind : g.find? path = (inputs.map (·.1)).findIdx? (· == path) := by
    rw [← hg, List.findIdx?_map]
    rfl
  have hex : ∃ x ∈ inputs.map (·.1), (x == path) = true := ⟨path, hp, beq_self_eq_true path⟩
  exact hfind.trans (List.findIdx?_eq_some_of_exists hex)

theorem nameOf_position {g : Graph}
    (hg : g.nodes.map (·.name) = inputs.map (·.1)) {path : String}
    (hp : path ∈ inputs.map (·.1)) : g.nameOf (position inputs path) = path :=
  (Graph.find?_some (find?_eq_position hg hp)).2

end Provider

end BuildOrder.Linker
