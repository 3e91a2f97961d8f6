import BuildOrder.Proofs.Graph.Order
import BuildOrder.Proofs.Linker.Link

/-! What a file requires of itself. The latest file that provides a symbol wins, so that a file needs
no other file for a symbol of its own unless a later file provides it, too. -/
namespace BuildOrder

/-- The same symbols without a requirement, however it is spelled. -/
def Symbols.withoutRequirement (symbols : Symbols) (symbol : String) : Symbols :=
  { symbols with requires := symbols.requires.filter (Text.upper · ≠ Text.upper symbol) }

namespace Linker

/-- Gives the file at `path` without a requirement of its symbols, and other files as they are. -/
def Step.withoutRequirement (path symbol : String) (step : Step) : Step :=
  if step.path = path then .ofSymbols path (step.symbols.withoutRequirement symbol) else step

/-- The inputs of files whose symbols are changed. -/
theorem inputs_map {f : Step → Step} {change : String × Symbols → Symbols} (steps : List Step)
    (hpath : ∀ step, (f step).path = step.path)
    (hsymbols : ∀ step, (f step).symbols = change (step.path, step.symbols)) :
    inputs (steps.map f) = (inputs steps).map fun input => (input.1, change input) := by
  have hpaths : (steps.map f).map Step.path = steps.map Step.path := by
    simp [hpath]
  rw [inputs, inputs, hpaths, List.map_map]
  refine List.map_congr_left fun path hmem => ?_
  obtain ⟨step, hstep, rfl⟩ := List.mem_map.mp (List.mem_eraseDups.mp hmem)
  have hfind : (steps.map f).find? (·.path = step.path) =
      (steps.find? (·.path = step.path)).map f := by
    simp only [List.find?_map, Function.comp_def, hpath]
  rw [hfind]
  cases hfirst : steps.find? (·.path = step.path) with
  | none => simpa using List.find?_eq_none.mp hfirst step hstep
  | some first =>
    have hsame : first.path = step.path := by simpa using List.find?_some hfirst
    simp [hsymbols, hsame, hfirst]

section Provider

variable {inputs : List (String × Symbols)}

theorem lastProvider?_eq_none_iff {symbol : String} :
    lastProvider? inputs symbol = none ↔ ∀ input ∈ inputs, offers input.2 symbol = false := by
  simp [lastProvider?]

/-- A provider wins over those before it and loses to those after it. -/
theorem lastProvider?_split (before after : List (String × Symbols)) (input : String × Symbols)
    (symbol : String) :
    lastProvider? (before ++ input :: after) symbol = (lastProvider? after symbol).or
      (if offers input.2 symbol then some input.1 else lastProvider? before symbol) := by
  -- From the end, since the last of the inputs is asked first.
  induction after using List.reverseRecOn with
  | nil => simpa [lastProvider?] using lastProvider?_append input symbol
  | append_singleton after last ih =>
    rw [← List.cons_append, ← List.append_assoc, lastProvider?_append, ih, lastProvider?_append]
    split_ifs <;> rfl

/-- Changing requirements moves no provider. -/
theorem lastProvider?_map {change : String × Symbols → Symbols}
    (h : ∀ input, (change input).provides = input.2.provides) (symbol : String) :
    lastProvider? (inputs.map fun input => (input.1, change input)) symbol =
      lastProvider? inputs symbol := by
  simp [lastProvider?, List.filter_map, Function.comp_def, offers, h]

/-- A file is the last provider of the symbols that it provides and that no later file does. -/
theorem lastProvider?_eq_some_self_iff {before after : List (String × Symbols)} {path symbol : String}
    {symbols : Symbols} (hn : ((before ++ (path, symbols) :: after).map (·.1)).Nodup) :
    lastProvider? (before ++ (path, symbols) :: after) symbol = some path ↔
      offers symbols symbol = true ∧ ∀ later ∈ after, offers later.2 symbol = false := by
  rw [List.map_append, List.map_cons, List.nodup_middle, List.nodup_cons] at hn
  have hother := hn.1
  rw [List.mem_append, not_or] at hother
  rw [lastProvider?_split]
  cases hafter : lastProvider? after symbol with
  | some provider =>
    have hne : provider ≠ path := by
      rintro rfl
      exact hother.2 (mem_paths_of_lastProvider? hafter)
    obtain ⟨later, hmem, hoffers⟩ := mem_of_lastProvider? hafter
    simp only [Option.some_or, Option.some.injEq, hne, false_iff, not_and]
    intro _ hlater
    rw [hlater _ hmem] at hoffers
    cases hoffers
  | none =>
    have hlater := lastProvider?_eq_none_iff.mp hafter
    cases hoffers : offers symbols symbol with
    | true => simpa [hoffers] using hlater
    | false =>
      have hne : lastProvider? before symbol ≠ some path := fun hlast =>
        hother.1 (mem_paths_of_lastProvider? hlast)
      simpa [hoffers] using hne

/-- A file that is the last to provide a symbol need not require it. -/
theorem providers_withoutRequirement {path symbol : String} (symbols : Symbols)
    (hlast : lastProvider? inputs symbol = some path) :
    providers inputs (path, symbols.withoutRequirement symbol) = providers inputs (path, symbols) := by
  rw [providers, providers, Symbols.withoutRequirement, List.filterMap_filter,
    List.filter_filterMap, List.filter_filterMap]
  refine List.filterMap_congr fun required _ => ?_
  by_cases hsame : Text.upper required = Text.upper symbol
  · simp [hsame, lastProvider?_congr hsame, hlast, Option.filter]
  · simp [hsame]

theorem providers_eq_nil_iff {input : String × Symbols} : providers inputs input = [] ↔
    ∀ symbol ∈ input.2.requires,
      lastProvider? inputs symbol = some input.1 ∨ lastProvider? inputs symbol = none := by
  rw [List.eq_nil_iff_forall_not_mem]
  constructor
  · intro hnone symbol hsymbol
    cases hlast : lastProvider? inputs symbol with
    | none => exact Or.inr rfl
    | some provider =>
      left
      by_contra hne
      exact hnone provider (mem_providers.mpr ⟨fun heq => hne (by rw [heq]), symbol, hsymbol, hlast⟩)
  · intro hown provider hmem
    obtain ⟨hne, symbol, hsymbol, hlast⟩ := mem_providers.mp hmem
    rcases hown symbol hsymbol with hself | hself
    · rw [hlast] at hself
      exact hne (Option.some.inj hself)
    · rw [hlast] at hself
      cases hself

end Provider

section Step

variable (path symbol : String)

/-- What remains of the symbols of an input. -/
def remaining (input : String × Symbols) : Symbols :=
  if input.1 = path then input.2.withoutRequirement symbol else input.2

theorem provides_remaining (input : String × Symbols) :
    (remaining path symbol input).provides = input.2.provides := by
  unfold remaining
  split <;> rfl

theorem path_withoutRequirement (step : Step) :
    (step.withoutRequirement path symbol).path = step.path := by
  unfold Step.withoutRequirement
  split
  next hpath => exact hpath.symm
  next => rfl

theorem symbols_withoutRequirement (step : Step) :
    (step.withoutRequirement path symbol).symbols =
      remaining path symbol (step.path, step.symbols) := by
  unfold Step.withoutRequirement remaining
  split <;> rfl

theorem inputs_withoutRequirement (steps : List Step) :
    inputs (steps.map (.withoutRequirement path symbol)) =
      (inputs steps).map fun input => (input.1, remaining path symbol input) :=
  inputs_map steps (path_withoutRequirement path symbol) (symbols_withoutRequirement path symbol)

end Step

theorem linkedNode_remaining {inputs : List (String × Symbols)} {path symbol : String}
    (hlast : lastProvider? inputs symbol = some path) (input : String × Symbols) :
    linkedNode (inputs.map fun input => (input.1, remaining path symbol input))
        (input.1, remaining path symbol input) = linkedNode inputs input := by
  have hproviders : providers inputs (input.1, remaining path symbol input) =
      providers inputs input := by
    unfold remaining
    split
    next hpath =>
      subst hpath
      exact providers_withoutRequirement input.2 hlast
    next => rfl
  have hmoved : providers (inputs.map fun input => (input.1, remaining path symbol input))
        (input.1, remaining path symbol input) =
      providers inputs (input.1, remaining path symbol input) := by
    rw [providers, providers, funext (lastProvider?_map (provides_remaining path symbol))]
  have hposition : position (inputs.map fun input => (input.1, remaining path symbol input)) =
      position inputs := by
    funext other
    simp [position, Function.comp_def]
  rw [linkedNode, linkedNode, hmoved, hproviders, hposition]

/-- The last provider of a symbol is linked as if it did not require the symbol. -/
theorem graph_link_withoutRequirement {steps : List Step} {path symbol : String}
    (hlast : lastProvider? (inputs steps) symbol = some path) :
    (run (steps.map (.withoutRequirement path symbol))).link.graph = (run steps).link.graph := by
  rw [link_run, link_run, inputs_withoutRequirement, List.map_map]
  refine congrArg Graph.mk (List.map_congr_left fun input _ => ?_)
  exact linkedNode_remaining hlast input

/-- What a file requires leads to the latest of the files behind it that provide it, whether or not
the file provides it itself. -/
theorem dependsOn_latest {steps : List Step} {before between rest : List (String × Symbols)}
    {path provider symbol : String} {symbols provided : Symbols}
    (hsplit : inputs steps =
      before ++ (path, symbols) :: (between ++ (provider, provided) :: rest))
    (hrequires : symbol ∈ symbols.requires) (hoffers : offers provided symbol = true)
    (hrest : ∀ later ∈ rest, offers later.2 symbol = false) :
    ∃ names, (run steps).link.graph.dependencyNames? path = some names ∧ provider ∈ names := by
  have hmem : (path, symbols) ∈ inputs steps := by simp [hsplit]
  have hn : ((inputs steps).map (·.1)).Nodup := nodup_paths steps
  have hne : provider ≠ path := by
    intro heq
    rw [hsplit, List.map_append, List.map_cons, List.nodup_middle, List.nodup_cons] at hn
    exact hn.1 (by simp [heq])
  have hlast : lastProvider? (inputs steps) symbol = some provider := by
    rw [← List.cons_append, ← List.append_assoc] at hsplit
    rw [hsplit] at hn ⊢
    exact (lastProvider?_eq_some_self_iff hn).mpr ⟨hoffers, hrest⟩
  refine ⟨_, dependencyNames?_link_run hmem, ?_⟩
  rw [List.mem_eraseDups, mem_providers]
  exact ⟨hne, symbol, hrequires, hlast⟩

/-- A file adds no edge for a symbol that it provides itself, unless a later file provides it, too:
then what it requires leads to the latest such file. It has no dependencies, and is a root, exactly
when all that it requires is its own in this sense or provided by no file. -/
theorem link_run_own_symbols {steps : List Step} {before after : List (String × Symbols)}
    {path : String} {symbols : Symbols}
    (hsplit : inputs steps = before ++ (path, symbols) :: after) :
    (∀ symbol, offers symbols symbol = true → (∀ later ∈ after, offers later.2 symbol = false) →
      (run (steps.map (.withoutRequirement path symbol))).link.graph = (run steps).link.graph) ∧
    (∀ symbol ∈ symbols.requires, ∀ between provider provided rest,
      after = between ++ (provider, provided) :: rest → offers provided symbol = true →
      (∀ later ∈ rest, offers later.2 symbol = false) →
        ∃ names, (run steps).link.graph.dependencyNames? path = some names ∧ provider ∈ names) ∧
    ((∀ symbol ∈ symbols.requires,
        (offers symbols symbol = true ∧ ∀ later ∈ after, offers later.2 symbol = false) ∨
          ∀ input ∈ inputs steps, offers input.2 symbol = false) ↔
      (run steps).link.graph.dependencyNames? path = some [] ∧
        ∃ v ∈ (run steps).link.graph.roots, (run steps).link.graph.find? path = some v) := by
  have hn : ((before ++ (path, symbols) :: after).map (·.1)).Nodup := hsplit ▸ nodup_paths steps
  have hself : ∀ symbol, lastProvider? (inputs steps) symbol = some path ↔
      offers symbols symbol = true ∧ ∀ later ∈ after, offers later.2 symbol = false := by
    intro symbol
    rw [hsplit, lastProvider?_eq_some_self_iff hn]
  refine ⟨?_, ?_, ?_⟩
  · intro symbol hown hlater
    exact graph_link_withoutRequirement ((hself symbol).mpr ⟨hown, hlater⟩)
  · intro symbol hrequires between provider provided rest hafter hoffers hrest
    subst hafter
    exact dependsOn_latest hsplit hrequires hoffers hrest
  · have hmem : (path, symbols) ∈ inputs steps := by simp [hsplit]
    rw [← Graph.dependencyNames?_eq_nil_iff, and_self, dependencyNames?_link_run hmem,
      Option.some.injEq, eraseDups_eq_nil_iff, providers_eq_nil_iff]
    simp only [hself, lastProvider?_eq_none_iff]

/-- Of two files that provide the same header, the second one needs nothing else for it. -/
theorem link_run_own_symbols_second :
    let steps := [Step.ofSymbols "a/util.c" { provides := ["UTIL.H"], requires := ["UTIL.H"] },
      .ofSymbols "b/util.c" { provides := ["UTIL.H"], requires := ["STDIO.H", "util.h"] },
      .ofSymbols "main.c" { requires := ["UTIL.H"] }]
    (run (steps.map (.withoutRequirement "b/util.c" "UTIL.H"))).link.graph =
        (run steps).link.graph ∧
      (run steps).link.graph.dependencyNames? "b/util.c" = some [] := by
  intro steps
  have h := @link_run_own_symbols steps
    [("a/util.c", { provides := ["UTIL.H"], requires := ["UTIL.H"] })]
    [("main.c", { requires := ["UTIL.H"] })]
    "b/util.c" { provides := ["UTIL.H"], requires := ["STDIO.H", "util.h"] } (by decide +kernel)
  exact ⟨h.1 "UTIL.H" (by decide +kernel) (by decide +kernel), (h.2.2.mp (by decide +kernel)).1⟩

/-- The first one provides all that it requires, and still gets an edge to the second. -/
theorem own_symbol_of_later_file :
    let symbols : Symbols := { provides := ["UTIL.H"], requires := ["UTIL.H"] }
    let steps := [Step.ofSymbols "a/util.c" symbols, .ofSymbols "b/util.c" symbols]
    ("a/util.c", symbols) ∈ inputs steps ∧
      (∀ symbol ∈ symbols.requires, offers symbols symbol = true) ∧
      (run steps).link.graph.dependencyNames? "a/util.c" = some ["b/util.c"] ∧
      (run (steps.map (.withoutRequirement "a/util.c" "UTIL.H"))).link.graph.dependencyNames?
        "a/util.c" = some [] ∧
      (run steps).link.graph.roots.map (run steps).link.graph.nameOf = ["b/util.c"] := by
  decide +kernel

end Linker
end BuildOrder
