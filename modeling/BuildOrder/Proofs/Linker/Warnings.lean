import BuildOrder.Proofs.Linker.Link

/-! The warnings of a linker: what each file adds to them is told by the files before it. -/
namespace BuildOrder.Linker

/-- The warnings of a file with the given symbols that displaces the last providers of some. -/
def displacements (inputs : List (String × Symbols)) (path : String) (symbols : Symbols) :
    List Warning :=
  symbols.provides.filterMap fun symbol =>
    (lastProvider? inputs symbol).map fun previous => .duplicateProvider symbol previous path

/-- The warnings of a step after others. -/
def stepWarnings (steps : List Step) (step : Step) : List Warning :=
  if step.path ∈ steps.map Step.path then [.duplicateInput step.path]
  else step.unreadable ++ displacements (inputs steps) step.path step.symbols

theorem provider?_provide (path : String) (l : Linker) (symbol other : String) :
    (provide path l symbol).registry.provider? other =
      if Text.upper other = Text.upper symbol then some path else l.registry.provider? other := by
  rw [Registry.provider?, bindings_provide, List.lookup_cons]
  by_cases h : Text.upper other = Text.upper symbol
  · simp [h]
  · rw [beq_false_of_ne h, if_neg h]
    rfl

theorem warnings_provide {path : String} {l : Linker} {symbol : String}
    (hnew : l.registry.provider? symbol ≠ some path) :
    (provide path l symbol).warnings = l.warnings ++
      ((l.registry.provider? symbol).map fun previous =>
        .duplicateProvider symbol previous path).toList := by
  cases hprovider : l.registry.provider? symbol with
  | none => simp [provide, Registry.register, hprovider]
  | some previous =>
    have hne : previous ≠ path := fun heq => hnew (by rw [hprovider, heq])
    simp [provide, Registry.register, hprovider, Option.filter, hne, warn]

/-- A new provider of symbols that differ up to case displaces the providers before it, each by one
warning. -/
theorem warnings_foldl_provide {path : String} {l : Linker} {symbols : List String}
    (hn : (symbols.map Text.upper).Nodup)
    (hnew : ∀ symbol ∈ symbols, l.registry.provider? symbol ≠ some path) :
    (symbols.foldl (provide path) l).warnings = l.warnings ++
      symbols.filterMap fun symbol => (l.registry.provider? symbol).map fun previous =>
        .duplicateProvider symbol previous path := by
  induction symbols generalizing l with
  | nil => exact (List.append_nil _).symm
  | cons symbol rest ih =>
    obtain ⟨hsymbol, hrest⟩ := List.nodup_cons.mp hn
    -- The rest differ from this symbol up to case, so that they keep their providers.
    have hkept : ∀ other ∈ rest,
        (provide path l symbol).registry.provider? other = l.registry.provider? other := by
      intro other hother
      rw [provider?_provide, if_neg]
      intro heq
      exact hsymbol (heq ▸ List.mem_map_of_mem hother)
    have hrestnew : ∀ other ∈ rest,
        (provide path l symbol).registry.provider? other ≠ some path := by
      intro other hother
      rw [hkept other hother]
      exact hnew other (List.mem_cons_of_mem _ hother)
    rw [List.foldl_cons, ih hrest hrestnew, warnings_provide (hnew symbol (by simp)),
      List.append_assoc]
    congr 1
    rw [List.filterMap_congr fun other hother => by rw [hkept other hother]]
    cases hprovider : l.registry.provider? symbol with
    | none => simp [hprovider]
    | some previous => simp [hprovider]

theorem Collected.warnings_insert {l : Linker} {inputs : List (String × Symbols)}
    (h : l.Collected inputs) {path : String} {symbols : Symbols}
    (hn : (symbols.provides.map Text.upper).Nodup) (hnew : path ∉ inputs.map (·.1)) :
    (l.insert path symbols).warnings = l.warnings ++ displacements inputs path symbols := by
  have hprovider : ∀ symbol ∈ symbols.provides, l.registry.provider? symbol ≠ some path := by
    intro symbol _ hlast
    rw [h.provider?] at hlast
    exact hnew (mem_paths_of_lastProvider? hlast)
  have hfold := warnings_foldl_provide
    (l := { l with graph := (l.graph.addNode path).1 }) hn hprovider
  simp only [h.provider?] at hfold
  exact hfold

/-- What one more file adds to the warnings. -/
theorem warnings_run_append (steps : List Step) {step : Step}
    (hn : (step.symbols.provides.map Text.upper).Nodup) :
    (run (steps ++ [step])).warnings = (run steps).warnings ++ stepWarnings steps step := by
  have h := collected_run steps
  have hknown : ((run steps).graph.find? step.path).isSome ↔ step.path ∈ steps.map Step.path := by
    rw [isSome_find?_iff h, map_fst_inputs, List.mem_eraseDups]
  have hrun : run (steps ++ [step]) = (run steps).take step := by
    rw [run, List.foldl_append]
    rfl
  rw [hrun, stepWarnings]
  split
  next hmem => rw [take_of_known (hknown.mpr hmem), warn]
  next hmem =>
    have hnew : step.path ∉ (inputs steps).map (·.1) := by
      rwa [map_fst_inputs, List.mem_eraseDups]
    rw [take_of_new (mt hknown.mp hmem), (h.warnings _).warnings_insert hn hnew, List.append_assoc]

end BuildOrder.Linker
