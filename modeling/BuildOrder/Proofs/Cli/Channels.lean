import BuildOrder.Cli.Args
import BuildOrder.Cli.Surroundings
import BuildOrder.Proofs.Order.Document
import BuildOrder.Proofs.Order.Files

/-! What a command writes to which channel, for any files, walks and readers of arguments and
configurations. The options that suppress warnings and choose a format act on one channel each, and
a failed run leaves no output. -/
namespace BuildOrder

/-- The environment variable acts on a configuration once it is found. -/
theorem Config.find_eq_map (read : ConfigReader) (fs : FileSystem) (explicit : Option String)
    (directory : String) (formatVariable : Option String) :
    Config.find read fs explicit directory formatVariable =
      (Config.find read fs explicit directory none).map (·.override formatVariable) := by
  have hload : ∀ path : String,
      (do return (← Config.load read fs path).override formatVariable) =
        (do return (← Config.load read fs path).override none : Except ConfigError Config).map
          (·.override formatVariable) := by
    intro path
    cases Config.load read fs path <;> rfl
  unfold Config.find
  cases explicit with
  | some path => exact hload path
  | none =>
    by_cases husual : fs.isFile (Path.join directory Config.fileName)
    · simpa only [husual, if_true] using hload _
    · simp only [husual]
      rfl

@[simp] theorem Config.extensions_override (config : Config) (formatVariable : Option String) :
    (config.override formatVariable).extensions = config.extensions := by
  rw [Config.override]
  cases (formatVariable.map Text.lower).bind Config.formatOfName <;> rfl

namespace Cli

def Command.input : Command → Input
  | order input _ => input
  | graph input => input

/-- The same command without its warnings. -/
def Command.quieted : Command → Command
  | order input json => order { input with quiet := true } json
  | graph input => graph { input with quiet := true }

/-- The same surroundings at another time and with another value of the environment variable. -/
def Environment.varied (env : Environment) (formatVariable : Option String) (time : String) :
    Environment :=
  { env with formatVariable, time }

/-- The warnings of a run; none where it fails before the files are read. -/
def warningsOf (env : Environment) (input : Input) : List Warning :=
  match load env input with
  | .error _ => []
  | .ok (_, groups) => groups.flatMap (·.analysis.warnings)

def warningLines (warnings : List Warning) : String :=
  String.join (warnings.map fun warning => "warning: " ++ warning.message ++ "\n")

theorem warningText_eq (input : Input) (groups : List Group) : warningText input groups =
    if input.quiet then "" else warningLines (groups.flatMap (·.analysis.warnings)) := by
  rw [warningText, warningLines, textLines, ← List.map_flatMap, List.map_map]
  rfl

theorem run_of_read {readCommand : List String → Except Outcome Command} {args : List String}
    {command : Command} (h : readCommand args = .ok command) (env : Environment) :
    run readCommand env args = command.run env := by
  rw [run, h]

section Load

variable {env : Environment} {input : Input}

/-- The groups of a run depend on neither its time nor the environment variable. -/
theorem groups_varied (env : Environment) (formatVariable : Option String) (time : String)
    (input : Input) :
    (load (env.varied formatVariable time) input).map (·.2) = (load env input).map (·.2) := by
  -- Of the configuration only the format depends on the variable, and no path does on the format.
  have hfind : ∀ formatVariable directory, Config.find env.readConfig env.files input.config
      directory formatVariable =
      (Config.find env.readConfig env.files input.config directory none).map
        (·.override formatVariable) :=
    fun formatVariable directory => Config.find_eq_map ..
  simp only [load, prepare, Environment.varied]
  cases env.files.currentDirectory with
  | error e => rfl
  | ok directory =>
    simp only [Except.mapError, bind, Except.bind]
    rw [hfind formatVariable, hfind env.formatVariable]
    cases Config.find env.readConfig env.files input.config directory none with
    | error e => rfl
    | ok config =>
      simp only [Except.map, Config.extensions_override]
      cases Discovery.expand env.files env.walk config.extensions input.paths with
      | error e => rfl
      | ok paths =>
        simp only [pure, Except.pure, Config.extensions_override]
        cases analyzeGroups env.files input.dialect config.extensions paths <;> rfl

/-- Loading that gives the same groups fails in the same way or differs in the configuration. -/
theorem load_cases {env' : Environment}
    (h : (load env' input).map (·.2) = (load env input).map (·.2)) :
    (∃ e, load env' input = .error e ∧ load env input = .error e) ∨
      ∃ config' config groups, load env' input = .ok (config', groups) ∧
        load env input = .ok (config, groups) := by
  cases hload' : load env' input with
  | error e' =>
    cases hload : load env input with
    | error e =>
      rw [hload, hload'] at h
      obtain rfl : e' = e := Except.error.inj h
      exact .inl ⟨e', rfl, rfl⟩
    | ok loaded =>
      rw [hload, hload'] at h
      cases h
  | ok loaded' =>
    cases hload : load env input with
    | error e =>
      rw [hload, hload'] at h
      cases h
    | ok loaded =>
      rw [hload, hload'] at h
      obtain ⟨config', groups'⟩ := loaded'
      obtain ⟨config, groups⟩ := loaded
      obtain rfl : groups' = groups := Except.ok.inj h
      exact .inr ⟨config', config, groups', rfl, rfl⟩

theorem load_varied {config : Config} {groups : List Group}
    (h : load env input = .ok (config, groups)) (formatVariable : Option String) (time : String) :
    ∃ config', load (env.varied formatVariable time) input = .ok (config', groups) := by
  have hcases := load_cases (groups_varied env formatVariable time input)
  rw [h] at hcases
  obtain ⟨e, -, herror⟩ | ⟨config', _, _, hload', hload⟩ := hcases
  · cases herror
  · cases hload
    exact ⟨config', hload'⟩

end Load

section Order

variable {env : Environment} {input : Input}

/-- An order fails to load, or fails to be sorted, or is written. -/
theorem runOrder_cases (env : Environment) (input : Input) (json : Bool) :
    (∃ e, load env input = .error e ∧ runOrder env input json = failed "" e) ∨
    (∃ config groups e, load env input = .ok (config, groups) ∧ sortGroups groups = .error e ∧
      runOrder env input json = failed (warningText input groups) (.order (.sort e))) ∨
    ∃ config groups order, load env input = .ok (config, groups) ∧ sortGroups groups = .ok order ∧
      runOrder env input json = ⟨0, orderText env (if json then .json else config.format) groups
        order, warningText input groups⟩ := by
  rw [runOrder]
  cases load env input with
  | error e => exact .inl ⟨e, rfl, rfl⟩
  | ok loaded =>
    obtain ⟨config, groups⟩ := loaded
    cases hsort : sortGroups groups with
    | error e => exact .inr (.inl ⟨config, groups, e, rfl, hsort, by simp only [hsort]⟩)
    | ok order => exact .inr (.inr ⟨config, groups, order, rfl, hsort, by simp only [hsort]⟩)

/-- The exit code and the errors of an order depend on its groups only. -/
theorem runOrder_channels {env' : Environment}
    (h : (load env' input).map (·.2) = (load env input).map (·.2)) (json json' : Bool) :
    (runOrder env' input json').code = (runOrder env input json).code ∧
      (runOrder env' input json').stderr = (runOrder env input json).stderr := by
  obtain ⟨e, hload', hload⟩ | ⟨config', config, groups, hload', hload⟩ := load_cases h
  · rw [runOrder, runOrder, hload', hload]
    exact ⟨rfl, rfl⟩
  · simp only [runOrder, hload', hload]
    cases sortGroups groups with
    | error e => exact ⟨rfl, rfl⟩
    | ok order => exact ⟨rfl, rfl⟩

/-- An order succeeds exactly if the groups loaded can be sorted. -/
theorem code_runOrder_eq_zero_iff (json : Bool) : (runOrder env input json).code = 0 ↔
    ∃ config groups order, load env input = .ok (config, groups) ∧
      sortGroups groups = .ok order := by
  obtain ⟨e, hload, hrun⟩ | ⟨config, groups, e, hload, hsort, hrun⟩ |
    ⟨config, groups, order, hload, hsort, hrun⟩ := runOrder_cases env input json
  · simp [hload, hrun, failed]
  · simp only [hload, hrun, failed, Except.ok.injEq, Prod.mk.injEq]
    refine iff_of_false (by decide) ?_
    intro hsorted
    obtain ⟨_, _, _, ⟨-, rfl⟩, hsorted⟩ := hsorted
    rw [hsort] at hsorted
    cases hsorted
  · rw [hrun]
    exact iff_of_true rfl ⟨config, groups, order, hload, hsort⟩

theorem stdout_runOrder {config : Config} {groups : List Group} {order : List String}
    (hload : load env input = .ok (config, groups)) (hsort : sortGroups groups = .ok order)
    (json : Bool) : (runOrder env input json).stdout =
      if json = true ∨ config.format = .json then
        ((Plan.ofGroups groups order).toJson env.time).text ++ "\n"
      else String.join (order.map (· ++ "\n")) := by
  have hone : ∀ line : String, textLines [line] = line ++ "\n" := by
    intro line
    simp [textLines, String.join]
  simp only [runOrder, hload, hsort]
  cases json with
  | true => exact hone _
  | false =>
    cases hformat : config.format with
    | text => simp [orderText, textLines]
    | json => simpa [orderText, Plan.text] using hone _

end Order

section Quiet

variable {env : Environment} {command : Command}

theorem stdout_of_failed (h : (command.run env).code ≠ 0) : (command.run env).stdout = "" := by
  cases command with
  | order input json =>
    rw [Command.run] at h ⊢
    obtain ⟨e, -, hrun⟩ | ⟨config, groups, e, -, -, hrun⟩ | ⟨config, groups, order, -, -, hrun⟩ :=
      runOrder_cases env input json
    · rw [hrun, failed]
    · rw [hrun, failed]
    · rw [hrun] at h
      exact absurd rfl h
  | graph input =>
    rw [Command.run, runGraph] at h ⊢
    cases hload : load env input with
    | error e => rfl
    | ok loaded => simp [hload] at h

theorem quieted_channels (h : command.input.quiet = false) :
    (command.quieted.run env).code = (command.run env).code ∧
      (command.quieted.run env).stdout = (command.run env).stdout ∧
      (command.run env).stderr =
        warningLines (warningsOf env command.input) ++ (command.quieted.run env).stderr := by
  have hload : ∀ input : Input, load env { input with quiet := true } = load env input :=
    fun _ => rfl
  have hnone : warningLines [] = "" := rfl
  cases command with
  | order input json =>
    change input.quiet = false at h
    simp only [Command.quieted, Command.run, Command.input, runOrder, warningsOf, hload]
    cases load env input with
    | error e => simp [failed, hnone]
    | ok loaded =>
      simp only [warningText_eq, h]
      cases sortGroups loaded.2 <;> simp [failed]
  | graph input =>
    change input.quiet = false at h
    simp only [Command.quieted, Command.run, Command.input, runGraph, warningsOf, hload]
    cases load env input with
    | error e => simp [failed, hnone]
    | ok loaded => simp [warningText_eq, h]

end Quiet

/-- The channels of a run are separate, whatever reads the arguments. Where the exit code is not
zero there is no output. Suppressing the warnings removes their lines from the errors and changes
nothing else. The option for JSON, the environment variable and the time change the output only. An
order succeeds exactly if the groups loaded can be sorted, and then the output holds the sorted
files, either as lines or as the member `order` of a document. -/
theorem channels_separate (readCommand : List String → Except Outcome Command) (env : Environment)
    (args : List String) (command : Command) (h : readCommand args = .ok command) :
    ((run readCommand env args).code ≠ 0 → (run readCommand env args).stdout = "") ∧
    (∀ quiet, command.input.quiet = false → readCommand quiet = .ok command.quieted →
      (run readCommand env quiet).code = (run readCommand env args).code ∧
      (run readCommand env quiet).stdout = (run readCommand env args).stdout ∧
      (run readCommand env args).stderr =
        String.join ((warningsOf env command.input).map fun warning =>
          "warning: " ++ warning.message ++ "\n") ++ (run readCommand env quiet).stderr) ∧
    ∀ input json, command = .order input json →
      (∀ formatVariable time other json', readCommand other = .ok (.order input json') →
        (run readCommand (env.varied formatVariable time) other).code =
          (run readCommand env args).code ∧
        (run readCommand (env.varied formatVariable time) other).stderr =
          (run readCommand env args).stderr) ∧
      ((run readCommand env args).code = 0 ↔ ∃ config groups order,
        load env input = .ok (config, groups) ∧ sortGroups groups = .ok order) ∧
      ∀ config groups order, load env input = .ok (config, groups) →
        sortGroups groups = .ok order → ∀ formatVariable time, ∃ config document,
          load (env.varied formatVariable time) input = .ok (config, groups) ∧
          document = (Plan.ofGroups groups order).toJson time ∧
          (∀ json : Json, json.IsText document.text ↔ json = document) ∧
          document.member? "order" = some (.strings order) ∧
          ∀ other json', readCommand other = .ok (.order input json') →
            (run readCommand (env.varied formatVariable time) other).stdout =
              if json' = true ∨ config.format = .json then document.text ++ "\n"
              else String.join (order.map (· ++ "\n")) := by
  rw [run_of_read h]
  refine ⟨stdout_of_failed, ?_, ?_⟩
  · intro quiet hloud hquiet
    rw [run_of_read hquiet]
    exact quieted_channels hloud
  · intro input json hcommand
    subst hcommand
    refine ⟨?_, code_runOrder_eq_zero_iff json, ?_⟩
    · intro formatVariable time other json' hother
      rw [run_of_read hother]
      exact runOrder_channels (groups_varied env formatVariable time input) json json'
    · intro config groups order hload hsort formatVariable time
      obtain ⟨config', hload'⟩ := load_varied hload formatVariable time
      refine ⟨config', _, hload', rfl, fun _ => Json.isText_text_iff, rfl, ?_⟩
      intro other json' hother
      rw [run_of_read hother]
      exact stdout_runOrder hload' hsort json'

theorem channels_separate_two_providers :
    let tree := FileTree.ofTexts
      [("main.f90", "use grid"), ("grid.f90", "module grid"), ("mesh.f90", "module grid")]
    let env := Environment.ofTree tree [] none "2024-05-01T00:00:00Z"
    let later := env.varied (some "Text") "2024-05-02T00:00:00Z"
    let args := ["order", "main.f90", "grid.f90", "mesh.f90"]
    let quiet := ["order", "main.f90", "--quiet", "grid.f90", "mesh.f90"]
    let json := ["order", "main.f90", "grid.f90", "mesh.f90", "--json"]
    (run readCommand env args).stderr =
        "warning: GRID is provided by both grid.f90 and mesh.f90, using mesh.f90\n" ++
          (run readCommand env quiet).stderr ∧
      (run readCommand later json).stderr = (run readCommand env args).stderr ∧
      (run readCommand later args).stdout = "grid.f90\nmesh.f90\nmain.f90\n" ∧
      ∃ document : Json, (run readCommand later json).stdout = document.text ++ "\n" ∧
        document.member? "order" = some (.strings ["grid.f90", "mesh.f90", "main.f90"]) := by
  intro tree env later args quiet json
  let input : Input := ⟨["main.f90", "grid.f90", "mesh.f90"], none, none, false⟩
  have hargs : readCommand args = .ok (.order input false) := by decide +kernel
  have hquiet : readCommand quiet = .ok (Command.order input false).quieted := by decide +kernel
  have hjson : readCommand json = .ok (.order input true) := by decide +kernel
  obtain ⟨-, hsuppressed, horder⟩ := channels_separate readCommand env args _ hargs
  obtain ⟨hsame, hsucceeds, hwritten⟩ := horder input false rfl
  obtain ⟨configured, groups, order, hload, hsort⟩ := hsucceeds.mp (by decide +kernel)
  have hfiles : order = ["grid.f90", "mesh.f90", "main.f90"] := by
    have hsorted : ((load env input).toOption.bind fun loaded => (sortGroups loaded.2).toOption) =
        some ["grid.f90", "mesh.f90", "main.f90"] := by decide +kernel
    rw [hload] at hsorted
    change (sortGroups groups).toOption = _ at hsorted
    rw [hsort] at hsorted
    exact Option.some.inj hsorted
  subst hfiles
  obtain ⟨config, document, hlater, -, -, hmember, hstdout⟩ :=
    hwritten configured groups _ hload hsort (some "Text") "2024-05-02T00:00:00Z"
  have hformat : config.format = .text := by
    have hloaded : ((load later input).map (·.1.format)).toOption = some .text := by decide +kernel
    rw [hlater] at hloaded
    exact Option.some.inj hloaded
  have hwarnings : warningLines (warningsOf env input) =
      "warning: GRID is provided by both grid.f90 and mesh.f90, using mesh.f90\n" := by
    decide +kernel
  refine ⟨?_, (hsame _ _ json true hjson).2, ?_, document, ?_, hmember⟩
  · rw [(hsuppressed quiet rfl hquiet).2.2, ← hwarnings]
    rfl
  · rw [hstdout args false hargs, hformat]
    rfl
  · rw [hstdout json true hjson, if_pos (.inl rfl)]

end Cli
end BuildOrder
