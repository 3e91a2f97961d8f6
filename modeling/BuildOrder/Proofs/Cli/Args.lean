import BuildOrder.Cli.Args
import BuildOrder.Proofs.Cli.Channels

/-! A flag among the arguments of a command changes the draft in the same way wherever it stands,
as long as it is neither taken for the value of an option nor behind two dashes alone. So it changes
one channel of the run. -/
namespace BuildOrder.Cli

/-- A change made before a step comes to the same as a change made after it. -/
def Passes {α β : Type} (before : α → Option α) (after : β → Option β)
    (step : α → Option β) : Prop :=
  ∀ a, (step a).bind after = (before a).bind step

/-- A change that does not depend on what else is read. -/
structure Independent (change : Draft → Option Draft) : Prop where
  addPath : ∀ path, Passes change change (·.addPath path)
  set : ∀ option value, Passes change change (·.set option value)
  setQuiet : Passes change change Draft.setQuiet
  setJson : Passes change change Draft.setJson

/-- The same change while an option may be pending. -/
def onPending (change : Draft → Option Draft) (pending : Pending) : Option Pending :=
  (change pending.1).map fun d => (d, pending.2)

section Passes

variable {α β γ : Type} {before : α → Option α} {between : β → Option β} {after : γ → Option γ}
  {change : Draft → Option Draft}

theorem passes_none : Passes before after fun _ => none := by
  intro a
  simp

theorem Passes.bind {first : α → Option β} {second : β → Option γ}
    (hfirst : Passes before between first) (hsecond : Passes between after second) :
    Passes before after fun a => (first a).bind second := by
  intro a
  calc ((first a).bind second).bind after
      = (first a).bind fun b => (between b).bind second := by
        rw [Option.bind_assoc]
        exact Option.bind_congr fun b _ => hsecond b
    _ = ((before a).bind first).bind second := by rw [← Option.bind_assoc, hfirst]
    _ = (before a).bind fun a => (first a).bind second := Option.bind_assoc ..

theorem Passes.ite {p : Prop} [Decidable p] {first second : α → Option γ}
    (hfirst : Passes before after first) (hsecond : Passes before after second) :
    Passes before after fun a => if p then first a else second a := by
  by_cases hp : p
  · simpa only [hp, if_true] using hfirst
  · simpa only [hp, if_false] using hsecond

/-- Two guarded steps that neither see nor undo each other can change places. -/
theorem passes_guarded {p q : α → Prop} [DecidablePred p] [DecidablePred q] {f g : α → α}
    (hp : ∀ a, p (g a) = p a) (hq : ∀ a, q (f a) = q a) (hfg : ∀ a, f (g a) = g (f a)) :
    let change a := if p a then none else some (f a)
    Passes change change fun a => if q a then none else some (g a) := by
  intro change a
  by_cases hpa : p a <;> by_cases hqa : q a <;> simp [change, hpa, hqa, hp, hq, hfg]

theorem passes_pending (option : Option ValueOption) :
    Passes change (onPending change) fun d => some (d, option) := by
  intro d
  rw [Option.bind_some, onPending, Option.map_eq_bind]
  rfl

theorem Passes.pending {step : Draft → Option Draft} (hstep : Passes change change step) :
    Passes change (onPending change) fun d => (step d).map fun d => (d, none) := by
  simp only [Option.map_eq_bind]
  exact hstep.bind (passes_pending none)

theorem passes_onPending {step : Pending → Option γ}
    (hstep : ∀ option, Passes change after fun d => step (d, option)) :
    Passes (onPending change) after step := by
  rintro ⟨d, option⟩
  rw [onPending, Option.bind_map]
  exact hstep option d

theorem passes_set
    (hdialect : ∀ dialect, Passes change change fun d =>
      if d.dialect.isSome then none else some { d with dialect := some dialect })
    (hconfig : ∀ value, Passes change change (·.set .config value)) (option : ValueOption)
    (value : String) : Passes change change (·.set option value) := by
  cases option with
  | dialect =>
    simp only [Draft.set]
    cases Draft.dialectOfName value with
    | none =>
      simp only [Option.bind_eq_bind, Option.bind_none, ite_self]
      exact passes_none
    | some dialect => exact hdialect dialect
  | config => exact hconfig value

end Passes

theorem independent_setQuiet : Independent Draft.setQuiet where
  addPath _ := passes_guarded (fun _ => rfl) (fun _ => rfl) fun _ => rfl
  set := passes_set (fun _ => passes_guarded (fun _ => rfl) (fun _ => rfl) fun _ => rfl)
    fun _ => passes_guarded (fun _ => rfl) (fun _ => rfl) fun _ => rfl
  setQuiet _ := rfl
  setJson := passes_guarded (fun _ => rfl) (fun _ => rfl) fun _ => rfl

theorem independent_setJson : Independent Draft.setJson where
  addPath _ := passes_guarded (fun _ => rfl) (fun _ => rfl) fun _ => rfl
  set := passes_set (fun _ => passes_guarded (fun _ => rfl) (fun _ => rfl) fun _ => rfl)
    fun _ => passes_guarded (fun _ => rfl) (fun _ => rfl) fun _ => rfl
  setQuiet d := (independent_setQuiet.setJson d).symm
  setJson _ := rfl

/-- The rest of the arguments, the value of a pending option first. -/
def readRest (acceptsJson : Bool) : Pending → List String → Option Draft
  | (d, none), rest => readArguments acceptsJson d rest
  | (d, some option), value :: rest =>
    if isOption value then none
    else (d.set option value).bind fun d => readArguments acceptsJson d rest
  | (_, some _), [] => none

theorem readArguments_cons {acceptsJson : Bool} {d : Draft} {argument : String}
    {rest : List String} (h : argument ≠ "--") : readArguments acceptsJson d (argument :: rest) =
      (readArgument acceptsJson d argument).bind fun pending =>
        readRest acceptsJson pending rest := by
  rw [readArguments.eq_def]
  cases hread : readArgument acceptsJson d argument with
  | none => simp [hread]
  | some pending =>
    obtain ⟨d, option⟩ := pending
    cases option with
    | none => simp [readRest, hread]
    | some option =>
      cases rest with
      | nil => simp [readRest, hread]
      | cons value rest => cases hset : d.set option value <;> simp [readRest, hread, hset]

section Reading

variable {acceptsJson : Bool} {change : Draft → Option Draft} (h : Independent change)
include h

theorem Independent.attached (option : ValueOption) (text : List Char) :
    Passes change (onPending change) fun d => attached d option text := by
  have hset (value : List Char) := (h.set option (String.ofList value)).pending
  cases text with
  | nil => exact passes_pending (some option)
  | cons c rest =>
    by_cases hc : c = '='
    · subst hc
      exact hset rest
    · have hattached (d : Draft) : Cli.attached d option (c :: rest) =
          (d.set option (String.ofList (c :: rest))).map fun d => (d, none) := by
        simp [Cli.attached, hc]
      simp only [hattached]
      exact hset (c :: rest)

theorem Independent.readLetters (letters : List Char) :
    Passes change (onPending change) fun d => readLetters d letters := by
  induction letters with
  | nil => exact passes_pending none
  | cons c rest ih =>
    by_cases hq : c = 'q'
    · subst hq
      exact h.setQuiet.bind ih
    by_cases hd : c = 'd'
    · subst hd
      exact h.attached .dialect rest
    by_cases hc : c = 'c'
    · subst hc
      exact h.attached .config rest
    · have hnone (d : Draft) : Cli.readLetters d (c :: rest) = none := by
        simp [Cli.readLetters, hq, hd, hc]
      simp only [hnone]
      exact passes_none

theorem Independent.readName (text : List Char) :
    Passes change (onPending change) fun d => readName acceptsJson d text := by
  unfold Cli.readName
  generalize String.ofList (text.takeWhile (· ≠ '=')) = name
  generalize text.dropWhile (· ≠ '=') = value
  by_cases hdialect : name = "dialect"
  · subst hdialect
    exact h.attached .dialect value
  by_cases hconfig : name = "config"
  · subst hconfig
    exact h.attached .config value
  by_cases hquiet : name = "quiet"
  · subst hquiet
    exact h.setQuiet.pending.ite passes_none
  by_cases hjson : name = "json"
  · subst hjson
    exact h.setJson.pending.ite passes_none
  · simp only
    exact passes_none

theorem Independent.readArgument (argument : String) :
    Passes change (onPending change) fun d => readArgument acceptsJson d argument := by
  unfold Cli.readArgument
  split
  · exact h.readName _
  · exact h.readLetters _
  · exact (h.addPath argument).pending

theorem Independent.addPaths (paths : List String) :
    Passes change change fun d => paths.foldlM Draft.addPath d := by
  induction paths with
  | nil =>
    intro d
    simp
  | cons path paths ih =>
    simp only [List.foldlM_cons]
    exact (h.addPath path).bind ih

theorem Independent.readRest (args : List String) :
    Passes (onPending change) change fun pending => readRest acceptsJson pending args := by
  -- A pending option makes the step from one argument to the next uniform: arguments are read one
  -- by one, although an option may use up two.
  induction args with
  | nil =>
    refine passes_onPending fun option => ?_
    cases option with
    | none =>
      intro d
      simp [Cli.readRest, readArguments]
    | some option => exact passes_none
  | cons argument rest ih =>
    refine passes_onPending fun option => ?_
    cases option with
    | none =>
      by_cases hend : argument = "--"
      · subst hend
        exact h.addPaths rest
      · simp only [Cli.readRest, readArguments_cons hend]
        exact (h.readArgument argument).bind ih
    | some option =>
      exact passes_none.ite ((h.set option argument).bind ((passes_pending none).bind ih))

theorem Independent.readArguments (args : List String) :
    Passes change change fun d => readArguments acceptsJson d args :=
  (passes_pending none).bind (h.readRest args)

end Reading

/-- An argument without a value that makes a change. -/
structure IsFlag (acceptsJson : Bool) (change : Draft → Option Draft) (argument : String) :
    Prop where
  independent : Independent change
  isOption : isOption argument
  ne_end : argument ≠ "--"
  read : ∀ d, readArgument acceptsJson d argument = (change d).map fun d => (d, none)
  parse : ∀ rest, Request.parse (argument :: rest) = none

theorem isFlag_quiet (acceptsJson : Bool) : IsFlag acceptsJson Draft.setQuiet "--quiet" :=
  ⟨independent_setQuiet, by decide, by decide, fun _ => rfl, fun _ => rfl⟩

theorem isFlag_json : IsFlag true Draft.setJson "--json" :=
  ⟨independent_setJson, by decide, by decide, fun _ => rfl, fun _ => rfl⟩

section Flag

variable {acceptsJson : Bool} {change : Draft → Option Draft} {flag : String}
  (h : IsFlag acceptsJson change flag)
include h

theorem IsFlag.readArguments_cons (d : Draft) (rest : List String) :
    readArguments acceptsJson d (flag :: rest) =
      (readArguments acceptsJson d rest).bind change := by
  rw [Cli.readArguments_cons h.ne_end, h.read, h.independent.readArguments, Option.bind_map]
  rfl

/-- Where a flag is accepted, its change can as well be made after everything else. -/
theorem IsFlag.readRest_insert {before after : List String} (hend : "--" ∉ before)
    {pending : Pending} (hread : readRest acceptsJson pending (before ++ flag :: after) ≠ none) :
    readRest acceptsJson pending (before ++ flag :: after) =
      (readRest acceptsJson pending (before ++ after)).bind change := by
  induction before generalizing pending with
  | nil =>
    obtain ⟨d, option⟩ := pending
    cases option with
    | none => exact h.readArguments_cons d after
    | some option =>
      -- An option that waits for its value does not take the flag for one.
      simp [readRest, h.isOption] at hread
  | cons argument before ih =>
    rw [List.mem_cons, not_or] at hend
    obtain ⟨hargument, hend⟩ := hend
    obtain ⟨d, option⟩ := pending
    simp only [List.cons_append] at hread ⊢
    cases option with
    | none =>
      simp only [readRest, Cli.readArguments_cons (Ne.symm hargument)] at hread ⊢
      cases hpending : readArgument acceptsJson d argument with
      | none => simp
      | some pending =>
        rw [hpending] at hread
        exact ih hend hread
    | some option =>
      by_cases hvalue : Cli.isOption argument
      · simp [readRest, hvalue]
      · cases hset : d.set option argument with
        | none => simp [readRest, hset]
        | some given =>
          have hrest (args : List String) : readRest acceptsJson (d, some option)
              (argument :: args) = readRest acceptsJson (given, none) args := by
            simp [readRest, hvalue, hset]
          rw [hrest] at hread
          rw [hrest, hrest, ih hend hread]

theorem IsFlag.readArguments_insert {before after : List String} (hend : "--" ∉ before)
    {d : Draft} (hread : readArguments acceptsJson d (before ++ flag :: after) ≠ none) :
    readArguments acceptsJson d (before ++ flag :: after) =
      (readArguments acceptsJson d (before ++ after)).bind change :=
  @IsFlag.readRest_insert _ _ _ h _ _ hend (d, none) hread

end Flag

section Parse

/-- The name of the command that accepts the option for JSON, or of the other one. -/
def commandName (acceptsJson : Bool) : String :=
  if acceptsJson then "order" else "graph"

def Command.ofDraft (acceptsJson : Bool) (d : Draft) : Option Command :=
  d.input.map fun input => if acceptsJson then .order input d.json else .graph input

theorem parse_commandName (acceptsJson : Bool) (rest : List String) :
    Request.parse (commandName acceptsJson :: rest) =
      (readArguments acceptsJson {} rest).bind fun d =>
        (Command.ofDraft acceptsJson d).map .run := by
  have hrun (acceptsJson : Bool) (command : Input → Draft → Command) :
      (do
        let d ← readArguments acceptsJson {} rest
        return Request.run (command (← d.input) d)) =
      (readArguments acceptsJson {} rest).bind fun d =>
        (d.input.map fun input => command input d).map .run := by
    refine Option.bind_congr fun d _ => ?_
    cases d.input <;> rfl
  cases acceptsJson with
  | true => exact hrun true fun input d => .order input d.json
  | false => exact hrun false fun input _ => .graph input

/-- A command is run for its name, with what the rest of the arguments are read to. -/
theorem exists_of_parse {args : List String} {command : Command}
    (h : Request.parse args = some (.run command)) :
    ∃ acceptsJson rest d, args = commandName acceptsJson :: rest ∧
      readArguments acceptsJson {} rest = some d ∧
        Command.ofDraft acceptsJson d = some command := by
  have hname : ∃ acceptsJson rest, args = commandName acceptsJson :: rest := by
    unfold Request.parse at h
    split at h
    · exact ⟨true, _, rfl⟩
    · exact ⟨false, _, rfl⟩
    · cases h
    · split at h <;> cases h
    · cases h
  obtain ⟨acceptsJson, rest, rfl⟩ := hname
  rw [parse_commandName, Option.bind_eq_some_iff] at h
  obtain ⟨d, hread, hcommand⟩ := h
  obtain ⟨command, hcommand, heq⟩ := Option.map_eq_some_iff.mp hcommand
  cases heq
  exact ⟨acceptsJson, rest, d, rfl, hread, hcommand⟩

/-- The arguments `longer` are well formed and have an option more than `args`, before any two
dashes alone. -/
def WithOption (option : String) (args longer : List String) : Prop :=
  Request.parse longer ≠ none ∧ ∃ before after, args = before ++ after ∧
    longer = before ++ option :: after ∧ "--" ∉ before

variable {acceptsJson : Bool} {change : Draft → Option Draft} {flag : String}
  {rest longer : List String} {d : Draft}

theorem IsFlag.parse_of_withOption (h : IsFlag acceptsJson change flag)
    (hread : readArguments acceptsJson {} rest = some d)
    (hlonger : WithOption flag (commandName acceptsJson :: rest) longer) :
    Request.parse longer = (change d).bind fun d => (Command.ofDraft acceptsJson d).map .run := by
  obtain ⟨hparse, before, after, hargs, rfl, hend⟩ := hlonger
  cases before with
  | nil => exact absurd (h.parse after) hparse
  | cons name before =>
    obtain ⟨rfl, rfl⟩ := List.cons.inj hargs
    change readArguments acceptsJson {} (before ++ after) = some d at hread
    rw [List.cons_append, parse_commandName] at hparse ⊢
    have hread' : readArguments acceptsJson {} (before ++ flag :: after) ≠ none := by
      intro hnone
      exact hparse (by rw [hnone, Option.bind_none])
    rw [h.readArguments_insert (fun hmem => hend (List.mem_cons_of_mem _ hmem)) hread', hread,
      Option.bind_some]

theorem IsFlag.withOption (h : IsFlag acceptsJson change flag)
    (hread : readArguments acceptsJson {} rest = some d)
    (hd : ((change d).bind (Command.ofDraft acceptsJson)).isSome) :
    WithOption flag (commandName acceptsJson :: rest) (commandName acceptsJson :: flag :: rest) := by
  refine ⟨?_, [commandName acceptsJson], rest, rfl, rfl, ?_⟩
  · rw [parse_commandName, h.readArguments_cons, hread, Option.bind_some]
    cases hchange : change d with
    | none => simp [hchange] at hd
    | some changed =>
      rw [hchange, Option.bind_some] at hd
      obtain ⟨command, hcommand⟩ := Option.isSome_iff_exists.mp hd
      simp [hcommand]
  · cases acceptsJson <;> decide

theorem ofDraft_eq_some {command : Command} (h : Command.ofDraft acceptsJson d = some command) :
    command.input.quiet = d.quiet ∧
      Command.ofDraft acceptsJson { d with quiet := true } = some command.quieted := by
  obtain ⟨input, hinput, rfl⟩ := Option.map_eq_some_iff.mp h
  by_cases hpaths : d.paths = []
  · simp [Draft.input, hpaths] at hinput
  · rw [Draft.input, if_neg hpaths] at hinput
    cases hinput
    cases acceptsJson <;> simp [Command.ofDraft, Draft.input, hpaths, Command.input,
      Command.quieted]

theorem parse_of_withQuiet {args : List String} {command : Command}
    (h : Request.parse args = some (.run command)) (hlonger : WithOption "--quiet" args longer) :
    command.input.quiet = false ∧ Request.parse longer = some (.run command.quieted) := by
  obtain ⟨acceptsJson, rest, d, rfl, hread, hcommand⟩ := exists_of_parse h
  obtain ⟨hinput, hquieted⟩ := ofDraft_eq_some hcommand
  have hparse := (isFlag_quiet acceptsJson).parse_of_withOption hread hlonger
  cases hquiet : d.quiet with
  | true => exact absurd (by simpa [Draft.setQuiet, hquiet] using hparse) hlonger.1
  | false =>
    rw [hparse, hinput]
    simp [Draft.setQuiet, hquiet, hquieted]

theorem exists_withQuiet {args : List String} {command : Command}
    (h : Request.parse args = some (.run command)) (hquiet : command.input.quiet = false) :
    ∃ longer, WithOption "--quiet" args longer := by
  obtain ⟨acceptsJson, rest, d, rfl, hread, hcommand⟩ := exists_of_parse h
  obtain ⟨hinput, hquieted⟩ := ofDraft_eq_some hcommand
  refine ⟨_, (isFlag_quiet acceptsJson).withOption hread ?_⟩
  simp [Draft.setQuiet, ← hinput, hquiet, hquieted]

/-- Only the command that accepts the option for JSON is read to an order. -/
theorem ofDraft_eq_order {input : Input} {json : Bool}
    (h : Command.ofDraft acceptsJson d = some (.order input json)) :
    acceptsJson = true ∧ json = d.json ∧
      Command.ofDraft true { d with json := true } = some (.order input true) := by
  obtain ⟨input, hinput, hcommand⟩ := Option.map_eq_some_iff.mp h
  cases acceptsJson with
  | false => cases hcommand
  | true =>
    cases hcommand
    refine ⟨rfl, rfl, ?_⟩
    rw [Command.ofDraft, show Draft.input { d with json := true } = d.input from rfl, hinput]
    rfl

theorem parse_of_withJson {args : List String} {input : Input} {json : Bool}
    (h : Request.parse args = some (.run (.order input json)))
    (hlonger : WithOption "--json" args longer) :
    json = false ∧ Request.parse longer = some (.run (.order input true)) := by
  obtain ⟨acceptsJson, rest, d, rfl, hread, hcommand⟩ := exists_of_parse h
  obtain ⟨rfl, rfl, hjsonCommand⟩ := ofDraft_eq_order hcommand
  have hparse := isFlag_json.parse_of_withOption hread hlonger
  cases hjson : d.json with
  | true => exact absurd (by simpa [Draft.setJson, hjson] using hparse) hlonger.1
  | false =>
    rw [hparse]
    simp [Draft.setJson, hjson, hjsonCommand]

theorem exists_withJson {args : List String} {input : Input}
    (h : Request.parse args = some (.run (.order input false))) :
    ∃ longer, WithOption "--json" args longer := by
  obtain ⟨acceptsJson, rest, d, rfl, hread, hcommand⟩ := exists_of_parse h
  obtain ⟨rfl, hjson, hjsonCommand⟩ := ofDraft_eq_order hcommand
  refine ⟨_, isFlag_json.withOption hread ?_⟩
  simp [Draft.setJson, ← hjson, hjsonCommand]

theorem readCommand_eq_ok_iff {args : List String} {command : Command} :
    readCommand args = .ok command ↔ Request.parse args = some (.run command) := by
  rw [readCommand]
  cases Request.parse args with
  | none => simp
  | some request => cases request <;> simp

end Parse

section Run

variable {args longer : List String}

/-- A run that is asked for no warnings lacks their lines and nothing else. -/
theorem run_of_withQuiet (env : Environment) {command : Command}
    (h : readCommand args = .ok command) (hlonger : WithOption "--quiet" args longer) :
    (run readCommand env longer).code = (run readCommand env args).code ∧
      (run readCommand env longer).stdout = (run readCommand env args).stdout ∧
      (run readCommand env args).stderr =
        warningLines (warningsOf env command.input) ++ (run readCommand env longer).stderr := by
  obtain ⟨hquiet, hparse⟩ := parse_of_withQuiet (readCommand_eq_ok_iff.mp h) hlonger
  rw [run_of_read h, run_of_read (readCommand_eq_ok_iff.mpr hparse)]
  exact quieted_channels hquiet

/-- A run that is asked for JSON succeeds or fails as before, with the same errors. -/
theorem run_of_withJson (env : Environment) {input : Input} {json : Bool}
    (h : readCommand args = .ok (.order input json)) (hlonger : WithOption "--json" args longer) :
    (run readCommand env longer).code = (run readCommand env args).code ∧
      (run readCommand env longer).stderr = (run readCommand env args).stderr := by
  obtain ⟨-, hparse⟩ := parse_of_withJson (readCommand_eq_ok_iff.mp h) hlonger
  rw [run_of_read h, run_of_read (readCommand_eq_ok_iff.mpr hparse)]
  exact runOrder_channels rfl json true

end Run

end BuildOrder.Cli
