/-
  Chip8.Proofs.Ending

  How the program behind the command line ends. The dialect and the policy are settings with
  three sources: an option, a variable of the environment and a default (`Setting.value?`). The
  program checks the dialect, the policy and the flag for a run without a window, in this order,
  and then the run itself may fail; the first that is wrong decides the error, and nothing is
  shown then. Otherwise the screen of the machine is shown, and a line about it with three
  values (`CommandLine.FinalValues`, `CommandLine.run_ending`).
-/
import Chip8.CommandLine.Program
import Chip8.Proofs.Names
import Chip8.Proofs.Numerals
import Chip8.Proofs.ScreenText
import Chip8.Proofs.Schedule

namespace Chip8.CommandLine

open RandomStream (Generator)

/-! ## Settings -/

/-- A setting that is chosen by name: by an option, or by a variable of the environment. -/
structure Setting (α : Type) where
  optionName : String
  variableName : String
  names : List (String × α)
  default : α

namespace Setting

/-- The dialect. -/
def dialect : Setting Dialect where
  optionName := "quirks"
  variableName := "CHIP8_QUIRKS"
  names := Dialect.names
  default := .classic

/-- The policy for unknown words. -/
def policy : Setting UnknownWordPolicy where
  optionName := "unknown-opcode"
  variableName := "CHIP8_UNKNOWN_OPCODE"
  names := UnknownWordPolicy.names
  default := .halt

variable {α : Type}

/-- Whether `option` is what the options of a command line say about a setting: nothing, or the
    value of exactly the name that they give. -/
def IsGiven (setting : Setting α) (given : List Given) (option : Option α) : Prop :=
  match (given.lookup setting.optionName).join with
  | none => option = none
  | some name => ∃ value, setting.names.lookup name = some value ∧ option = some value

/-- The value of a setting, if there is one. The option goes before the variable; a variable that
    is not set, or is no text, leaves the default; and a variable with any other name than those
    of the setting leaves no value. -/
def value? (setting : Setting α) (option : Option α) (environment : Environment) : Option α :=
  match option with
  | some value => some value
  | none =>
    match (environment setting.variableName).bind String.fromUTF8? with
    | none => some setting.default
    | some text => setting.names.lookup (Text.normalize text)

end Setting

/-- The value that is read for an option is the one that its name stands for. -/
theorem isGiven_of_value? {α : Type} {setting : Setting α} {read : String → Option α}
    (hread : ∀ name, read name = setting.names.lookup name) {given : List Given}
    {option : Option α} (h : CommandLine.value? given setting.optionName read = some option) :
    setting.IsGiven given option := by
  unfold CommandLine.value? at h
  unfold Setting.IsGiven
  cases hname : (given.lookup setting.optionName).join with
  | none =>
      rw [hname] at h
      exact (Option.some.inj h).symm
  | some name =>
      rw [hname] at h
      obtain ⟨value, hvalue, rfl⟩ := Option.map_eq_some_iff.mp h
      exact ⟨value, (hread name).symm.trans hvalue, rfl⟩

theorem dialect?_eq (name : String) : dialect? name = Setting.dialect.names.lookup name := by
  unfold dialect?
  split
  · rfl
  · rfl
  · next hclassic hmodern => exact (Text.lookup_eq_none_of_ne name hclassic hmodern).symm

theorem policy?_eq (name : String) : policy? name = Setting.policy.names.lookup name := by
  unfold policy?
  split
  · rfl
  · rfl
  · next hhalt hskip => exact (Text.lookup_eq_none_of_ne name hhalt hskip).symm

/-- Well-formed arguments contain options, and give the two settings by them. -/
theorem exists_given_of_ofArguments? {arguments : List String} {options : Options}
    (h : Options.ofArguments? arguments = some options) :
    ∃ given, options? arguments = some given ∧
      Setting.dialect.IsGiven given options.dialect ∧
      Setting.policy.IsGiven given options.unknownWords := by
  obtain ⟨given, hgiven, h⟩ := Option.bind_eq_some_iff.mp h
  obtain ⟨-, -, h⟩ := Option.bind_eq_some_iff.mp h
  obtain ⟨_, -, h⟩ := Option.bind_eq_some_iff.mp h
  obtain ⟨path, -, h⟩ := Option.bind_eq_some_iff.mp h
  obtain ⟨dialect, hdialect, h⟩ := Option.bind_eq_some_iff.mp h
  obtain ⟨policy, hpolicy, h⟩ := Option.bind_eq_some_iff.mp h
  -- the numbers
  obtain ⟨scale, -, h⟩ := Option.bind_eq_some_iff.mp h
  obtain ⟨speed, -, h⟩ := Option.bind_eq_some_iff.mp h
  obtain ⟨framesPerSecond, -, h⟩ := Option.bind_eq_some_iff.mp h
  obtain ⟨limit, -, h⟩ := Option.bind_eq_some_iff.mp h
  obtain ⟨seed, -, h⟩ := Option.bind_eq_some_iff.mp h
  cases h
  exact ⟨given, hgiven, isGiven_of_value? dialect?_eq hdialect,
    isGiven_of_value? policy?_eq hpolicy⟩

/-- Without the option, the value of a setting is what the name in the variable says, where the
    name of the default stands for no name. -/
theorem Setting.lookup_text {α : Type} {setting : Setting α} {name : String}
    (hdefault : setting.names.lookup (Text.normalize name) = some setting.default)
    (environment : Environment) :
    setting.names.lookup (Text.normalize (environment.text setting.variableName name)) =
      setting.value? none environment := by
  unfold value? Environment.text
  cases (environment setting.variableName).bind String.fromUTF8? with
  | none => exact hdefault
  | some text => rfl

theorem toOption_chooseDialect (options : Options) (environment : Environment) :
    (chooseDialect options environment).toOption =
      Setting.dialect.value? options.dialect environment := by
  unfold chooseDialect
  cases options.dialect with
  | some dialect => rfl
  | none =>
      -- the name in the variable is normalized twice
      have hlookup : ((Dialect.ofEnvironment environment).map Prod.snd).toOption =
          Dialect.names.lookup
            (Text.normalize (environment.text Dialect.variableName "original")) := by
        rw [← Text.normalize_normalize, ← Dialect.toOption_ofName, Dialect.ofEnvironment]
        cases Dialect.ofName _ with
        | error name => rfl
        | ok dialect => rfl
      exact hlookup.trans (Setting.dialect.lookup_text (by decide) environment)

theorem toOption_choosePolicy (options : Options) (environment : Environment) :
    (choosePolicy options environment).toOption =
      Setting.policy.value? options.unknownWords environment := by
  unfold choosePolicy
  cases options.unknownWords with
  | some policy => rfl
  | none =>
      have hlookup : (UnknownWordPolicy.ofEnvironment environment).toOption =
          UnknownWordPolicy.names.lookup
            (Text.normalize (environment.text UnknownWordPolicy.variableName "halt")) :=
        UnknownWordPolicy.toOption_ofName _
      exact hlookup.trans (Setting.policy.lookup_text (by decide) environment)

section

variable {options : Options} {environment environment' : Environment}

/-- A variable plays no part if the option is given. -/
theorem chooseDialect_congr
    (h : options.dialect = none →
      environment' Setting.dialect.variableName = environment Setting.dialect.variableName) :
    chooseDialect options environment' = chooseDialect options environment := by
  unfold chooseDialect
  cases hoption : options.dialect with
  | some dialect => rfl
  | none =>
      have hsame : environment' Dialect.variableName = environment Dialect.variableName := h hoption
      simp only [Dialect.ofEnvironment, Environment.text, hsame]

theorem choosePolicy_congr
    (h : options.unknownWords = none →
      environment' Setting.policy.variableName = environment Setting.policy.variableName) :
    choosePolicy options environment' = choosePolicy options environment := by
  unfold choosePolicy
  cases hoption : options.unknownWords with
  | some policy => rfl
  | none =>
      have hsame : environment' UnknownWordPolicy.variableName =
          environment UnknownWordPolicy.variableName := h hoption
      simp only [UnknownWordPolicy.ofEnvironment, Environment.text, hsame]

end

/-! ## Endings -/

/-- The line after the screen, with its three values. -/
def finalLine (cycles pc awaiting : String) : String :=
  "headless finished: cycles=" ++ cycles ++ " pc=0x" ++ pc ++ " awaiting_key=" ++ awaiting

/-- Whether three texts are the values in the line about a machine: the counter in decimal
    digits, the program counter in hexadecimal ones, at least three of them, and whether the
    machine waits for a key. -/
structure FinalValues (m : Machine) (cycles pc awaiting : String) : Prop where
  cycles : cycles = toString m.counter.toNat
  pc : Text.IsHexNumeral 3 m.registers.pc.toNat pc
  awaiting_of_running : m.mode = .running → awaiting = "false"
  awaiting_of_wait : ∀ register pressed, m.mode = .awaitingKey register pressed →
    awaiting = "true"

theorem exists_finalValues (m : Machine) :
    ∃ cycles pc awaiting, FinalValues m cycles pc awaiting ∧
      summary m = finalLine cycles pc awaiting ++ "\n" := by
  refine ⟨_, _, _, ⟨rfl, Text.isHexNumeral_hex .., ?_, ?_⟩, rfl⟩
  · intro hmode
    rw [Machine.isAwaitingKey, hmode]
    rfl
  · intro register pressed hmode
    rw [Machine.isAwaitingKey, hmode]
    rfl

namespace Ending

/-- Whether a program ends with an error: exit code one, and nothing on standard output. -/
structure Fails (ending : Ending) (error : Error) : Prop where
  exitCode : ending.exitCode = 1
  standardOutput : ending.standardOutput = ""
  error : ending.error? = some error

/-- Whether a program succeeds and shows a machine: exit code zero, and on standard output the
    lines of its screen and one line about it. -/
structure Shows (ending : Ending) (m : Machine) : Prop where
  exitCode : ending.exitCode = 0
  standardOutput : ∃ cycles pc awaiting, FinalValues m cycles pc awaiting ∧
    ending.standardOutput =
      String.join ((m.screen.lines ++ [finalLine cycles pc awaiting]).map (· ++ "\n"))
  error : ending.error? = none

theorem failure_fails (error : Error) (log : List Record) : (failure error log).Fails error :=
  ⟨rfl, rfl, rfl⟩

end Ending

theorem exists_shown_eq (m : Machine) :
    ∃ cycles pc awaiting, FinalValues m cycles pc awaiting ∧
      m.screen.text ++ summary m =
        String.join ((m.screen.lines ++ [finalLine cycles pc awaiting]).map (· ++ "\n")) := by
  obtain ⟨cycles, pc, awaiting, hvalues, hsummary⟩ := exists_finalValues m
  refine ⟨cycles, pc, awaiting, hvalues, ?_⟩
  rw [m.screen.text_eq_join_lines, hsummary, List.map_append, String.join_append]
  rfl

/-- A run without a window ends with the error of the run, or shows its machine. -/
theorem runHeadless_ending (files : FileSystem) (entropy : Generator) (options : Options)
    (dialect : Dialect) (unknownWords : UnknownWordPolicy) :
    let config := ⟨dialect, unknownWords, options.speed, options.seed⟩
    let outcome := Headless.run files entropy config options.path options.limit
    let ending := runHeadless files entropy options dialect unknownWords
    match outcome.result with
    | .error error => ending.Fails error
    | .ok _ => ending.Shows outcome.machine := by
  intro config outcome ending
  have hrun : Headless.run files entropy config options.path options.limit = outcome := rfl
  have hending : runHeadless files entropy options dialect unknownWords = ending := rfl
  rw [runHeadless, hrun] at hending
  clear_value outcome ending
  subst hending
  obtain ⟨result, m, log⟩ := outcome
  cases result with
  | error error => exact Ending.failure_fails error log
  | ok done => exact ⟨rfl, exists_shown_eq m, rfl⟩

/-- How the program ends with arguments that are well formed. `Setting.IsGiven` says what their
    options for the dialect and the policy are. The first of these that is wrong decides the
    error: the dialect, the policy, the flag for a run without a window, the run. If none is, the
    machine of the run is shown. A variable whose option is given has no influence on the
    ending. -/
theorem run_ending (files : FileSystem) (environment : Environment) (entropy : Generator)
    {arguments : List String} {options : Options}
    (h : Options.ofArguments? arguments = some options) :
    let ending := run files environment entropy arguments
    (∃ given, options? arguments = some given ∧
      Setting.dialect.IsGiven given options.dialect ∧
      Setting.policy.IsGiven given options.unknownWords) ∧
    (match Setting.dialect.value? options.dialect environment,
        Setting.policy.value? options.unknownWords environment with
      | none, _ => ending.Fails (.invalidArgument "quirks must be original or modern")
      | some _, none => ending.Fails (.invalidArgument "unknown-opcode must be halt or skip")
      | some dialect, some unknownWords =>
        if options.headless then
          let config := ⟨dialect, unknownWords, options.speed, options.seed⟩
          let outcome := Headless.run files entropy config options.path options.limit
          match outcome.result with
          | .error error => ending.Fails error
          | .ok _ => ending.Shows outcome.machine
        else
          ending.Fails (.invalidArgument "built without the `window` feature; pass --headless")) ∧
    ∀ environment' : Environment,
      (options.dialect = none →
        environment' Setting.dialect.variableName = environment Setting.dialect.variableName) →
      (options.unknownWords = none →
        environment' Setting.policy.variableName = environment Setting.policy.variableName) →
      run files environment' entropy arguments = ending := by
  intro ending
  have hperform : ending = perform files environment entropy options := by
    show run files environment entropy arguments = _
    rw [run, h]
  refine ⟨exists_given_of_ofArguments? h, ?_, ?_⟩
  · rw [← toOption_chooseDialect, ← toOption_choosePolicy, hperform, perform]
    cases chooseDialect options environment with
    | error name => exact Ending.failure_fails ..
    | ok dialect =>
        cases choosePolicy options environment with
        | error name => exact Ending.failure_fails ..
        | ok unknownWords =>
            show if options.headless then _ else _
            split
            · exact runHeadless_ending ..
            · exact Ending.failure_fails ..
  · intro environment' hdialect hpolicy
    rw [hperform, run, h]
    show perform files environment' entropy options = _
    rw [perform, chooseDialect_congr hdialect, choosePolicy_congr hpolicy, perform]

/-! ## A program that ends waiting for a key -/

/-- A program that jumps to its last word, which waits for a key for V3. -/
def jumpsAndWaits : List UInt8 :=
  [0x12, 0x0A, 0x00, 0x00, 0x00, 0x00, 0x00, 0x00, 0x00, 0x00, 0xF3, 0x0A]

/-- Files that all hold that program. -/
def waitFiles : FileSystem := fun _ => .ok jumpsAndWaits

/-- Arguments that name the dialect but not the policy. -/
def threeCycles : List String :=
  ["--rom", "wait.ch8", "--quirks", "modern", "--headless", "--max-cycles=3"]

/-- Those arguments as options. -/
def threeCyclesOptions : Options where
  path := "wait.ch8"
  dialect := some .modern
  unknownWords := none
  scale := 16
  speed := 700
  framesPerSecond := 60
  limit := 3
  seed := none
  headless := true

/-- An environment with a name that does not exist for the dialect. -/
def careless : Environment :=
  fun name =>
    if name = "CHIP8_QUIRKS" then some "nonsense".toUTF8
    else if name = "CHIP8_UNKNOWN_OPCODE" then some " SKIP\n".toUTF8
    else none

/-- What the options and that environment come to. -/
def threeCyclesConfig : Headless.Config := ⟨.modern, .skip, 700, none⟩

/-- The machine of that program after one cycle. -/
def jumped : Machine :=
  { Headless.ready threeCyclesConfig "wait.ch8" jumpsAndWaits (.ofSeed 0) with
    registers := { Registers.initial with pc := 0x20A }
    lastWord := 0x120A
    counter := 1 }

/-- The machine of that program after two cycles. -/
def stalled : Machine :=
  { jumped with mode := .awaitingKey 3 none, lastWord := 0xF30A, counter := 2 }

theorem run_jumpsAndWaits :
    (Headless.run waitFiles (.ofSeed 0) threeCyclesConfig "wait.ch8" 3).result = .ok () ∧
      (Headless.run waitFiles (.ofSeed 0) threeCyclesConfig "wait.ch8" 3).machine = stalled := by
  let start := Headless.ready threeCyclesConfig "wait.ch8" jumpsAndWaits (.ofSeed 0)
  have hprepare : Headless.prepare waitFiles (.ofSeed 0) threeCyclesConfig "wait.ch8" =
      ⟨.ok (), start, [.programLoaded 12, .programReady "wait.ch8"]⟩ :=
    Headless.prepare_of_accepted _ (by decide) rfl (by decide)
  have hjump : start.fetch = .ok 0x120A :=
    Machine.fetch_program 0 rfl rfl (by decide) (by decide) (by decide)
  have hwait : jumped.fetch = .ok 0xF30A :=
    Machine.fetch_program 10 rfl rfl (by decide) (by decide) (by decide)
  have hfirst : start.call .cycle = ⟨.ok (), jumped, [start.startRecord 0x120A]⟩ :=
    (Machine.call_of_no_obstacle rfl hjump rfl rfl).1
  have hsecond : jumped.call .cycle = ⟨.ok (), stalled, [jumped.startRecord 0xF30A]⟩ :=
    (Machine.call_of_no_obstacle rfl hwait rfl rfl).1
  have hsteps : HostCall.ofSteps threeCyclesConfig.period 0 3 = [.cycle, .cycle, .cycle] := rfl
  have haccepted : Headless.refusal? waitFiles threeCyclesConfig "wait.ch8" 3 = none := by
    decide
  obtain ⟨hresult, hmachine, -⟩ := Headless.run_of_accepted (.ofSeed 0) haccepted
  rw [hprepare, hsteps, Machine.callAll_cons_of_ok _ (congrArg Outcome.result hfirst), hfirst,
    Machine.callAll_cons_of_ok _ (congrArg Outcome.result hsecond), hsecond]
    at hresult hmachine
  exact ⟨hresult, hmachine⟩

/-- The third cycle finds the machine waiting and is not counted. The option hides the variable
    with the name that does not exist; without the option that variable is the first thing that
    is wrong, before the missing flag. -/
theorem run_ending_threeCycles :
    let onlyRom := { threeCyclesOptions with dialect := none, limit := 2000, headless := false }
    (Options.ofArguments? threeCycles = some threeCyclesOptions ∧
      Options.ofArguments? ["--rom", "wait.ch8"] = some onlyRom) ∧
    (run waitFiles careless (.ofSeed 0) threeCycles).Shows stalled ∧
    (run waitFiles careless (.ofSeed 0) threeCycles).standardOutput =
      String.join ((stalled.screen.lines ++
        ["headless finished: cycles=2 pc=0x20a awaiting_key=true"]).map (· ++ "\n")) ∧
    (run waitFiles careless (.ofSeed 0) ["--rom", "wait.ch8"]).Fails
      (.invalidArgument "quirks must be original or modern") := by
  intro onlyRom
  have hthree : Options.ofArguments? threeCycles = some threeCyclesOptions := by decide +kernel
  have honlyRom : Options.ofArguments? ["--rom", "wait.ch8"] = some onlyRom := by decide +kernel
  have hdialect : Setting.dialect.value? threeCyclesOptions.dialect careless = some .modern := rfl
  have hpolicy : Setting.policy.value? threeCyclesOptions.unknownWords careless = some .skip := by
    decide
  have hnone : Setting.dialect.value? onlyRom.dialect careless = none := by decide
  have hconfig : (⟨.modern, .skip, threeCyclesOptions.speed, threeCyclesOptions.seed⟩ :
      Headless.Config) = threeCyclesConfig := rfl
  have hheadless : threeCyclesOptions.headless = true := rfl
  have hpath : threeCyclesOptions.path = "wait.ch8" := rfl
  have hlimit : threeCyclesOptions.limit = 3 := rfl
  obtain ⟨hresult, hmachine⟩ := run_jumpsAndWaits
  have hwaiting := run_ending waitFiles careless (.ofSeed 0) hthree
  simp only [hdialect, hpolicy, hheadless, if_true, hconfig, hpath, hlimit, hresult, hmachine]
    at hwaiting
  have hfailing := run_ending waitFiles careless (.ofSeed 0) honlyRom
  simp only [hnone] at hfailing
  have hshows := hwaiting.2.1
  refine ⟨⟨hthree, honlyRom⟩, hshows, ?_, hfailing.2.1⟩
  obtain ⟨cycles, pc, awaiting, hvalues, hout⟩ := hshows.standardOutput
  have hline : finalLine cycles pc awaiting =
      "headless finished: cycles=2 pc=0x20a awaiting_key=true" := by
    rw [hvalues.cycles, hvalues.pc.eq_hex (by decide), hvalues.awaiting_of_wait 3 none rfl]
    decide
  rw [hout, hline]

end Chip8.CommandLine
