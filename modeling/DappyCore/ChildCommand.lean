import DappyCore.Lib.Argv
import DappyCore.ProxyTree
import Mathlib.Tactic.MkIffOfInductiveProp

/-!
The vector that a child proxy is started with, and what the child reads back from it: its options
stand before and after the command of the adapter, whose arguments may look like options too.
-/

namespace DappyCore.ChildCommand

open Lib.Argv Json Transport ChildSession MuxBridge ProxyProcess

/-! ### Reading the vector -/

/-- The options of `Cli`. A path is not empty. -/
def cliOptions : List (String × Arity) :=
  [("--stdio", .flag), ("--headless", .flag), ("--adapter", .one true), ("--adapter-cmd", .many),
    ("--fake-emit-start-debugging", .flag), ("--program", .one true), ("--target", .one true),
    ("--plugins-dir", .one false), ("--control-port", .one true), ("--no-control", .flag),
    ("--scope", .one true), ("--child-sessions", .flag), ("--child-max-depth", .one true),
    ("--child-max-children", .one true), ("--child-profile", .one true),
    ("--child-profile-file", .one false), ("--adapter-tcp", .one true), ("--parent-id", .one true),
    ("--child-depth", .one true), ("--client-idle-timeout-secs", .one true),
    ("--debug-request", .one true), ("--debug-args", .one true)]

def cliTable (name : String) : Option Arity := cliOptions.lookup name

/-- `Cli::parse`, on the vector that the process is started with. What is read from the vector
for each option is `clap`'s. -/
def parseVector (clap : Reader) (host : Host) (vector : List String) : Option Cli := do
  let line ← clap.read vector
  let _ ← CommandLine.number line "--client-idle-timeout-secs" usizeMax 0
  Cli.parse host line

/-- The vector of `ProxyChildSpawner::spawn`. -/
def spawnVector (toText : Value → String) (supervisor : ChildProcessSupervisor)
    (plan : ChildSpawnPlan) : List String :=
  tokens (spawnCommand toText supervisor plan)

/-- What a child is to know of its plan. -/
structure Carries (toText : Value → String) (supervisor : ChildProcessSupervisor)
    (plan : ChildSpawnPlan) (command : String) (args : List String) (cli : Cli) : Prop where
  adapterCmd : cli.adapterCmd = some (command :: args)
  debugRequest : cli.debugRequest = some plan.debugRequest
  debugArgs : cli.debugArgs = toText plan.debugArguments
  childDepth : cli.childDepth = plan.childDepth
  scope : cli.scope = supervisor.scope

/-- No value is hyphenated, and a scope that the child finds in its environment is not there
in place of none. -/
@[mk_iff]
structure Plain (host : Host) (toText : Value → String) (supervisor : ChildProcessSupervisor)
    (plan : ChildSpawnPlan) (command : String) (args : List String) : Prop where
  parentId : ¬ hyphenated supervisor.parentInstanceId
  childProfile : ¬ hyphenated supervisor.childProfile
  childProfileFile : ∀ path ∈ supervisor.childProfileFile, ¬ hyphenated path ∧ path ≠ ""
  debugRequest : ¬ hyphenated plan.debugRequest
  debugArgs : ¬ hyphenated (toText plan.debugArguments)
  command : ¬ hyphenated command
  args : ∀ arg ∈ args, ¬ hyphenated arg
  scope : ∀ scope ∈ supervisor.scope, ¬ hyphenated scope
  environment : supervisor.scope = none → host.scopeId = none

/-! ### The options around the command -/

section Options

variable {clap : Reader} {host : Host} {toText : Value → String}
  {supervisor : ChildProcessSupervisor} {plan : ChildSpawnPlan} {command : String}
  {args : List String}

/-- The options before the command. -/
def before (toText : Value → String) (supervisor : ChildProcessSupervisor)
    (plan : ChildSpawnPlan) : Line :=
  [("--headless", []), ("--control-port", ["0"]),
    ("--parent-id", [supervisor.parentInstanceId]),
    ("--child-profile", [supervisor.childProfile])] ++
  (match supervisor.childProfileFile with
    | some path => [("--child-profile-file", [path])]
    | none => []) ++
  (if 0 < plan.childDepth then [("--child-sessions", [])] else []) ++
  [("--child-depth", [toString plan.childDepth]),
    ("--child-max-children", [toString supervisor.childMaxChildren]),
    ("--debug-request", [plan.debugRequest]),
    ("--debug-args", [toText plan.debugArguments])]

/-- The options after it. -/
def after (supervisor : ChildProcessSupervisor) : Line :=
  match supervisor.scope with
  | some scope => [("--scope", [scope])]
  | none => []

lemma spawnCommand_stdio (h : plan.backend = .stdio command args) :
    spawnCommand toText supervisor plan =
      before toText supervisor plan ++ ("--adapter-cmd", command :: args) :: after supervisor := by
  unfold spawnCommand before after
  rw [h]
  cases supervisor.childProfileFile <;> cases supervisor.scope <;>
    simp only [List.append_assoc, List.cons_append, List.nil_append, List.append_nil]

lemma single_of_mem_before : ∀ option ∈ before toText supervisor plan, Single cliTable option := by
  unfold before
  cases supervisor.childProfileFile <;> by_cases hd : 0 < plan.childDepth <;>
    simp [hd, Single, cliTable, cliOptions, List.lookup_cons]

lemma single_of_mem_after : ∀ option ∈ after supervisor, Single cliTable option := by
  unfold after
  cases supervisor.scope <;> simp [Single, cliTable, cliOptions, List.lookup_cons]

/-- Its names are hyphenated, and are there once each. -/
lemma named_spawnCommand : ∀ option ∈ spawnCommand toText supervisor plan, Named option := by
  unfold spawnCommand
  cases supervisor.childProfileFile <;> cases supervisor.scope <;> cases plan.backend <;>
    by_cases hd : 0 < plan.childDepth <;> simp [hd, Named, hyphenated]

lemma nodup_spawnCommand : ((spawnCommand toText supervisor plan).map (·.1)).Nodup := by
  unfold spawnCommand
  cases supervisor.childProfileFile <;> cases supervisor.scope <;> cases plan.backend <;>
    by_cases hd : 0 < plan.childDepth <;> simp [hd]

lemma hyphenated_of_cliTable {name : String} (h : (cliTable name).isSome) : hyphenated name := by
  have hall : ∀ option ∈ cliOptions, hyphenated option.1 := by decide
  obtain ⟨option, hoption, heq⟩ := List.lookup_isSome_iff.mp h
  rw [beq_iff_eq.mp heq]
  exact hall option hoption

/-- The reader of the library is one for the options of `Cli`. -/
lemma reads_cliTable : Reads cliTable (scanner cliTable) :=
  reads_scanner rfl fun _ => hyphenated_of_cliTable

lemma hyphenated_toString (n : ℕ) : hyphenated (toString n) = false := by
  have hdigits : (toString n).toList = Nat.toDigits 10 n := Nat.toList_repr
  have hhead : (toString n).toList.head? ≠ some '-' := by
    rw [hdigits]
    intro hhead
    exact absurd (isDigit_of_mem (List.mem_of_mem_head? hhead)) (by decide)
  rw [hyphenated, decide_eq_false hhead, Bool.false_and]

/-- A value is read where it does not look like an option. -/
lemma readable_one {name value : String} (h : cliTable name = some (.one true)) :
    readable cliTable (name, [value]) = !hyphenated value := by
  simp only [readable, h, Arity.allows, Bool.true_or, Bool.and_true]

lemma all_before : (before toText supervisor plan).all (readable cliTable) =
    (!hyphenated supervisor.parentInstanceId && (!hyphenated supervisor.childProfile &&
      (supervisor.childProfileFile.all (fun path => !hyphenated path && path ≠ "") &&
        (!hyphenated plan.debugRequest && !hyphenated (toText plan.debugArguments))))) := by
  have hheadless : readable cliTable ("--headless", []) = true := rfl
  have hsessions : readable cliTable ("--child-sessions", []) = true := rfl
  have hport : readable cliTable ("--control-port", ["0"]) = true := rfl
  have hfile (path : String) : readable cliTable ("--child-profile-file", [path]) =
      (!hyphenated path && path ≠ "") := rfl
  unfold before
  cases supervisor.childProfileFile <;> by_cases hd : 0 < plan.childDepth <;>
    simp (disch := decide) only [hd, if_true, if_false, List.all_append, List.all_cons,
      List.all_nil, hheadless, hsessions, hport, hfile, readable_one, hyphenated_toString,
      Option.all_some, Option.all_none, Bool.and_assoc, Bool.true_and, Bool.and_true,
      Bool.not_false]

lemma all_after : (after supervisor).all (readable cliTable) =
    supervisor.scope.all (!hyphenated ·) := by
  unfold after
  cases supervisor.scope with
  | none => rfl
  | some scope =>
    simp (disch := decide) only [List.all_cons, List.all_nil, readable_one, Option.all_some,
      Bool.and_true]

lemma all_readable_iff (h : plan.backend = .stdio command args) :
    (spawnCommand toText supervisor plan).all (readable cliTable) ∧
        (supervisor.scope = none → host.scopeId = none) ↔
      Plain host toText supervisor plan command args := by
  have hcommand : readable cliTable ("--adapter-cmd", command :: args) =
      (!hyphenated command && args.all (!hyphenated ·)) := rfl
  rw [spawnCommand_stdio h, plain_iff, List.all_append, List.all_cons, all_before, all_after,
    hcommand]
  simp only [Bool.and_eq_true, Bool.not_eq_true', Bool.not_eq_true, List.all_eq_true,
    Option.all_eq_true, decide_eq_true_eq, and_assoc, Option.mem_def]

/-! ### What the child knows of its plan -/

lemma adapterCmd_of_parse {line : CommandLine} {cli : Cli} (h : Cli.parse host line = some cli) :
    cli.adapterCmd = line.lookup "--adapter-cmd" := by
  unfold Cli.parse at h
  simp only [Option.bind_eq_bind, Option.bind_eq_some_iff] at h
  obtain ⟨controlPort, -, childMaxDepth, -, childMaxChildren, -, childDepth, -, h⟩ := h
  split_ifs at h
  cases h
  rfl

/-- A child that reads the command of its plan reads every option as it was written. -/
lemma readable_of_carries {cli : Cli} (hclap : Reads cliTable clap)
    (h : plan.backend = .stdio command args)
    (hcli : parseVector clap host (spawnVector toText supervisor plan) = some cli)
    (hcarries : Carries toText supervisor plan command args cli) :
    (spawnCommand toText supervisor plan).all (readable cliTable) := by
  obtain ⟨line, hline, hcli⟩ := Option.bind_eq_some_iff.mp hcli
  obtain ⟨_, -, hparse⟩ := Option.bind_eq_some_iff.mp hcli
  have hlookup := hcarries.adapterCmd
  rw [adapterCmd_of_parse hparse] at hlookup
  have hnames : ∀ option ∈ spawnCommand toText supervisor plan, Named option := named_spawnCommand
  rw [spawnCommand_stdio h] at hnames
  rw [spawnVector, spawnCommand_stdio h] at hline
  rw [spawnCommand_stdio h]
  refine hclap.readable_of_lookup rfl (by decide) single_of_mem_before single_of_mem_after ?_
    (List.cons_ne_nil _ _) hline hlookup
  exact fun option hmem => hnames option (List.mem_append_right _ (List.mem_cons_of_mem _ hmem))

/-- What is written so that it can be read is read by the child. -/
lemma read_of_readable (hclap : Reads cliTable clap)
    (hreadable : (spawnCommand toText supervisor plan).all (readable cliTable)) :
    clap.read (spawnVector toText supervisor plan) = some (spawnCommand toText supervisor plan) :=
  hclap.read_tokens named_spawnCommand nodup_spawnCommand hreadable

lemma parseVector_of_readable (hclap : Reads cliTable clap)
    (hreadable : (spawnCommand toText supervisor plan).all (readable cliTable)) :
    parseVector clap host (spawnVector toText supervisor plan) =
      Cli.parse host (spawnCommand toText supervisor plan) := by
  have hidle : CommandLine.number (spawnCommand toText supervisor plan)
      "--client-idle-timeout-secs" usizeMax 0 = some 0 := by
    have hnone : CommandLine.value (spawnCommand toText supervisor plan)
        "--client-idle-timeout-secs" = none := by
      unfold spawnCommand
      cases supervisor.childProfileFile <;> cases supervisor.scope <;> cases plan.backend <;>
        by_cases hd : 0 < plan.childDepth <;> simp [CommandLine.value, List.lookup_cons, hd]
    simp only [CommandLine.number, hnone]
  rw [parseVector, read_of_readable hclap hreadable, Option.bind_eq_bind, Option.bind_some,
    hidle, Option.bind_eq_bind, Option.bind_some]

/-- **The command of the adapter** and the rest of the plan reach the child exactly where no value
of the vector is hyphenated, whatever reads the vector as `clap` is documented to. -/
theorem plan_carried_iff (hclap : Reads cliTable clap) (h : plan.backend = .stdio command args)
    (hdepth : plan.childDepth ≤ u32Max) (hchildren : supervisor.childMaxChildren ≤ u32Max) :
    (∃ cli, parseVector clap host (spawnVector toText supervisor plan) = some cli ∧
      Carries toText supervisor plan command args cli) ↔
        Plain host toText supervisor plan command args := by
  have hparse (hreadable : (spawnCommand toText supervisor plan).all (readable cliTable)) :
      parseVector clap host (spawnVector toText supervisor plan) =
        some (childCli host toText supervisor plan) := by
    rw [parseVector_of_readable hclap hreadable, parse_spawnCommand, if_pos ⟨hdepth, hchildren⟩]
  rw [← all_readable_iff h]
  constructor
  · -- a child that has the plan's values was handed a vector that carries them
    rintro ⟨cli, hcli, hcarries⟩
    have hreadable := readable_of_carries hclap h hcli hcarries
    refine ⟨hreadable, fun hscope => ?_⟩
    rw [hparse hreadable] at hcli
    have hcli := hcarries.scope.symm.trans (congrArg Cli.scope (Option.some.inj hcli)).symm
    rw [hscope] at hcli
    simpa [childCli, hscope] using hcli.symm
  · rintro ⟨hreadable, henvironment⟩
    refine ⟨_, hparse hreadable, ?_⟩
    -- no scope is found where none was given
    have hscope : supervisor.scope.or host.scopeId = supervisor.scope := by
      cases hs : supervisor.scope with
      | none => exact henvironment hs
      | some scope => rfl
    have hcommand : (childCli host toText supervisor plan).adapterCmd = some (command :: args) := by
      unfold childCli
      rw [h]
    exact ⟨hcommand, rfl, rfl, rfl, hscope⟩

end Options

section Example

def debugpySupervisor : ChildProcessSupervisor :=
  ⟨"dap-proxy", none, "editor", "debugpy", none, 16⟩

def debugpyPlan : ChildSpawnPlan where
  backend := .stdio "python3" ["-m", "debugpy.adapter"]
  debugRequest := "attach"
  debugArguments := .obj []
  childDepth := 0

theorem fake_adapter_carried : ∃ cli,
    parseVector (scanner cliTable) exampleHost
        (spawnVector exampleText debugpySupervisor launchPlan) = some cli ∧
      Carries exampleText debugpySupervisor launchPlan "fake-adapter" [] cli := by
  refine (plan_carried_iff reads_cliTable rfl (by decide) (by decide)).mpr ?_
  rw [← all_readable_iff rfl]
  exact ⟨rfl, fun _ => rfl⟩

/-- The child of a debugpy session does not start: `-m` is no option of the proxy. -/
theorem debugpy_not_carried : ¬ ∃ cli,
    parseVector (scanner cliTable) exampleHost
        (spawnVector exampleText debugpySupervisor debugpyPlan) = some cli ∧
      Carries exampleText debugpySupervisor debugpyPlan "python3" ["-m", "debugpy.adapter"]
        cli := by
  rintro ⟨cli, hcli, hcarries⟩
  exact absurd (readable_of_carries reads_cliTable rfl hcli hcarries) (by decide)

end Example

end DappyCore.ChildCommand
