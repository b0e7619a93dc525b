import DappyCore.ChildCommand
import DappyCore.Engine

/-!
What the proxies of a tree have in common: the profile and the limit of the root, its scope, and
its adapter where the profile hands the parent's backend on.
-/

namespace DappyCore.ProxyProcess

open Lib.Effect Lib.Argv Json Transport ChildSession MuxBridge Endpoints Engine ChildCommand

/-! ### The adapter of a process -/

/-- The command that is given, or the adapter that the engine resolves the launch to. -/
def resolveAdapterSpawn (adapterCmd : Option (List String)) (engine : DapEngine)
    (launch : Gateway.LaunchOptions) : Option AdapterSpawn :=
  match adapterCmd with
  | some [] => none
  | some (command :: args) => some ⟨.stdio, command, args⟩
  | none => (engine.resolveAdapterSpawn launch).toOption

/-- The flag `--fake-emit-start-debugging`, on the vector that a process is started with. -/
def fakeEmitStartDebugging (clap : Reader) (vector : List String) : Bool :=
  (clap.read vector).any (CommandLine.flag · "--fake-emit-start-debugging")

/-- `emits` is the flag `--fake-emit-start-debugging`. -/
def resolveBackendSpawn (cli : Cli) (emits : Bool) (engine : DapEngine)
    (launch : Gateway.LaunchOptions) : Option AdapterSpawn :=
  match cli.adapterTcp with
  | some endpoint => some ⟨.tcp, endpoint, []⟩
  | none => do
    let spawn ← resolveAdapterSpawn cli.adapterCmd engine launch
    return if emits then { spawn with args := spawn.args ++ ["--emit-start-debugging"] } else spawn

def adapterCmdFromSpawn (spawn : AdapterSpawn) (explicit : Option (List String)) : List String :=
  explicit.getD (spawn.command :: spawn.args)

/-- What a process runs as its adapter, and what it hands to its bridge as the command of it. -/
structure Runs (emits : Bool) (engine : DapEngine) (launch : Gateway.LaunchOptions) (p : Proxy)
    (spawn : AdapterSpawn) : Prop where
  resolved : resolveBackendSpawn p.cli emits engine launch = some spawn
  adapterCmd : p.adapterCmd = adapterCmdFromSpawn spawn p.cli.adapterCmd

/-- The proxies of each generation under a root, with the adapters that they run. Each child reads
the vector that it is started with, which can carry the options that are written to it; a file
that describes a profile stays as it is. -/
inductive Family (clap : Reader) (toText : Value → String) (root : Proxy) :
    ℕ → Proxy → AdapterSpawn → Prop
  | root {emits : Bool} {engine : DapEngine} {launch : Gateway.LaunchOptions} {spawn : AdapterSpawn}
      (hruns : Runs emits engine launch root spawn) : Family clap toText root 0 root spawn
  | child {g : ℕ} {parent child : Proxy} {parentSpawn spawn : AdapterSpawn}
      {bridge : ChildSessionBridge} {supervisor : ChildProcessSupervisor} {activeChildren : ℕ}
      {args : StartDebuggingArgs} {plan : ChildSpawnPlan} {engine : DapEngine}
      {launch : Gateway.LaunchOptions} (hparent : Family clap toText root g parent parentSpawn)
      (hbridge : parent.child = some (bridge, supervisor))
      (hplan : resolveChildSpawn toText bridge.config bridge.remainingDepth activeChildren
        bridge.parent args = .ok plan)
      (hreadable : (spawnCommand toText supervisor plan).all (readable cliTable))
      (hcli : parseVector clap child.host (spawnVector toText supervisor plan) = some child.cli)
      (hruns : Runs (fakeEmitStartDebugging clap (spawnVector toText supervisor plan)) engine launch
        child spawn)
      (hfile : child.host.profileFile = parent.host.profileFile) :
      Family clap toText root (g + 1) child spawn

/-- The options that a proxy has from its root. -/
structure Inherits (root p : Proxy) : Prop where
  childProfile : p.cli.childProfile = root.cli.childProfile
  childProfileFile : p.cli.childProfileFile = root.cli.childProfileFile
  childMaxChildren : p.cli.childMaxChildren = root.cli.childMaxChildren
  scope : ∀ scope, root.cli.scope = some scope → p.cli.scope = some scope
  profile : loadChildProfile p.host p.cli = loadChildProfile root.host root.cli

/-- Every rule of a profile starts a child on the backend of its parent. -/
def HandsOn (profile : ChildSessionProfile) : Prop :=
  ∀ rule ∈ profile.rules,
    rule.childBackend = .parentBackend ∨ rule.childBackend = .inheritParentStdio

/-- What the adapter of a root is to its descendants: its command, as a process over stdio and
without the flag that has it ask for children, or an endpoint that is read as the root's. -/
inductive HandedOn (root : Proxy) : AdapterSpawn → Prop
  | command {command : String} {args : List String} (hroot : root.cli.adapterTcp = none)
      (hcmd : stripEmitStartDebugging root.adapterCmd = command :: args) :
      HandedOn root ⟨.stdio, command, args⟩
  | endpoint {text command : String} {found : String × UInt16}
      (hroot : root.cli.adapterTcp = some text)
      (htext : backendEndpoint ⟨.tcp, text, []⟩ = .ok found)
      (hcommand : backendEndpoint ⟨.tcp, command, []⟩ = .ok found) :
      HandedOn root ⟨.tcp, command, []⟩

variable {clap : Reader} {toText : Value → String} {root parent p : Proxy} {spawn : AdapterSpawn}
  {supervisor : ChildProcessSupervisor} {plan : ChildSpawnPlan} {bridge : ChildSessionBridge}

/-! ### From parent to child -/

/-- What a proxy's bridge and the processes it spawns have from its options. -/
lemma built_of_child (h : parent.child = some (bridge, supervisor)) :
    loadChildProfile parent.host parent.cli = .ok bridge.config.profile ∧
      bridge.parent = parentContext parent.cli parent.adapterCmd ∧
        ∃ exe, supervisor = ⟨exe, parent.cli.scope, parent.instanceId, parent.cli.childProfile,
          parent.cli.childProfileFile, parent.cli.childMaxChildren⟩ := by
  have hbuilt := parent.built
  rw [h] at hbuilt
  unfold buildChildSessionBridge at hbuilt
  dsimp only at hbuilt
  split_ifs at hbuilt with hdepth hchild
  · cases Except.ok.inj hbuilt
  · cases Except.ok.inj hbuilt
  · obtain ⟨profile, hprofile, hbuilt⟩ := except_bind_eq_ok.mp hbuilt
    obtain ⟨new, hnew, hbuilt⟩ := except_bind_eq_ok.mp hbuilt
    obtain ⟨exe, -, hexe⟩ := except_bind_eq_ok.mp hnew
    obtain ⟨rfl, rfl⟩ := Prod.mk.inj (Option.some.inj (Except.ok.inj hbuilt))
    exact ⟨hprofile, rfl, exe, (Except.ok.inj hexe).symm⟩

lemma cli_of_parse {host : Host} {cli : Cli}
    (h : Cli.parse host (spawnCommand toText supervisor plan) = some cli) :
    cli = childCli host toText supervisor plan := by
  rw [parse_spawnCommand] at h
  split_ifs at h with hfits
  exact (Option.some.inj h).symm

/-- No child is told to emit requests for children of its own. -/
lemma fakeEmit_of_readable (hclap : Reads cliTable clap)
    (hreadable : (spawnCommand toText supervisor plan).all (readable cliTable)) :
    fakeEmitStartDebugging clap (spawnVector toText supervisor plan) = false := by
  rw [fakeEmitStartDebugging, read_of_readable hclap hreadable, Option.any_some]
  unfold spawnCommand
  cases supervisor.childProfileFile <;> cases supervisor.scope <;> cases plan.backend <;>
    by_cases hd : 0 < plan.childDepth <;> simp [CommandLine.flag, List.lookup_cons, hd]

/-- **One generation** keeps the options. -/
lemma Inherits.child (h : Inherits root parent) (hbridge : parent.child = some (bridge, supervisor))
    (hcli : Cli.parse p.host (spawnCommand toText supervisor plan) = some p.cli)
    (hfile : p.host.profileFile = parent.host.profileFile) : Inherits root p := by
  obtain ⟨-, -, exe, rfl⟩ := built_of_child hbridge
  have hp := cli_of_parse hcli
  have hprofile : p.cli.childProfile = parent.cli.childProfile := by rw [hp]; rfl
  have hpath : p.cli.childProfileFile = parent.cli.childProfileFile := by rw [hp]; rfl
  have hmax : p.cli.childMaxChildren = parent.cli.childMaxChildren := by rw [hp]; rfl
  have hscope : p.cli.scope = parent.cli.scope.or p.host.scopeId := by rw [hp]; rfl
  have hload : loadChildProfile p.host p.cli = loadChildProfile parent.host parent.cli := by
    rw [loadChildProfile, loadChildProfile, hpath, hprofile, hfile]
  refine ⟨hprofile.trans h.childProfile, hpath.trans h.childProfileFile,
    hmax.trans h.childMaxChildren, fun scope hs => ?_, hload.trans h.profile⟩
  rw [hscope, h.scope scope hs, Option.some_or]

/-- A plan's backend is built from a rule that the parent's backend allows. -/
lemma backend_of_resolve {config : ChildSessionConfig} {remainingDepth activeChildren : ℕ}
    {context : ParentSessionContext} {args : StartDebuggingArgs}
    (h : resolveChildSpawn toText config remainingDepth activeChildren context args = .ok plan) :
    ∃ rule ∈ config.profile.rules, backendCompatible rule context ∧
      buildChildBackend toText rule.childBackend context args.toValue = .ok plan.backend := by
  obtain ⟨-, -, -, hplan⟩ := resolveChildSpawn_eq_ok.mp h
  unfold planChild at hplan
  cases hrule : findRule config context args with
  | none =>
    rw [hrule] at hplan
    cases hplan
  | some rule =>
    rw [hrule] at hplan
    obtain ⟨backend, hbackend, hplan⟩ := except_bind_eq_ok.mp hplan
    obtain ⟨request, -, hplan⟩ := except_bind_eq_ok.mp hplan
    obtain rfl := Except.ok.inj hplan
    have hmatch := List.find?_some hrule
    rw [Bool.and_eq_true] at hmatch
    exact ⟨rule, List.mem_of_find?_eq_some hrule, hmatch.2, hbackend⟩

/-! ### Endpoints -/

/-- What is read of an endpoint for a child is what the backend of its parent reads. -/
lemma endpoint_of_parseHostPort {text host : String} {port : ℕ}
    (h : parseHostPort text = .ok (host, port)) :
    backendEndpoint ⟨.tcp, text, []⟩ = .ok (host, UInt16.ofNat port) ∧
      host ++ ":" ++ toString port = Endpoints.endpoint host (UInt16.ofNat port) := by
  unfold parseHostPort at h
  cases hsplit : rsplitColon text.toList with
  | none =>
    rw [hsplit] at h
    cases h
  | some parts =>
    rw [hsplit] at h
    cases hport : (parseUsize parts.2).filter (· < 65536) with
    | none =>
      simp only [hport] at h
      cases h
    | some n =>
      simp only [hport] at h
      obtain ⟨rfl, rfl⟩ := Prod.mk.inj (Except.ok.inj h)
      have hlt : n < 65536 := by simpa using (Option.filter_eq_some_iff.mp hport).2
      refine ⟨?_, ?_⟩
      · simp only [backendEndpoint, hsplit, parsePort, Option.bind_some, hport, Option.map_some]
      · rw [Endpoints.endpoint, UInt16.toNat_ofNat_of_lt' hlt]

/-! ### Backends -/

/-- What a proxy's children are started on leads to the adapter of the root. -/
structure SameBackend (root p : Proxy) : Prop where
  command : root.cli.adapterTcp = none → p.cli.adapterTcp = none ∧
    stripEmitStartDebugging p.adapterCmd = stripEmitStartDebugging root.adapterCmd
  endpoint : ∀ text, root.cli.adapterTcp = some text → ∃ own, p.cli.adapterTcp = some own ∧
    backendEndpoint ⟨.tcp, own, []⟩ = backendEndpoint ⟨.tcp, text, []⟩

lemma SameBackend.refl (root : Proxy) : SameBackend root root where
  command h := ⟨h, rfl⟩
  endpoint text h := ⟨text, h, rfl⟩

/-- A child with a command of its own, which does not emit. -/
lemma runs_command {command : String} {args : List String} {engine : DapEngine}
    {launch : Gateway.LaunchOptions} (hplan : plan.backend = .stdio command args)
    (hcli : p.cli = childCli p.host toText supervisor plan)
    (hruns : Runs false engine launch p spawn) :
    p.cli.adapterTcp = none ∧ p.adapterCmd = command :: args ∧ spawn = ⟨.stdio, command, args⟩ := by
  have htcp : p.cli.adapterTcp = none := by rw [hcli, childCli, hplan]
  have hcmd : p.cli.adapterCmd = some (command :: args) := by rw [hcli, childCli, hplan]
  have hspawn := hruns.resolved
  rw [resolveBackendSpawn, htcp, hcmd] at hspawn
  refine ⟨htcp, ?_, (Option.some.inj hspawn).symm⟩
  rw [hruns.adapterCmd, hcmd, adapterCmdFromSpawn, Option.getD_some]

/-- A child that is told an endpoint. -/
lemma runs_endpoint {host : String} {port : ℕ} {emits : Bool} {engine : DapEngine}
    {launch : Gateway.LaunchOptions} (hplan : plan.backend = .tcp host port)
    (hcli : p.cli = childCli p.host toText supervisor plan)
    (hruns : Runs emits engine launch p spawn) :
    p.cli.adapterTcp = some (host ++ ":" ++ toString port) ∧
      spawn = ⟨.tcp, host ++ ":" ++ toString port, []⟩ := by
  have htcp : p.cli.adapterTcp = some (host ++ ":" ++ toString port) := by
    rw [hcli, childCli, hplan]
  have hspawn := hruns.resolved
  rw [resolveBackendSpawn, htcp] at hspawn
  exact ⟨htcp, (Option.some.inj hspawn).symm⟩

lemma strip_idem (cmd : List String) :
    stripEmitStartDebugging (stripEmitStartDebugging cmd) = stripEmitStartDebugging cmd := by
  simp [stripEmitStartDebugging]

section Hand

variable {activeChildren : ℕ} {args : StartDebuggingArgs} {engine : DapEngine}
  {launch : Gateway.LaunchOptions} (h : SameBackend root parent)
  (hbridge : parent.child = some (bridge, supervisor)) (hprofile : HandsOn bridge.config.profile)
  (hplan : resolveChildSpawn toText bridge.config bridge.remainingDepth activeChildren
    bridge.parent args = .ok plan)
  (hcli : Cli.parse p.host (spawnCommand toText supervisor plan) = some p.cli)
  (hruns : Runs false engine launch p spawn)
include h hbridge hprofile hplan hcli hruns

/-- Under a root over stdio, no endpoint is there to hand on: the rule is one that inherits the
command. -/
lemma SameBackend.child_command (hroot : root.cli.adapterTcp = none) :
    SameBackend root p ∧ HandedOn root spawn := by
  obtain ⟨-, hcontext, -⟩ := built_of_child hbridge
  obtain ⟨rule, hrule, hallowed, hbackend⟩ := backend_of_resolve hplan
  obtain ⟨hnone, hstrip⟩ := h.command hroot
  rw [hcontext] at hallowed hbackend
  -- a rule for an endpoint does not fit a parent on stdio
  have hinherit : rule.childBackend = .inheritParentStdio := by
    refine (hprofile rule hrule).resolve_left fun hto => ?_
    simp [backendCompatible, hto, parentContext, hnone] at hallowed
  rw [hinherit, buildChildBackend] at hbackend
  simp only [parentContext, hstrip] at hbackend
  cases hcmd : stripEmitStartDebugging root.adapterCmd with
  | nil =>
    rw [hcmd] at hbackend
    cases hbackend
  | cons command args =>
    rw [hcmd] at hbackend
    obtain ⟨htcp, hown, rfl⟩ :=
      runs_command (Except.ok.inj hbackend).symm (cli_of_parse hcli) hruns
    refine ⟨⟨fun _ => ⟨htcp, ?_⟩, fun text ht => ?_⟩, .command hroot hcmd⟩
    · rw [hown, ← hcmd, strip_idem]
    · rw [hroot] at ht
      cases ht

/-- Under a root that has an endpoint, the rule is one that hands an endpoint on. -/
lemma SameBackend.child_endpoint {text : String} (hroot : root.cli.adapterTcp = some text) :
    SameBackend root p ∧ HandedOn root spawn := by
  obtain ⟨-, hcontext, -⟩ := built_of_child hbridge
  obtain ⟨rule, hrule, hallowed, hbackend⟩ := backend_of_resolve hplan
  obtain ⟨own, hown, hsame⟩ := h.endpoint text hroot
  rw [hcontext] at hallowed hbackend
  have hto : rule.childBackend = .parentBackend := by
    refine (hprofile rule hrule).resolve_right fun hinherit => ?_
    simp [backendCompatible, hinherit, parentContext, hown] at hallowed
  rw [hto, buildChildBackend] at hbackend
  simp only [parentContext, hown] at hbackend
  obtain ⟨⟨host, port⟩, hparse, hbackend⟩ := except_bind_eq_ok.mp hbackend
  obtain ⟨hread, htext⟩ := endpoint_of_parseHostPort hparse
  obtain ⟨htcp, rfl⟩ := runs_endpoint (Except.ok.inj hbackend).symm (cli_of_parse hcli) hruns
  have hagain := backendEndpoint_endpoint host (UInt16.ofNat port) []
  rw [← htext] at hagain
  refine ⟨⟨fun hnone => ?_, fun text' ht => ⟨_, htcp, ?_⟩⟩,
    .endpoint hroot (hsame.symm.trans hread) hagain⟩
  · rw [hroot] at hnone
    cases hnone
  · obtain rfl := Option.some.inj (hroot.symm.trans ht)
    rw [hagain, ← hread, hsame]

/-- **One generation** hands the backend on. -/
lemma SameBackend.child : SameBackend root p ∧ HandedOn root spawn := by
  cases hroot : root.cli.adapterTcp with
  | none => exact h.child_command hbridge hprofile hplan hcli hruns hroot
  | some text => exact h.child_endpoint hbridge hprofile hplan hcli hruns hroot

end Hand

/-! ### Every generation -/

lemma inherits_of_family (hclap : Reads cliTable clap) {g : ℕ}
    (h : Family clap toText root g p spawn) : Inherits root p := by
  induction h with
  | root => exact ⟨rfl, rfl, rfl, fun _ hs => hs, rfl⟩
  | child hparent hbridge hplan hreadable hcli hruns hfile ih =>
    rw [parseVector_of_readable hclap hreadable] at hcli
    exact ih.child hbridge hcli hfile

lemma sameBackend_of_family (hclap : Reads cliTable clap) {profile : ChildSessionProfile}
    (hload : loadChildProfile root.host root.cli = .ok profile) (hprofile : HandsOn profile)
    {g : ℕ} (h : Family clap toText root g p spawn) :
    SameBackend root p ∧ (0 < g → HandedOn root spawn) := by
  induction h with
  | root => exact ⟨.refl root, fun h => absurd h (Nat.lt_irrefl 0)⟩
  | child hparent hbridge hplan hreadable hcli hruns hfile ih =>
    have hsame := (inherits_of_family hclap hparent).profile.trans hload
    have hbridgeProfile := Except.ok.inj ((built_of_child hbridge).1.symm.trans hsame)
    rw [parseVector_of_readable hclap hreadable] at hcli
    rw [fakeEmit_of_readable hclap hreadable] at hruns
    obtain ⟨hnext, hhanded⟩ := ih.1.child hbridge (hbridgeProfile ▸ hprofile) hplan hcli hruns
    exact ⟨hnext, fun _ => hhanded⟩

/-- **A tree of proxies** runs with the profile, the limit and the scope of its root, in every
generation; and where every rule of the profile starts a child on its parent's backend, every
proxy under the root runs the root's adapter: its command, without the flag that has it ask for
children, or a connection to its endpoint. -/
theorem family_shares_root (hclap : Reads cliTable clap) {g : ℕ}
    (h : Family clap toText root g p spawn) :
    Inherits root p ∧
      (∀ bridge supervisor, p.child = some (bridge, supervisor) →
        loadChildProfile root.host root.cli = .ok bridge.config.profile) ∧
      ∀ profile, loadChildProfile root.host root.cli = .ok profile → HandsOn profile → 0 < g →
        HandedOn root spawn := by
  have hinherits := inherits_of_family hclap h
  refine ⟨hinherits, fun bridge supervisor hb => ?_, fun profile hload hprofile hg => ?_⟩
  · rw [← hinherits.profile]
    exact (built_of_child hb).1
  · exact (sameBackend_of_family hclap hload hprofile h).2 hg

/-- What the editor's proxy spawns its children with. -/
def editorSupervisor : ChildProcessSupervisor := ⟨"dap-proxy", none, "editor", "fake", none, 16⟩

/-- The child of an editor's proxy with the profile for the fake adapter. -/
theorem family_shares_root_launched :
    Inherits editor launched ∧ HandedOn editor ⟨.stdio, "fake-adapter", []⟩ := by
  have hrun (p : Proxy) (hcmd : p.adapterCmd = ["fake-adapter"])
      (hcli : p.cli.adapterCmd = some ["fake-adapter"]) (htcp : p.cli.adapterTcp = none) :
      Runs false .new ⟨none, none, .null⟩ p ⟨.stdio, "fake-adapter", []⟩ := by
    refine ⟨?_, ?_⟩
    · rw [resolveBackendSpawn, htcp, hcli]
      rfl
    · rw [hcmd, hcli]
      rfl
  have hreadable : (spawnCommand exampleText editorSupervisor launchPlan).all
      (readable cliTable) := rfl
  have hcli : parseVector (scanner cliTable) launched.host
      (spawnVector exampleText editorSupervisor launchPlan) = some launched.cli := by
    rw [parseVector_of_readable reads_cliTable hreadable, parse_spawnCommand]
    exact if_pos (by decide)
  have hplan : resolveChildSpawn exampleText
      { autoSpawn := true, maxChildren := 16, maxDepth := 1, profile := .fakePreset } 1 0
      { backend := .stdio, adapterCmd := ["fake-adapter"], tcpEndpoint := none }
      ⟨"launch", .obj []⟩ = .ok launchPlan := rfl
  have hruns : Runs (fakeEmitStartDebugging (scanner cliTable)
      (spawnVector exampleText editorSupervisor launchPlan))
      .new ⟨none, none, .null⟩ launched ⟨.stdio, "fake-adapter", []⟩ := by
    rw [fakeEmit_of_readable reads_cliTable hreadable]
    exact hrun launched rfl rfl rfl
  have hfamily : Family (scanner cliTable) exampleText editor 1 launched
      ⟨.stdio, "fake-adapter", []⟩ :=
    .child (.root (hrun editor rfl rfl rfl)) rfl hplan hreadable hcli hruns rfl
  have hhands : HandsOn .fakePreset := by simp [HandsOn, ChildSessionProfile.fakePreset]
  have hshares := family_shares_root reads_cliTable hfamily
  exact ⟨hshares.1, hshares.2.2 .fakePreset rfl hhands Nat.one_pos⟩

end DappyCore.ProxyProcess
