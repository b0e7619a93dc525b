import DappyCore.ProxyProcess

/-!
Trees of proxies: the depth that is left to a proxy goes down by one with each generation, until
there is none left to spawn a child with.
-/

namespace DappyCore.ProxyProcess

open Lib.Effect Json Protocol Transport ChildSession MuxBridge ReverseRequest

variable {toText : Value → String} {host : Host} {supervisor : ChildProcessSupervisor}
  {plan : ChildSpawnPlan}

/-! ### The command line -/

/-- The options of a child. -/
def childCli (host : Host) (toText : Value → String) (supervisor : ChildProcessSupervisor)
    (plan : ChildSpawnPlan) : Cli where
  stdio := false
  headless := true
  adapterCmd :=
    match plan.backend with
    | .stdio command args => some (command :: args)
    | .tcp _ _ => none
  controlPort := 0
  scope := supervisor.scope.or host.scopeId
  childSessions := 0 < plan.childDepth
  childMaxDepth := 1
  childMaxChildren := supervisor.childMaxChildren
  childProfile := supervisor.childProfile
  childProfileFile := supervisor.childProfileFile
  adapterTcp :=
    match plan.backend with
    | .stdio _ _ => none
    | .tcp host port => some (host ++ ":" ++ toString port)
  parentId := some supervisor.parentInstanceId
  childDepth := plan.childDepth
  debugRequest := some plan.debugRequest
  debugArgs := toText plan.debugArguments

section CommandLine

/-- A number is read back where it fits. -/
lemma filter_parseUsize_toString (n : ℕ) :
    (parseUsize (toString n).toList).filter (· ≤ u32Max) = if n ≤ u32Max then some n else none := by
  have hdigits : (toString n).toList = Nat.toDigits 10 n := Nat.toList_repr
  have hfits : (n ≤ usizeMax && n ≤ u32Max) = decide (n ≤ u32Max) := by
    have hmax : u32Max ≤ usizeMax := by decide
    rw [← Bool.decide_and, decide_eq_decide]
    omega
  rw [hdigits, parseUsize_toDigits_eq, Option.filter_filter, Option.filter_some, hfits]
  simp only [decide_eq_true_eq]

lemma number_of_value {line : CommandLine} {name text : String} (h : line.value name = some text)
    (max default : ℕ) :
    line.number name max default = (parseUsize text.toList).filter (· ≤ max) := by
  simp only [CommandLine.number, h]

lemma number_childDepth : (spawnCommand toText supervisor plan).number "--child-depth" u32Max 0 =
    if plan.childDepth ≤ u32Max then some plan.childDepth else none := by
  have hvalue : (spawnCommand toText supervisor plan).value "--child-depth" =
      some (toString plan.childDepth) := by
    unfold spawnCommand
    cases supervisor.childProfileFile <;> by_cases hd : 0 < plan.childDepth <;>
      simp [CommandLine.value, List.lookup_cons, hd]
  rw [number_of_value hvalue, filter_parseUsize_toString]

lemma number_childMaxChildren :
    (spawnCommand toText supervisor plan).number "--child-max-children" u32Max 16 =
      if supervisor.childMaxChildren ≤ u32Max then some supervisor.childMaxChildren else none := by
  have hvalue : (spawnCommand toText supervisor plan).value "--child-max-children" =
      some (toString supervisor.childMaxChildren) := by
    unfold spawnCommand
    cases supervisor.childProfileFile <;> by_cases hd : 0 < plan.childDepth <;>
      simp [CommandLine.value, List.lookup_cons, hd]
  rw [number_of_value hvalue, filter_parseUsize_toString]

lemma number_childMaxDepth :
    (spawnCommand toText supervisor plan).number "--child-max-depth" u32Max 1 = some 1 := by
  have hvalue : (spawnCommand toText supervisor plan).value "--child-max-depth" = none := by
    unfold spawnCommand
    cases supervisor.childProfileFile <;> cases supervisor.scope <;> cases plan.backend <;>
      by_cases hd : 0 < plan.childDepth <;> simp [CommandLine.value, List.lookup_cons, hd]
  simp only [CommandLine.number, hvalue]

/-- **The command line** carries the plan: the child runs with its depth. -/
theorem parse_spawnCommand : Cli.parse host (spawnCommand toText supervisor plan) =
    if plan.childDepth ≤ u32Max ∧ supervisor.childMaxChildren ≤ u32Max then
      some (childCli host toText supervisor plan)
    else none := by
  have hport : (spawnCommand toText supervisor plan).number "--control-port" u16Max 0 = some 0 :=
    rfl
  rw [Cli.parse, hport, number_childMaxDepth, number_childMaxChildren, number_childDepth]
  by_cases hd : plan.childDepth ≤ u32Max
  · by_cases hc : supervisor.childMaxChildren ≤ u32Max
    · -- both numbers fit, and every other option is there as it was written
      rw [if_pos hd, if_pos hc, if_pos ⟨hd, hc⟩]
      simp only [Option.bind_eq_bind, Option.bind_some]
      unfold spawnCommand childCli
      cases supervisor.childProfileFile <;> cases supervisor.scope <;> cases plan.backend <;>
        by_cases hd : 0 < plan.childDepth <;>
        simp [CommandLine.flag, CommandLine.value, List.lookup_cons, hd]
    · have hno : ¬ (plan.childDepth ≤ u32Max ∧ supervisor.childMaxChildren ≤ u32Max) :=
        fun h => hc h.2
      rw [if_neg hc, if_neg hno]
      rfl
  · have hno : ¬ (plan.childDepth ≤ u32Max ∧ supervisor.childMaxChildren ≤ u32Max) :=
      fun h => hd h.1
    rw [if_neg hd, if_neg hno]
    by_cases hc : supervisor.childMaxChildren ≤ u32Max
    · rw [if_pos hc]
      rfl
    · rw [if_neg hc]
      rfl

end CommandLine

/-! ### Depths -/

section Depths

variable {config : ChildSessionConfig} {remainingDepth activeChildren : ℕ}
  {parent : ParentSessionContext} {args : StartDebuggingArgs}

/-- **A plan** is for one generation less than are left; the subtraction in it is of a positive
number. -/
theorem childDepth_of_resolve (h : resolveChildSpawn toText config remainingDepth activeChildren
    parent args = .ok plan) : plan.childDepth + 1 = remainingDepth := by
  obtain ⟨-, hdepth, -, hplan⟩ := resolveChildSpawn_eq_ok.mp h
  have hchild := childDepth_of_planChild hplan
  omega

variable {cli : Cli} {instanceId : String} {adapterCmd : List String}
  {child : Option (ChildSessionBridge × ChildProcessSupervisor)}

/-- **The bridge** of a proxy is there exactly where it has a depth left and may spawn children,
and has that depth. -/
theorem bridge_of_build (h : buildChildSessionBridge host cli instanceId adapterCmd = .ok child) :
    (child = none ∧ (cli.remainingDepth = 0 ∨ ¬ cli.headless ∧ ¬ cli.childSessions)) ∨
      ∃ bridge supervisor, child = some (bridge, supervisor) ∧ 0 < cli.remainingDepth ∧
        bridge.remainingDepth = cli.remainingDepth := by
  unfold buildChildSessionBridge at h
  dsimp only at h
  split_ifs at h with hdepth hchild
  · exact .inl ⟨(Except.ok.inj h).symm, .inl hdepth⟩
  · exact .inl ⟨(Except.ok.inj h).symm, .inr hchild⟩
  · obtain ⟨profile, -, h⟩ := except_bind_eq_ok.mp h
    obtain ⟨supervisor, -, h⟩ := except_bind_eq_ok.mp h
    obtain rfl := Except.ok.inj h
    exact .inr ⟨_, _, rfl, Nat.pos_of_ne_zero hdepth, rfl⟩

end Depths

/-! ### Generations -/

/-- The proxies of each generation under a root. -/
inductive Generation (toText : Value → String) (root : Proxy) : ℕ → Proxy → Prop
  | root : Generation toText root 0 root
  | child {g : ℕ} {parent child : Proxy} (hparent : Generation toText root g parent)
      (hchild : ChildOf toText parent child) : Generation toText root (g + 1) child

/-- It declines the request to spawn a child, whatever the bridge is started with besides. -/
def Declines (toText : Value → String) (p : Proxy) (request : Request) : Prop :=
  ∀ pluginContext attachDefaults terminal spawner activeChildren,
    answer { child := p.child.map Prod.fst, pluginContext, attachDefaults, toText } terminal spawner
      activeChildren (.request request) = some (declineReverseRequest request, activeChildren)

/-- What holds of a proxy of generation `g` under a root that allows `depth` of them. -/
structure WithinDepth (toText : Value → String) (depth g : ℕ) (p : Proxy) : Prop where
  generation : g ≤ depth
  remaining : p.cli.remainingDepth = depth - g
  bridge : ∀ bridge supervisor, p.child = some (bridge, supervisor) →
    bridge.remainingDepth = depth - g
  subtracts : ∀ bridge supervisor activeChildren args plan, p.child = some (bridge, supervisor) →
    resolveChildSpawn toText bridge.config bridge.remainingDepth activeChildren bridge.parent args =
      .ok plan → plan.childDepth + 1 = bridge.remainingDepth
  declines : g = depth → ∀ request, request.command = "startDebugging" → Declines toText p request

/-- A child is of a proxy with a bridge, and has one generation less left. -/
lemma remainingDepth_of_childOf {parent child : Proxy} (h : ChildOf toText parent child) :
    child.cli.remainingDepth + 1 = parent.cli.remainingDepth := by
  obtain ⟨bridge, supervisor, activeChildren, args, plan, hb, hplan, hcli⟩ := h
  have hdepth := childDepth_of_resolve hplan
  rw [parse_spawnCommand] at hcli
  split_ifs at hcli with hfits
  have hchild : child.cli.remainingDepth = plan.childDepth := by
    rw [← Option.some.inj hcli]
    rfl
  rcases bridge_of_build parent.built with ⟨hnone, -⟩ | ⟨bridge', supervisor', hsome, -, hremaining⟩
  · rw [hnone] at hb
    cases hb
  · obtain ⟨rfl, rfl⟩ := Prod.mk.inj (Option.some.inj (hsome.symm.trans hb))
    omega

/-- Along a tree, the generations that are behind and those that are left are as many. -/
lemma remainingDepth_of_generation {root p : Proxy} {g : ℕ} (h : Generation toText root g p) :
    p.cli.remainingDepth + g = root.cli.remainingDepth := by
  induction h with
  | root => rfl
  | child hparent hchild ih =>
    have hone := remainingDepth_of_childOf hchild
    omega

/-- With no depth left there is no bridge, and the request is declined. -/
lemma declines_of_remainingDepth {p : Proxy} {request : Request} (h : p.cli.remainingDepth = 0)
    (hc : request.command = "startDebugging") : Declines toText p request := by
  intro pluginContext attachDefaults terminal spawner activeChildren
  rcases bridge_of_build p.built with ⟨hnone, -⟩ | ⟨_, _, -, hpos, -⟩
  · simp [answer, hnone, handleReverseRequest, hc]
  · omega

/-- **Nesting is bounded.** Under an editor's proxy that allows `depth` generations, a proxy of
generation `g` has `depth - g` of them left, and one of the last declines every request for a
child. -/
theorem nesting_bounded {root : Proxy} (hroot : EditorRoot root.cli) {g : ℕ} {p : Proxy}
    (h : Generation toText root g p) : WithinDepth toText root.cli.childMaxDepth g p := by
  have hdepth : root.cli.remainingDepth = root.cli.childMaxDepth := if_neg hroot.2.1
  have hsum := remainingDepth_of_generation h
  have hremaining : p.cli.remainingDepth = root.cli.childMaxDepth - g := by omega
  refine ⟨by omega, hremaining, fun bridge supervisor hb => ?_,
    fun bridge supervisor activeChildren args plan _ hplan => childDepth_of_resolve hplan,
    fun hg request hc => declines_of_remainingDepth (by omega) hc⟩
  rcases bridge_of_build p.built with ⟨hnone, -⟩ | ⟨bridge', supervisor', hsome, -, hbridge⟩
  · rw [hnone] at hb
    cases hb
  · obtain ⟨rfl, rfl⟩ := Prod.mk.inj (Option.some.inj (hsome.symm.trans hb))
    omega

section Example

/-- An editor's proxy that allows one generation, and the child it spawns. -/
def exampleHost : Host where
  scopeId := none
  currentExe := .ok "dap-proxy"
  profileFile := fun _ => .error "no such file"

def exampleText : Value → String := fun _ => "\x7b\x7d"

def editor : Proxy where
  host := exampleHost
  cli := {
    stdio := true, headless := false, adapterCmd := some ["fake-adapter"], controlPort := 0
    scope := none, childSessions := true, childMaxDepth := 1, childMaxChildren := 16
    childProfile := "fake", childProfileFile := none, adapterTcp := none, parentId := none
    childDepth := 0, debugRequest := none, debugArgs := "\x7b\x7d" }
  instanceId := "editor"
  adapterCmd := ["fake-adapter"]
  child := some (
    { config := { autoSpawn := true, maxChildren := 16, maxDepth := 1, profile := .fakePreset }
      remainingDepth := 1
      parent := { backend := .stdio, adapterCmd := ["fake-adapter"], tcpEndpoint := none } },
    { exe := "dap-proxy", scope := none, parentInstanceId := "editor", childProfile := "fake"
      childProfileFile := none, childMaxChildren := 16 })
  built := rfl

def launchPlan : ChildSpawnPlan where
  backend := .stdio "fake-adapter" []
  debugRequest := "launch"
  debugArguments := .obj []
  childDepth := 0

def launched : Proxy where
  host := exampleHost
  cli := childCli exampleHost exampleText ⟨"dap-proxy", none, "editor", "fake", none, 16⟩ launchPlan
  instanceId := "child"
  adapterCmd := ["fake-adapter"]
  child := none
  built := rfl

lemma launched_childOf_editor : ChildOf exampleText editor launched := by
  refine ⟨_, _, 0, ⟨"launch", .obj []⟩, launchPlan, rfl, rfl, ?_⟩
  rw [parse_spawnCommand]
  exact if_pos (by decide)

theorem launched_within_depth : WithinDepth exampleText 1 1 launched := by
  have hgeneration : Generation exampleText editor 1 launched :=
    .child .root launched_childOf_editor
  exact nesting_bounded ⟨rfl, Bool.false_ne_true, rfl⟩ hgeneration

end Example

end DappyCore.ProxyProcess
