import DappyCore.MuxBridge
import DappyCore.TransportSteps

/-!
The proxy as a process: the options it is started with, the bridge it builds from them, and the
command line it starts a child with.
-/

namespace DappyCore.ProxyProcess

open Json Transport ChildSession MuxBridge

/-! ### Options -/

/-- A command line, option by option: the name of each, and the values that follow it. -/
abbrev CommandLine := List (String × List String)

structure Cli where
  stdio : Bool
  headless : Bool
  adapterCmd : Option (List String)
  controlPort : ℕ
  scope : Option String
  childSessions : Bool
  childMaxDepth : ℕ
  childMaxChildren : ℕ
  childProfile : String
  childProfileFile : Option String
  adapterTcp : Option String
  parentId : Option String
  childDepth : ℕ
  debugRequest : Option String
  debugArgs : String

/-- What a process finds where it runs: the variable `DAP_SCOPE_ID`, its own executable, and what
comes of reading a file that describes a profile. -/
structure Host where
  scopeId : Option String
  currentExe : Except String String
  profileFile : String → Except String ChildSessionProfile

def u16Max : ℕ := 0xffff

def u32Max : ℕ := 0xffffffff

namespace CommandLine

def flag (line : CommandLine) (name : String) : Bool := (line.lookup name).isSome

def value (line : CommandLine) (name : String) : Option String :=
  (line.lookup name).bind List.head?

/-- A number that is not above the largest of its type, or the default. -/
def number (line : CommandLine) (name : String) (max default : ℕ) : Option ℕ :=
  match line.value name with
  | none => some default
  | some text => (parseUsize text.toList).filter (· ≤ max)

end CommandLine

namespace Cli

/-- `Cli::parse`, on a command line that has each option once. -/
def parse (host : Host) (line : CommandLine) : Option Cli := do
  let controlPort ← line.number "--control-port" u16Max 0
  let childMaxDepth ← line.number "--child-max-depth" u32Max 1
  let childMaxChildren ← line.number "--child-max-children" u32Max 16
  let childDepth ← line.number "--child-depth" u32Max 0
  if (line.flag "--headless" ∧ line.flag "--stdio") ∨
      (line.flag "--adapter-tcp" ∧ line.flag "--adapter-cmd") then none
  else
    return {
      stdio := line.flag "--stdio"
      headless := line.flag "--headless"
      adapterCmd := line.lookup "--adapter-cmd"
      controlPort
      scope := (line.value "--scope").or host.scopeId
      childSessions := line.flag "--child-sessions"
      childMaxDepth
      childMaxChildren
      childProfile := (line.value "--child-profile").getD "fake"
      childProfileFile := line.value "--child-profile-file"
      adapterTcp := line.value "--adapter-tcp"
      parentId := line.value "--parent-id"
      childDepth
      debugRequest := line.value "--debug-request"
      debugArgs := (line.value "--debug-args").getD "\x7b\x7d" }

/-- The depth that is left to a proxy: a child is told it, an editor's proxy begins with it. -/
def remainingDepth (cli : Cli) : ℕ := if cli.headless then cli.childDepth else cli.childMaxDepth

end Cli

/-! ### The bridge -/

def loadChildProfile (host : Host) (cli : Cli) : Except String ChildSessionProfile :=
  match cli.childProfileFile with
  | some path => host.profileFile path
  | none =>
    match ChildSessionProfile.fromPreset cli.childProfile with
    | some profile => .ok profile
    | none => .error ("unknown child profile preset '" ++ cli.childProfile ++
        "'; expected fake, debugpy, or lldb-dap")

def parentContext (cli : Cli) (adapterCmd : List String) : ParentSessionContext where
  backend := if cli.adapterTcp.isSome then .tcp else .stdio
  adapterCmd
  tcpEndpoint := cli.adapterTcp

/-- What the processes that a proxy spawns are started with. -/
structure ChildProcessSupervisor where
  exe : String
  scope : Option String
  parentInstanceId : String
  childProfile : String
  childProfileFile : Option String
  childMaxChildren : ℕ

def ChildProcessSupervisor.new (host : Host) (parentInstanceId : String) (scope : Option String)
    (childProfile : String) (childProfileFile : Option String) (childMaxChildren : ℕ) :
    Except String ChildProcessSupervisor := do
  let exe ← host.currentExe
  return { exe, scope, parentInstanceId, childProfile, childProfileFile, childMaxChildren }

def buildChildSessionBridge (host : Host) (cli : Cli) (parentInstanceId : String)
    (parentAdapterCmd : List String) :
    Except String (Option (ChildSessionBridge × ChildProcessSupervisor)) :=
  let remainingDepth := cli.remainingDepth
  if remainingDepth = 0 then .ok none
  else if ¬ cli.headless ∧ ¬ cli.childSessions then .ok none
  else do
    let profile ← loadChildProfile host cli
    let supervisor ← ChildProcessSupervisor.new host parentInstanceId cli.scope cli.childProfile
      cli.childProfileFile cli.childMaxChildren
    let config :=
      { autoSpawn := true
        maxChildren := cli.childMaxChildren
        maxDepth := remainingDepth
        profile }
    let parent := parentContext cli parentAdapterCmd
    return some ({ config, remainingDepth, parent }, supervisor)

/-! ### Children -/

/-- The command line of `ProxyChildSpawner::spawn`; `toText` is `Value::to_string`. -/
def spawnCommand (toText : Value → String) (supervisor : ChildProcessSupervisor)
    (plan : ChildSpawnPlan) : CommandLine :=
  [("--headless", []), ("--control-port", ["0"]),
    ("--parent-id", [supervisor.parentInstanceId]),
    ("--child-profile", [supervisor.childProfile])] ++
  (match supervisor.childProfileFile with
    | some path => [("--child-profile-file", [path])]
    | none => []) ++
  (if 0 < plan.childDepth then [("--child-sessions", [])] else []) ++
  [("--child-depth", [toString plan.childDepth]),
    ("--child-max-children", [toString supervisor.childMaxChildren]),
    ("--debug-request", [plan.debugRequest]),
    ("--debug-args", [toText plan.debugArguments])] ++
  (match plan.backend with
    | .stdio command args => [("--adapter-cmd", command :: args)]
    | .tcp host port => [("--adapter-tcp", [host ++ ":" ++ toString port])]) ++
  (match supervisor.scope with
    | some scope => [("--scope", [scope])]
    | none => [])

/-- A proxy that runs: with its options, its bridge could be built. -/
structure Proxy where
  host : Host
  cli : Cli
  instanceId : String
  adapterCmd : List String
  child : Option (ChildSessionBridge × ChildProcessSupervisor)
  built : buildChildSessionBridge host cli instanceId adapterCmd = .ok child

/-- A proxy that an editor runs, which may spawn children. -/
def EditorRoot (cli : Cli) : Prop := cli.stdio ∧ ¬ cli.headless ∧ cli.childSessions

/-- A child of a proxy: it runs with the command line for a plan that the proxy came to. -/
def ChildOf (toText : Value → String) (parent child : Proxy) : Prop :=
  ∃ bridge supervisor activeChildren args plan,
    parent.child = some (bridge, supervisor) ∧
      resolveChildSpawn toText bridge.config bridge.remainingDepth activeChildren bridge.parent
        args = .ok plan ∧
      Cli.parse child.host (spawnCommand toText supervisor plan) = some child.cli

end DappyCore.ProxyProcess
