import DappyCore.Lib.Effect
import DappyCore.Manifest

/-!
Child sessions: how a `startDebugging` reverse request is resolved, by the rules of a profile,
into a plan for a further proxy, and how it is answered.
-/

namespace DappyCore.ChildSession

open Lib.Effect Json Protocol Transport Plugin

/-! ### Profiles -/

inductive ParentBackendKind | stdio | tcp
  deriving DecidableEq

structure RuleCondition where
  request : Option String
  «exists» : List String
  parentBackend : List ParentBackendKind

inductive PortTemplate
  | number (port : ℕ)
  | template (expr : String)

inductive ChildBackendTemplate
  | stdio (cmd : String) (args : List String)
  | tcp (host : String) (port : PortTemplate)
  | parentBackend
  | inheritParentStdio

structure DebugRequestTemplate where
  request : String
  arguments : Value

structure ChildSessionRule where
  when : RuleCondition
  childBackend : ChildBackendTemplate
  debugRequest : DebugRequestTemplate

/-- Declarative profile mapping reverse requests to child backends. -/
structure ChildSessionProfile where
  rules : List ChildSessionRule
  unsupportedMessage : Option String

/-- Whether and how a proxy spawns child sessions for `startDebugging` reverse requests. -/
structure ChildSessionConfig where
  autoSpawn : Bool
  maxChildren : ℕ
  maxDepth : ℕ
  profile : ChildSessionProfile

/-- Fake adapter: inherit parent stdio adapter on `launch`. -/
def ChildSessionProfile.fakePreset : ChildSessionProfile where
  rules := [{
    when := { request := some "launch", «exists» := [], parentBackend := [] }
    childBackend := .inheritParentStdio
    debugRequest := ⟨"$\x7brequest\x7d", .string "$\x7bconfiguration\x7d"⟩ }]
  unsupportedMessage := none

/-- Subprocess connect-back: attach over TCP to `configuration.connect`. -/
def ChildSessionProfile.debugpyPreset : ChildSessionProfile where
  rules := [{
    when := {
      request := some "attach"
      «exists» := ["configuration.connect.host", "configuration.connect.port"]
      parentBackend := [] }
    childBackend :=
      .tcp "$\x7bconfiguration.connect.host\x7d" (.template "$\x7bconfiguration.connect.port\x7d")
    debugRequest := ⟨"$\x7brequest\x7d", .string "$\x7bconfiguration\x7d"⟩ }]
  unsupportedMessage := none

/-- Handoff: reuse the parent's TCP endpoint; there is no rule for a stdio parent. -/
def ChildSessionProfile.lldbDapPreset : ChildSessionProfile where
  rules := [{
    when := { request := none, «exists» := [], parentBackend := [.tcp] }
    childBackend := .parentBackend
    debugRequest := ⟨"$\x7brequest\x7d", .string "$\x7bconfiguration\x7d"⟩ }]
  unsupportedMessage := some <|
    "startDebugging unsupported for lldb-dap profile with stdio parent backend; lldb-dap " ++
      "session handoff requires a reusable tcp server endpoint"

def ChildSessionProfile.fromPreset : String → Option ChildSessionProfile
  | "fake" => some fakePreset
  | "debugpy" => some debugpyPreset
  | "lldb-dap" => some lldbDapPreset
  | _ => none

/-- Parsed `startDebugging` reverse-request arguments. -/
structure StartDebuggingArgs where
  request : String
  configuration : Value

namespace StartDebuggingArgs

/-- `serde_json::from_value`. -/
def fromValue : Value → Option StartDebuggingArgs
  | .object fields => do
    let request ← (lookupField "request" fields).bind Value.asStr
    return ⟨request, (lookupField "configuration" fields).getD .null⟩
  | .array [.string request] => some ⟨request, .null⟩
  | .array [.string request, configuration] => some ⟨request, configuration⟩
  | _ => none

/-- `serde_json::to_value`. -/
def toValue (args : StartDebuggingArgs) : Value :=
  .obj [("request", .string args.request), ("configuration", args.configuration)]

end StartDebuggingArgs

/-- Parent session metadata used when resolving child-session rules. -/
structure ParentSessionContext where
  backend : ParentBackendKind
  adapterCmd : List String
  tcpEndpoint : Option String

/-- Resolved child backend transport. -/
inductive ChildBackendPlan
  | stdio (command : String) (args : List String)
  | tcp (host : String) (port : ℕ)

/-- Resolved plan for spawning a child debug session. -/
structure ChildSpawnPlan where
  backend : ChildBackendPlan
  debugRequest : String
  debugArguments : Value
  childDepth : ℕ

/-- Result of a successful child spawn. -/
structure ChildSpawnResult where
  controlPort : ℕ
  instanceId : String

/-! ### Paths into the arguments -/

/-- A token of a JSON pointer, with its escapes resolved. -/
def unescape : List Char → List Char
  | '~' :: '1' :: rest => '/' :: unescape rest
  | '~' :: '0' :: rest => '~' :: unescape rest
  | c :: rest => c :: unescape rest
  | [] => []

def parseIndex (token : List Char) : Option ℕ :=
  if token.head? = some '+' ∨ (token.head? = some '0' ∧ token.length ≠ 1) then none
  else parseUsize token

/-- One token of a pointer. -/
def pointerStep (value : Value) (token : List Char) : Option Value :=
  match value with
  | .object fields => lookupField (String.ofList token) fields
  | .array items => (parseIndex token).bind fun index => items[index]?
  | _ => none

/-- `context.pointer(&dotted_to_pointer(path))`: the dots of the path become slashes. -/
def pointer (context : Value) (path : List Char) : Option Value :=
  if path = [] then some context
  else ((path.splitOnP fun c => c = '.' ∨ c = '/').map unescape).foldlM pointerStep context

/-! ### Templates -/

def resolveTemplateValue (expr : String) (context : Value) : Except String Value :=
  match placeholder expr with
  | none => .error ("invalid template expression: " ++ expr)
  | some path =>
    match String.ofList path with
    | "configuration" => .ok ((context.get "configuration").getD .null)
    | "request" => .ok ((context.get "request").getD .null)
    | other =>
      match pointer context path with
      | some value => .ok value
      | none => .error ("template path not found: " ++ other)

/-- `toText` is `Value::to_string`. -/
def resolveStringTemplate (toText : Value → String) (template : String) (context : Value) :
    Except String String :=
  if (placeholder template).isSome then
    match resolveTemplateValue template context with
    | .ok (.string text) => .ok text
    | .ok other => .ok (toText other)
    | .error message => .error message
  else .ok template

mutual

def resolveValueTemplate (context : Value) : Value → Except String Value
  | .string expr =>
    if (placeholder expr).isSome then resolveTemplateValue expr context else .ok (.string expr)
  | .object fields => (resolveFieldTemplates context fields []).map .object
  | .array items => (resolveItemTemplates context items).map .array
  | other => .ok other

def resolveItemTemplates (context : Value) : List Value → Except String (List Value)
  | [] => .ok []
  | item :: items =>
    match resolveValueTemplate context item with
    | .error message => .error message
    | .ok resolved => (resolveItemTemplates context items).map (resolved :: ·)

def resolveFieldTemplates (context : Value) : List (String × Value) → Fields → Except String Fields
  | [], out => .ok out
  | (key, value) :: fields, out =>
    match resolveValueTemplate context value with
    | .error message => .error message
    | .ok resolved => resolveFieldTemplates context fields (insertField key resolved out)

end

/-- `u16::try_from` on what `Value::as_u64` gives. -/
def asPort : Value → Option ℕ
  | .number (.int n) => if 0 ≤ n ∧ n < 65536 then some n.toNat else none
  | _ => none

def resolvePort (template : PortTemplate) (context : Value) : Except String ℕ :=
  match template with
  | .number port => .ok port
  | .template expr =>
    match resolveTemplateValue expr context with
    | .error message => .error message
    | .ok value =>
      match asPort value with
      | some port => .ok port
      | none => .error ("port template " ++ expr ++ " did not resolve to u16")

/-- `rsplit_once(':')`. -/
def rsplitColon (text : List Char) : Option (List Char × List Char) :=
  let after := text.rtakeWhile (· ≠ ':')
  if after.length = text.length then none
  else some ((text.rdropWhile (· ≠ ':')).dropLast, after)

def parseHostPort (endpoint : String) : Except String (String × ℕ) :=
  match rsplitColon endpoint.toList with
  | none => .error ("invalid tcp endpoint: " ++ endpoint)
  | some (host, port) =>
    match (parseUsize port).filter (· < 65536) with
    | some port => .ok (String.ofList host, port)
    | none => .error ("invalid tcp port in endpoint: " ++ endpoint)

def stripEmitStartDebugging (cmd : List String) : List String :=
  cmd.filter (· ≠ "--emit-start-debugging")

/-! ### Resolving -/

def ruleMatches (rule : ChildSessionRule) (args : StartDebuggingArgs) (context : Value)
    (parent : ParentSessionContext) : Bool :=
  (∀ expected ∈ rule.when.request, args.request = expected) ∧
    (rule.when.exists.all fun path => (pointer context path.toList).isSome) ∧
    (rule.when.parentBackend = [] ∨ parent.backend ∈ rule.when.parentBackend)

def backendCompatible (rule : ChildSessionRule) (parent : ParentSessionContext) : Bool :=
  match rule.childBackend with
  | .parentBackend => parent.backend = .tcp
  | .inheritParentStdio => parent.backend = .stdio
  | .stdio _ _ | .tcp _ _ => true

def buildChildBackend (toText : Value → String) (template : ChildBackendTemplate)
    (parent : ParentSessionContext) (context : Value) : Except String ChildBackendPlan :=
  match template with
  | .stdio cmd args => do
    let command ← resolveStringTemplate toText cmd context
    let args ← args.mapM fun arg => resolveStringTemplate toText arg context
    return .stdio command args
  | .tcp host port => do
    let host ← resolveStringTemplate toText host context
    let port ← resolvePort port context
    return .tcp host port
  | .parentBackend =>
    match parent.tcpEndpoint with
    | none => .error "parent has no tcp endpoint"
    | some endpoint => do
      let (host, port) ← parseHostPort endpoint
      return .tcp host port
  | .inheritParentStdio =>
    match stripEmitStartDebugging parent.adapterCmd with
    | [] => .error "parent adapter command is empty"
    | command :: args => .ok (.stdio command args)

def resolveDebugRequest (toText : Value → String) (template : DebugRequestTemplate)
    (context : Value) : Except String (String × Value) := do
  let request ← resolveStringTemplate toText template.request context
  let arguments ← resolveValueTemplate context template.arguments
  return (request, arguments)

def disabledText : String := "child sessions are disabled"

def depthText : String := "max child depth reached"

def limitText : String := "max concurrent children reached"

/-- The first rule for the request that this proxy's backend allows. -/
def findRule (config : ChildSessionConfig) (parent : ParentSessionContext)
    (args : StartDebuggingArgs) : Option ChildSessionRule :=
  config.profile.rules.find? fun rule =>
    ruleMatches rule args args.toValue parent && backendCompatible rule parent

/-- What is left to resolve once the request is admitted. -/
def planChild (toText : Value → String) (config : ChildSessionConfig) (remainingDepth : ℕ)
    (parent : ParentSessionContext) (args : StartDebuggingArgs) : Except String ChildSpawnPlan :=
  let context := args.toValue
  match findRule config parent args with
  | none => .error (config.profile.unsupportedMessage.getD "no matching child-session rule")
  | some rule => do
    let backend ← buildChildBackend toText rule.childBackend parent context
    let (debugRequest, debugArguments) ← resolveDebugRequest toText rule.debugRequest context
    return { backend, debugRequest, debugArguments, childDepth := remainingDepth - 1 }

/-- Resolve a `startDebugging` reverse request into a child spawn plan. -/
def resolveChildSpawn (toText : Value → String) (config : ChildSessionConfig)
    (remainingDepth activeChildren : ℕ) (parent : ParentSessionContext)
    (args : StartDebuggingArgs) : Except String ChildSpawnPlan :=
  if ¬ config.autoSpawn then .error disabledText
  else if remainingDepth = 0 then .error depthText
  else if config.maxChildren ≤ activeChildren then .error limitText
  else planChild toText config remainingDepth parent args

section Resolving

variable {toText : Value → String} {config : ChildSessionConfig}
  {remainingDepth activeChildren : ℕ} {parent : ParentSessionContext} {args : StartDebuggingArgs}
  {plan : ChildSpawnPlan}

/-- **A request comes to a plan** where the switch, the depth and the limit admit it and it is
planned. -/
theorem resolveChildSpawn_eq_ok :
    resolveChildSpawn toText config remainingDepth activeChildren parent args = .ok plan ↔
      config.autoSpawn ∧ 0 < remainingDepth ∧ activeChildren < config.maxChildren ∧
        planChild toText config remainingDepth parent args = .ok plan := by
  unfold resolveChildSpawn
  constructor
  · intro h
    split_ifs at h with hauto hdepth hactive
    exact ⟨hauto, Nat.pos_of_ne_zero hdepth, Nat.lt_of_not_le hactive, h⟩
  · rintro ⟨hauto, hdepth, hactive, h⟩
    rw [if_neg (not_not.mpr hauto), if_neg (Nat.ne_of_gt hdepth),
      if_neg (Nat.not_le_of_lt hactive), h]

lemma childDepth_of_planChild
    (h : planChild toText config remainingDepth parent args = .ok plan) :
    plan.childDepth = remainingDepth - 1 := by
  unfold planChild at h
  cases hrule : findRule config parent args with
  | none =>
    rw [hrule] at h
    cases h
  | some rule =>
    rw [hrule] at h
    obtain ⟨backend, -, h⟩ := except_bind_eq_ok.mp h
    obtain ⟨request, -, h⟩ := except_bind_eq_ok.mp h
    rw [← Except.ok.inj h]

end Resolving

/-! ### Answers -/

/-- The answer that declines a reverse request. -/
def failReverse (request : Request) (message : String) : Message :=
  .response
    { seq := 0, requestSeq := request.seq, success := false, command := some request.command,
      message := some message, body := none }

def successReverseResponse (request : Request) : Message :=
  .response
    { seq := 0, requestSeq := request.seq, success := true, command := some "startDebugging",
      message := none, body := none }

/-- Decline reverse requests that this headless client does not handle. The name is one that
needs no escapes in quotes. -/
def declineReverseRequest (request : Request) : Message :=
  failReverse request ("reverse request \"" ++ request.command ++ "\" is not supported")

/-- Abstraction over spawning a child proxy process. -/
abbrev ChildSessionSpawner := ChildSpawnPlan → Except String ChildSpawnResult

/-- Handle a `startDebugging` reverse request, spawning a child when configured. The answer,
and the number of active children then. -/
def handleStartDebugging (toText : Value → String) (request : Request)
    (config : ChildSessionConfig) (remainingDepth : ℕ) (parent : ParentSessionContext)
    (spawner : ChildSessionSpawner) (activeChildren : ℕ) : Message × ℕ :=
  match request.arguments.bind StartDebuggingArgs.fromValue with
  | none => (failReverse request "invalid startDebugging arguments", activeChildren)
  | some args =>
    match resolveChildSpawn toText config remainingDepth activeChildren parent args with
    | .error message => (failReverse request message, activeChildren)
    | .ok plan =>
      match spawner plan with
      | .ok _ => (successReverseResponse request, activeChildren + 1)
      | .error err =>
        (failReverse request ("failed to spawn child session: " ++ err), activeChildren)

end DappyCore.ChildSession
