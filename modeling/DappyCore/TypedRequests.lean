import DappyCore.ControlSteps
import DappyCore.Session

/-!
The typed requests of the control client: each builds its arguments, and takes the body of the
response.
-/

namespace DappyCore.Control

open Lib Lib.Effect Json Protocol

/-- A source breakpoint sent to `setBreakpoints`. -/
structure SourceBreakpointSpec where
  line : ℤ
  condition : Option String
  hitCondition : Option String
  logMessage : Option String

/-- An exception breakpoint filter sent to `setExceptionBreakpoints`. -/
structure ExceptionBreakpointSpec where
  filter : String
  condition : Option String

/-- A request, and the body of its response. -/
def requestBody (command : String) (arguments : Option Value) : Client Value := do
  let message ← dapRequest command arguments
  responseBody message.1

/-- `if let Some(x) = x { args[key] = json!(x); }`. -/
def withSome (arguments : Value) (key : String) : Option Value → Value
  | some value => arguments.set key value
  | none => arguments

def threads : Client Value := requestBody "threads" (some (.obj []))

def stackTraceWithOptions (threadId : ℤ) (startFrame levels : Option ℤ) : Client Value :=
  requestBody "stackTrace" <| some <|
    withSome
      (withSome (.obj [("threadId", .int threadId)]) "startFrame" (startFrame.map .int))
      "levels" (levels.map .int)

def stackTrace (threadId : ℤ) : Client Value := stackTraceWithOptions threadId none none

def readMemory (memoryReference : String) (count : ℤ) (offset : Option ℤ) : Client Value :=
  requestBody "readMemory" <| some <|
    withSome (.obj [("memoryReference", .string memoryReference), ("count", .int count)])
      "offset" (offset.map .int)

def writeMemory (memoryReference dataBase64 : String) (offset : Option ℤ)
    (allowPartial : Option Bool) : Client Value :=
  requestBody "writeMemory" <| some <|
    withSome
      (withSome (.obj [("memoryReference", .string memoryReference), ("data", .string dataBase64)])
        "offset" (offset.map .int))
      "allowPartial" (allowPartial.map .bool)

def SourceBreakpointSpec.toValue (bp : SourceBreakpointSpec) : Value :=
  withSome
    (withSome
      (withSome (.obj [("line", .int bp.line)]) "condition" (bp.condition.map .string))
      "hitCondition" (bp.hitCondition.map .string))
    "logMessage" (bp.logMessage.map .string)

def setBreakpoints (source : String) (breakpoints : List SourceBreakpointSpec) : Client Value :=
  requestBody "setBreakpoints" <| some <| .obj
    [("source", .obj [("path", .string source)]),
      ("breakpoints", .array (breakpoints.map SourceBreakpointSpec.toValue))]

def scopes (frameId : ℤ) : Client Value :=
  requestBody "scopes" (some (.obj [("frameId", .int frameId)]))

def «variables» (variablesReference : ℤ) : Client Value :=
  requestBody "variables" (some (.obj [("variablesReference", .int variablesReference)]))

def evaluate (expression : String) (frameId : Option ℤ) : Client Value :=
  requestBody "evaluate" <| some <|
    withSome (.obj [("expression", .string expression)]) "frameId" (frameId.map .int)

def setVariable (name value : String) (variablesReference : ℤ) : Client Value :=
  requestBody "setVariable" <| some <| .obj
    [("variablesReference", .int variablesReference), ("name", .string name),
      ("value", .string value)]

def setExpression (expression value : String) (frameId : Option ℤ) : Client Value :=
  requestBody "setExpression" <| some <|
    withSome (.obj [("expression", .string expression), ("value", .string value)])
      "frameId" (frameId.map .int)

def setFunctionBreakpoints (names : List String) : Client Value :=
  requestBody "setFunctionBreakpoints" <| some <| .obj
    [("breakpoints", .array (names.map fun name => .obj [("name", .string name)]))]

def breakpointLocations (source : String) (line : ℤ) (endLine : Option ℤ) : Client Value :=
  requestBody "breakpointLocations" <| some <|
    withSome (.obj [("source", .obj [("path", .string source)]), ("line", .int line)])
      "endLine" (endLine.map .int)

def gotoTargets (source : String) (line : ℤ) : Client Value :=
  requestBody "gotoTargets" <| some <| .obj
    [("source", .obj [("path", .string source)]), ("line", .int line)]

def goto (threadId targetId : ℤ) : Client Value :=
  requestBody "goto" <| some <| .obj
    [("threadId", .int threadId), ("targetId", .int targetId)]

def completions (text : String) (column : ℤ) (frameId : Option ℤ) : Client Value :=
  requestBody "completions" <| some <|
    withSome (.obj [("text", .string text), ("column", .int column)])
      "frameId" (frameId.map .int)

def restartFrame (frameId : ℤ) : Client Value :=
  requestBody "restartFrame" (some (.obj [("frameId", .int frameId)]))

def disassemble (memoryReference : String) (instructionOffset instructionCount : ℤ) :
    Client Value :=
  requestBody "disassemble" <| some <| .obj
    [("memoryReference", .string memoryReference), ("offset", .int instructionOffset),
      ("instructionCount", .int instructionCount)]

def setInstructionBreakpoints (breakpoints : List Value) : Client Value :=
  requestBody "setInstructionBreakpoints" (some (.obj [("breakpoints", .array breakpoints)]))

def setDataBreakpoints (breakpoints : List Value) : Client Value :=
  requestBody "setDataBreakpoints" (some (.obj [("breakpoints", .array breakpoints)]))

/-- The conditions of the filters that have one. -/
def filterOptions (breakpoints : List ExceptionBreakpointSpec) : List Value :=
  breakpoints.filterMap fun bp => bp.condition.map fun condition =>
    .obj [("filterId", .string bp.filter), ("condition", .string condition)]

def setExceptionBreakpoints (breakpoints : List ExceptionBreakpointSpec)
    (supportsFilterOptions : Bool) : Client Value :=
  let arguments : Value :=
    .obj [("filters", .array (breakpoints.map fun bp => .string bp.filter))]
  let options := filterOptions breakpoints
  requestBody "setExceptionBreakpoints" <| some <|
    if supportsFilterOptions ∧ options ≠ [] then
      arguments.set "filterOptions" (.array options)
    else arguments

/-- DAP request command for plugin metadata lookup. -/
def dapProxyPluginInfoCommand : String := "dapProxyPluginInfo"

/-- Fetch proxy plugin metadata (`dapProxyPluginInfo` extension). -/
def proxyPluginInfo : Client Value := requestBody dapProxyPluginInfoCommand none

/-- Fetch the multiplexer's tracked breakpoint state (editor + adapter). -/
def sessionBreakpointSnapshot : Client Value :=
  requestBody Session.breakpointSnapshotCommand none

/-- The typed requests. -/
inductive TypedRequest
  | threads
  | stackTrace (threadId : ℤ)
  | stackTraceWithOptions (threadId : ℤ) (startFrame levels : Option ℤ)
  | readMemory (memoryReference : String) (count : ℤ) (offset : Option ℤ)
  | writeMemory (memoryReference dataBase64 : String) (offset : Option ℤ)
      (allowPartial : Option Bool)
  | setBreakpoints (source : String) (breakpoints : List SourceBreakpointSpec)
  | scopes (frameId : ℤ)
  | «variables» (variablesReference : ℤ)
  | evaluate (expression : String) (frameId : Option ℤ)
  | setVariable (name value : String) (variablesReference : ℤ)
  | setExpression (expression value : String) (frameId : Option ℤ)
  | setFunctionBreakpoints (names : List String)
  | breakpointLocations (source : String) (line : ℤ) (endLine : Option ℤ)
  | gotoTargets (source : String) (line : ℤ)
  | goto (threadId targetId : ℤ)
  | completions (text : String) (column : ℤ) (frameId : Option ℤ)
  | restartFrame (frameId : ℤ)
  | disassemble (memoryReference : String) (instructionOffset instructionCount : ℤ)
  | setInstructionBreakpoints (breakpoints : List Value)
  | setDataBreakpoints (breakpoints : List Value)
  | setExceptionBreakpoints (breakpoints : List ExceptionBreakpointSpec)
      (supportsFilterOptions : Bool)
  | proxyPluginInfo
  | sessionBreakpointSnapshot

def TypedRequest.call : TypedRequest → Client Value
  | .threads => Control.threads
  | .stackTrace t => Control.stackTrace t
  | .stackTraceWithOptions t s l => Control.stackTraceWithOptions t s l
  | .readMemory m n o => Control.readMemory m n o
  | .writeMemory m d o p => Control.writeMemory m d o p
  | .setBreakpoints s bps => Control.setBreakpoints s bps
  | .scopes f => Control.scopes f
  | .«variables» v => Control.«variables» v
  | .evaluate e f => Control.evaluate e f
  | .setVariable n v r => Control.setVariable n v r
  | .setExpression e v f => Control.setExpression e v f
  | .setFunctionBreakpoints ns => Control.setFunctionBreakpoints ns
  | .breakpointLocations s l e => Control.breakpointLocations s l e
  | .gotoTargets s l => Control.gotoTargets s l
  | .goto t i => Control.goto t i
  | .completions t c f => Control.completions t c f
  | .restartFrame f => Control.restartFrame f
  | .disassemble m o n => Control.disassemble m o n
  | .setInstructionBreakpoints bps => Control.setInstructionBreakpoints bps
  | .setDataBreakpoints bps => Control.setDataBreakpoints bps
  | .setExceptionBreakpoints bps s => Control.setExceptionBreakpoints bps s
  | .proxyPluginInfo => Control.proxyPluginInfo
  | .sessionBreakpointSnapshot => Control.sessionBreakpointSnapshot

/-- Each of them is a request of some command with some arguments. -/
lemma TypedRequest.exists_call (r : TypedRequest) :
    ∃ command arguments, r.call = requestBody command arguments := by
  cases r <;> exact ⟨_, _, rfl⟩

/-- **A typed request comes to a result** exactly when the connection brings a response to it,
and the result is the body of that response. -/
theorem requestBody_eq_ok {c d : ControlClient} {command : String} {arguments : Option Value}
    {body : Value} :
    requestBody command arguments c = .ok body d ↔
      ∃ l r rest, Answers c l (.response r) rest ∧ body = r.body.getD .null ∧
        d = { c.sent command arguments with inbox := c.inbox.dropped l rest } := by
  rw [requestBody, bind_eq_ok]
  constructor
  · rintro ⟨x, u, hx, h⟩
    obtain ⟨l, m, rest, ha, rfl, rfl⟩ := dapRequest_eq_ok.mp hx
    cases m with
    | response r =>
      simp only [responseBody, pure_apply, EStateM.Result.ok.injEq] at h
      obtain ⟨rfl, rfl⟩ := h
      exact ⟨l, r, rest, ha, rfl, rfl⟩
    | _ => exact absurd ha.2.fits Bool.false_ne_true
  · rintro ⟨l, r, rest, ha, rfl, rfl⟩
    exact ⟨_, _, dapRequest_eq_ok.mpr ⟨l, _, rest, ha, rfl, rfl⟩, rfl⟩

end DappyCore.Control
