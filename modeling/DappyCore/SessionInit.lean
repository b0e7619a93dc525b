import DappyCore.ControlSteps
import DappyCore.Manifest

/-!
How a session is started: `initialize`, `launch` or `attach`, and `configurationDone`, with the
events between them, either in the default order or in the steps that a plugin's manifest lists.
-/

namespace DappyCore.Control

open Lib Lib.Effect Json Protocol Transport Execution Plugin

/-- Configuration for a headless DAP initialization sequence. -/
structure SessionInitConfig where
  program : String
  adapterId : Option String
  clientId : String
  manifest : Option PluginManifest
  launchOverrides : Option Value

/-- Known entry location after init. -/
structure SessionEntryLocation where
  path : String
  line : ℤ
  frameId : Option ℤ

/-- Result of a completed headless initialization. -/
structure SessionInitResult where
  ready : Bool
  stopReason : Option String
  threadId : Option ℤ
  entryLocation : Option SessionEntryLocation
  capabilities : AdapterCapabilities

/-- `.await.context(..)`. -/
def withContext {α : Type} (text : String) (x : Client α) : Client α := fun c =>
  match x c with
  | .error (.error e) d => .error (.error (.context text e)) d
  | r => r

def setCapabilities (capabilities : AdapterCapabilities) : Client Unit := fun c =>
  .ok () { c with capabilities }

def ofExcept {α : Type} : Except Error α → Client α
  | .ok a => pure a
  | .error e => bail e

/-! ### Arguments -/

def mergeLaunchArguments (base overrides : Value) : Value := mergeObjects base overrides

/-- Build DAP `initialize` arguments for a frontend or headless client. -/
def buildInitializeArguments (env : Environment) (config : SessionInitConfig) : Value :=
  match config.manifest with
  | some manifest => manifest.buildInitializeArguments env config.clientId config.adapterId
  | none =>
    PluginManifest.initializeArguments config.clientId (config.adapterId.getD "dap-proxy")

/-- Build DAP `launch` arguments for a frontend or headless client. -/
def buildLaunchArguments (env : Environment) (config : SessionInitConfig) : Value :=
  let args :=
    match config.manifest with
    | some manifest => manifest.buildLaunchArguments env config.program
    | none => .obj [("program", .string config.program)]
  match config.launchOverrides with
  | some overrides => mergeLaunchArguments args overrides
  | none => args

def stepArguments (env : Environment) (ctx : TemplateContext) (step : InitStep) (request : String)
    (launchArguments : Value) : Option Value :=
  if step.useLaunchArguments then some launchArguments
  else
    match step.arguments with
    | some arguments => resolveValue env ctx arguments
    | none => if step.request = some request then some launchArguments else some (.obj [])

def resolveEntryLocation (env : Environment) (ctx : TemplateContext) (record : RecordEntry) :
    Except Error SessionEntryLocation :=
  match (resolveValue env ctx (.string record.path)).bind Value.asStr with
  | some path => .ok { path, line := record.line, frameId := some 1 }
  | none => .error (.msg ("resolve entry path template " ++ record.path))

/-! ### Sequences -/

def readUntilEvent (name : String) (timeout : ℕ) : Client Received := waitForEvent name timeout

def runDefaultInitSequence (request : String) (arguments : Value) : Client Unit := do
  let _ ← withContext request (dapRequestPreserveEvents request (some arguments))
  let _ ← withContext "wait for initialized event" (readUntilEvent "initialized" 30)
  let _ ← withContext "configurationDone"
    (dapRequestPreserveEvents "configurationDone" (some (.obj [])))
  return ()

/-- The entry a step records, if it records one. -/
def recordEntry (env : Environment) (ctx : TemplateContext) (step : InitStep)
    (entry : Option SessionEntryLocation) : Client (Option SessionEntryLocation) :=
  match step.recordEntry with
  | some record => do
    let location ← ofExcept (resolveEntryLocation env ctx record)
    return some location
  | none => return entry

def awaitNamed (waitFor : String) : Client Received :=
  withContext ("wait for " ++ waitFor ++ " response") (waitForResponseNamed waitFor)

/-- One step of a manifest, with the entry location recorded so far. -/
def runInitStep (env : Environment) (ctx : TemplateContext) (request : String)
    (launchArguments : Value) (step : InitStep) (entry : Option SessionEntryLocation) :
    Client (Option SessionEntryLocation) :=
  match step.request with
  | none =>
    match step.waitForResponse with
    | some waitFor => do
      let _ ← awaitNamed waitFor
      return entry
    | none => return entry
  | some command =>
    let arguments := stepArguments env ctx step request launchArguments
    match step.waitForEvent with
    | some eventName => do
      let seq ← withContext (command ++ " waiting for " ++ eventName)
        (sendDapRequestAndWaitForEvent command arguments eventName)
      let entry ← recordEntry env ctx step entry
      if step.waitForResponse = some command then
        let _ ← withContext ("wait for " ++ command ++ " response") (waitForResponseSeq seq)
        return entry
      else return entry
    | none => do
      let _ ← withContext command (dapRequestPreserveEvents command arguments)
      let entry ← recordEntry env ctx step entry
      match step.waitForResponse with
      | some waitFor =>
        let _ ← awaitNamed waitFor
        return entry
      | none => return entry

def runInitSteps (env : Environment) (ctx : TemplateContext) (request : String)
    (launchArguments : Value) :
    List InitStep → Option SessionEntryLocation → Client (Option SessionEntryLocation)
  | [], entry => return entry
  | step :: steps, entry => do
    let entry ← runInitStep env ctx request launchArguments step entry
    runInitSteps env ctx request launchArguments steps entry

def runManifestInitSequence (env : Environment) (config : SessionInitConfig)
    (manifest : PluginManifest) (request : String) (launchArguments : Value) :
    Client (Option SessionEntryLocation) :=
  runInitSteps env (manifest.templateContext env config.program) request launchArguments
    manifest.initSteps none

/-- The sequence between `initialize` and the wait for the stop. -/
def runInitSequence (env : Environment) (config : SessionInitConfig) (request : String)
    (arguments : Value) : Client (Option SessionEntryLocation) :=
  match config.manifest with
  | some manifest =>
    if manifest.initSteps.isEmpty then do
      runDefaultInitSequence request arguments
      return none
    else runManifestInitSequence env config manifest request arguments
  | none => do
    runDefaultInitSequence request arguments
    return none

/-- The result once the program has stopped. -/
def initResult (capabilities : AdapterCapabilities) (entryLocation : Option SessionEntryLocation)
    (stopped : Message) : SessionInitResult where
  ready := true
  stopReason := bodyStr (eventBody stopped) "reason"
  threadId := ((eventBody stopped).bind fun b => b.get "threadId").bind Value.asI64
  entryLocation
  capabilities

/-- Run initialize → attach/launch → initialized → configurationDone → stopped. -/
def runDebugRequest (env : Environment) (config : SessionInitConfig) (request : String)
    (arguments : Value) : Client SessionInitResult := do
  let initMessage ← withContext "initialize"
    (dapRequestPreserveEvents "initialize" (some (buildInitializeArguments env config)))
  let capabilities ← ofExcept (AdapterCapabilities.fromInitializeMessage initMessage.1)
  setCapabilities capabilities
  let entryLocation ← runInitSequence env config request arguments
  let stopped ← withContext "wait for stopped event" (readUntilEvent "stopped" 30)
  return initResult capabilities entryLocation stopped.1

/-- Run initialize → launch → initialized → configurationDone → stopped over a control client. -/
def runSessionInit (env : Environment) (config : SessionInitConfig) :
    Client SessionInitResult :=
  let request := (config.manifest.map (·.launchRequestName)).getD "launch"
  runDebugRequest env config request (buildLaunchArguments env config)

end DappyCore.Control
