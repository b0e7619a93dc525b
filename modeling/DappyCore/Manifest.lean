import DappyCore.Paths
import DappyCore.Transport

/-!
Plugin manifests: the placeholders in them, and the requests they describe that start a session.
-/

namespace DappyCore.Plugin

open Json Transport Paths

/-! ### Placeholders -/

/-- Inputs for the placeholders in plugin manifests. -/
structure TemplateContext where
  program : String
  programAbs : Option String
  programParent : Option String
  pluginId : String

/-- What the file system and the environment say: what comes of `Path::canonicalize`, and the value
of a variable. -/
structure Environment where
  canonicalize : String → Option String
  var : String → Option String

/-- The absolute path of a program, and the directory that it is in. -/
def Environment.resolveProgramPaths (env : Environment) (path : String) :
    Option String × Option String :=
  match env.canonicalize path with
  | some abs => (some abs, parent abs)
  | none =>
    let cwd := ((parent path).filter (· ≠ "")).bind env.canonicalize
    let programAbs :=
      match cwd, fileName path.toList with
      | some cwd, some file =>
        if isAbsolute path then none else some (join cwd (String.ofList file))
      | _, _ => none
    (programAbs, cwd)

def TemplateContext.new (env : Environment) (program pluginId : String) : TemplateContext :=
  let (programAbs, programParent) := env.resolveProgramPaths program
  { program, programAbs, programParent, pluginId }

/-- What stands between the braces of a placeholder. -/
def placeholder (text : String) : Option (List Char) :=
  match ['$', '\x7b'].isPrefixOf? text.toList with
  | some rest => if rest.getLast? = some '\x7d' then some rest.dropLast else none
  | none => none

def resolveString (env : Environment) (ctx : TemplateContext) (text : String) : Option String :=
  match placeholder text with
  | none => some text
  | some inner =>
    match String.ofList (trim inner) with
    | "program" => some ctx.program
    | "program.abs" => some (ctx.programAbs.getD ctx.program)
    | "program.parent" | "cwd" => ctx.programParent
    | "plugin.id" => some ctx.pluginId
    | other =>
      match "env:".toList.isPrefixOf? other.toList with
      | some name => env.var (String.ofList name)
      | none => some text

mutual

/-- Recursively resolve the placeholders in JSON values. -/
def resolveValue (env : Environment) (ctx : TemplateContext) : Value → Option Value
  | .string text => (resolveString env ctx text).map .string
  | .object fields => some (.object (resolveFields env ctx fields []))
  | .array items => some (.array (resolveItems env ctx items))
  | other => some other

/-- An item that is not resolved is left out. -/
def resolveItems (env : Environment) (ctx : TemplateContext) : List Value → List Value
  | [] => []
  | item :: items =>
    match resolveValue env ctx item with
    | some resolved => resolved :: resolveItems env ctx items
    | none => resolveItems env ctx items

/-- A field whose value is not resolved is left out. -/
def resolveFields (env : Environment) (ctx : TemplateContext) :
    List (String × Value) → Fields → Fields
  | [], out => out
  | (key, child) :: fields, out =>
    match resolveValue env ctx child with
    | some resolved => resolveFields env ctx fields (insertField key resolved out)
    | none => resolveFields env ctx fields out

end

/-! ### Manifests -/

structure InitializeSpec where
  adapterId : Option String
  defaults : Option Value

structure LaunchSpec where
  request : String
  defaults : Option Value
  fields : Option Value

structure RecordEntry where
  path : String
  line : ℤ

structure InitStep where
  request : Option String
  useLaunchArguments : Bool
  arguments : Option Value
  waitForEvent : Option String
  waitForResponse : Option String
  recordEntry : Option RecordEntry

structure InitSpec where
  steps : List InitStep

/-- Declarative plugin metadata, as far as a session is routed and started by it. -/
structure PluginManifest where
  id : String
  launchTypes : List String
  fileExtensions : List String
  initializeSpec : Option InitializeSpec
  launch : Option LaunchSpec
  init : Option InitSpec

/-- The fields of one object put into another. -/
def mergeObjects (target patch : Value) : Value :=
  match target, patch with
  | .object fields, .object more =>
    .object (more.foldl (fun acc f => insertField f.1 f.2 acc) fields)
  | target, _ => target

def mergeObject (env : Environment) (ctx : TemplateContext) (target patch : Value) : Value :=
  match resolveValue env ctx patch with
  | some resolved => mergeObjects target resolved
  | none => target

namespace PluginManifest

def templateContext (env : Environment) (manifest : PluginManifest) (program : String) :
    TemplateContext :=
  .new env program manifest.id

/-- The arguments of every `initialize` request. -/
def initializeArguments (clientId adapterId : String) : Value :=
  .obj [("clientID", .string clientId), ("adapterID", .string adapterId),
    ("linesStartAt1", .bool true), ("columnsStartAt1", .bool true),
    ("pathFormat", .string "path"), ("supportsRunInTerminalRequest", .bool true)]

def buildInitializeArguments (env : Environment) (manifest : PluginManifest) (clientId : String)
    (fallbackAdapterId : Option String) : Value :=
  let adapterId :=
    ((manifest.initializeSpec.bind (·.adapterId)).or fallbackAdapterId).getD manifest.id
  let args := initializeArguments clientId adapterId
  match manifest.initializeSpec.bind (·.defaults) with
  | some defaults => mergeObject env (manifest.templateContext env "") args defaults
  | none => args

def buildLaunchArguments (env : Environment) (manifest : PluginManifest) (program : String) :
    Value :=
  let ctx := manifest.templateContext env program
  let path : Value := .string (ctx.programAbs.getD ctx.program)
  match manifest.launch with
  | none => .obj [("program", path)]
  | some launch =>
    let merge := fun (args : Value) (patch : Option Value) =>
      (patch.map (mergeObject env ctx args)).getD args
    let args := merge (merge (.obj []) launch.defaults) launch.fields
    match args with
    | .object [] => args.set "program" path
    | args => args

def launchRequestName (manifest : PluginManifest) : String :=
  (manifest.launch.map (·.request)).getD "launch"

def initSteps (manifest : PluginManifest) : List InitStep :=
  (manifest.init.map (·.steps)).getD []

end PluginManifest

end DappyCore.Plugin
