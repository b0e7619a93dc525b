import DappyCore.Endpoints
import DappyCore.Lib.Selection
import DappyCore.Manifest

/-!
Loading manifests from disk: the files of a plugin root that are taken for manifests of plugins or
of targets, and what is read from them.
-/

namespace DappyCore.Loader

open Lib.Selection Json Transport Endpoints Paths

/-! ### Paths and files -/

/-- The file system: what comes of listing a directory, entry by entry, and of reading a file. -/
structure Disk where
  isDir : String → Bool
  isFile : String → Bool
  readDir : String → Except String (List (Except String String))
  readToString : String → Except String String

/-- `Path::extension`: what is after the last dot of the name, unless the name begins with it. -/
def extension (path : String) : Option String :=
  let name := path.toList.rtakeWhile (· ≠ '/')
  let after := name.rtakeWhile (· ≠ '.')
  if name.length ≤ after.length + 1 then none else some (String.ofList after)

def isYaml (path : String) : Bool := (extension path).any fun ext => ext = "yaml" || ext = "yml"

/-! ### Manifests -/

inductive PluginError
  | invalidManifest (message : String)
  | io (path source : String)
  | parse (path source : String)
  deriving DecidableEq

/-- Declarative plugin metadata, with all that is read from its file. -/
structure PluginManifest extends Plugin.PluginManifest where
  name : String
  version : String
  languages : List String
  adapter : AdapterSpawn
  attachment : Option String
  sourcePath : Option String

structure TargetConnect where
  host : String
  port : UInt16

structure TargetSpawn where
  command : String
  args : List String

/-- Declarative metadata of an RSP target, parallel to `plugin.yaml`. -/
structure TargetManifest where
  id : String
  name : String
  version : String
  targetTypes : List String
  description : Option String
  spawn : Option TargetSpawn
  connect : Option TargetConnect
  attach : Option Value
  init : Option Plugin.InitSpec
  sourcePath : Option String

/-- What `serde_yaml` makes of a text, a document with its fields, and what it makes of a document:
a field that has no default is there, and the types of a target are none where they are not. -/
structure Serde where
  Document : Type
  document : String → Except String Document
  get : Document → String → Option Document
  plugin : Document → Except String PluginManifest
  target : Document → Except String TargetManifest
  plugin_id : ∀ {value manifest}, plugin value = .ok manifest → (get value "id").isSome
  plugin_adapter : ∀ {value manifest}, plugin value = .ok manifest → (get value "adapter").isSome
  target_id : ∀ {value manifest}, target value = .ok manifest → (get value "id").isSome
  target_types : ∀ {value manifest}, target value = .ok manifest →
    get value "targetTypes" = none → manifest.targetTypes = []

variable (serde : Serde) (disk : Disk)

def isBlank (text : String) : Bool := (trim text.toList).isEmpty

def validateSidecarReference (field relative : String) (sourcePath : Option String) :
    Except PluginError Unit := do
  let trimmed := trim relative.toList
  if trimmed.isEmpty then throw (.invalidManifest (field ++ " must not be empty"))
  if ¬ (".yaml".toList.isSuffixOf trimmed || ".yml".toList.isSuffixOf trimmed) then
    throw (.invalidManifest (field ++ " must point to a .yaml or .yml file"))
  match sourcePath with
  | none => return
  | some sourcePath =>
    match parent sourcePath with
    | none => throw (.invalidManifest "manifest has no parent directory")
    | some dir =>
      let path := join dir (String.ofList trimmed)
      if ¬ disk.isFile path then
        throw (.invalidManifest (field ++ " file not found: " ++ path))
      let text ← (disk.readToString path).mapError (.io path)
      let _ ← (serde.document text).mapError (.parse path)

/-- Validate required fields and routing metadata. -/
def PluginManifest.validate (manifest : PluginManifest) : Except PluginError Unit := do
  if isBlank manifest.id then throw (.invalidManifest "id must not be empty")
  if isBlank manifest.name then throw (.invalidManifest "name must not be empty")
  if isBlank manifest.version then throw (.invalidManifest "version must not be empty")
  if isBlank manifest.adapter.command then
    throw (.invalidManifest "adapter.command must not be empty")
  if manifest.launchTypes.isEmpty && manifest.fileExtensions.isEmpty then
    throw (.invalidManifest "at least one launchType or fileExtension is required")
  match manifest.attachment with
  | some attachment =>
    validateSidecarReference serde disk "attachment" attachment manifest.sourcePath
  | none => return

def TargetManifest.validate (manifest : TargetManifest) : Except PluginError Unit := do
  if isBlank manifest.id then throw (.invalidManifest "id must not be empty")
  if isBlank manifest.name then throw (.invalidManifest "name must not be empty")
  if isBlank manifest.version then throw (.invalidManifest "version must not be empty")
  if manifest.targetTypes.isEmpty then
    throw (.invalidManifest "at least one targetType is required")
  match manifest.spawn with
  | some spawn =>
    if isBlank spawn.command then throw (.invalidManifest "spawn.command must not be empty")
  | none => return

/-- `serde_yaml::from_str`. -/
def fromStr {M : Type} (decode : serde.Document → Except String M) (text : String) :
    Except String M := do
  let value ← serde.document text
  decode value

/-- Load and validate a plugin manifest from a YAML file. -/
def loadFromFile (path : String) : Except PluginError PluginManifest := do
  let text ← (disk.readToString path).mapError (.io path)
  let manifest ← (fromStr serde serde.plugin text).mapError (.parse path)
  let manifest := { manifest with sourcePath := some path }
  manifest.validate serde disk
  return manifest

def TargetManifest.fromYaml (text path : String) : Except PluginError TargetManifest := do
  let manifest ← (fromStr serde serde.target text).mapError (.parse path)
  let manifest := { manifest with sourcePath := some path }
  manifest.validate
  return manifest

/-- Load and validate an RSP target manifest from a YAML file. -/
def loadTargetFromFile (path : String) : Except PluginError TargetManifest := do
  let text ← (disk.readToString path).mapError (.io path)
  TargetManifest.fromYaml serde text path

/-! ### Files that are taken for manifests -/

/-- Filenames recognized as a plugin manifest inside a per-plugin directory. -/
def pluginManifestNames : List String :=
  ["plugin.yaml", "plugin.yml", "manifest.yaml", "manifest.yml"]

/-- Filenames recognized as an RSP target manifest inside a per-target directory. -/
def targetManifestNames : List String :=
  ["target.yaml", "target.yml", "manifest.yaml", "manifest.yml"]

/-- The first of some names that a directory has a file under. -/
def firstFile (names : List String) (dir : String) : Option String :=
  (names.map (join dir)).find? disk.isFile

def manifestInPluginDir (dir : String) : Option String := firstFile disk pluginManifestNames dir

def targetManifestInDir (dir : String) : Option String := firstFile disk targetManifestNames dir

/-- The document in a file, if it can be read as one. -/
def documentIn (path : String) : Option serde.Document :=
  match disk.readToString path with
  | .error _ => none
  | .ok text =>
    match serde.document text with
    | .error _ => none
    | .ok value => some value

def hasField (path name : String) : Bool :=
  (documentIn serde disk path).any fun value => (serde.get value name).isSome

def isPluginManifestFile (path : String) : Bool :=
  isYaml path && (hasField serde disk path "adapter" && hasField serde disk path "id")

def isTargetManifestFile (path : String) : Bool :=
  isYaml path && (documentIn serde disk path).any fun value =>
    (serde.get value "targetTypes").isSome && (serde.get value "id").isSome &&
      (serde.get value "adapter").isNone

/-! ### Directories -/

section Directories

variable {M : Type} (inDir : String → Option String) (isManifestFile : String → Bool)
  (load : String → Except PluginError M)

/-- One entry of a directory: one that is a directory too is looked into. -/
def loadEntry (dir : String) (manifests : List M) (entry : Except String String) :
    Except PluginError (List M) := do
  let path ← entry.mapError (.io dir)
  if disk.isDir path then
    match inDir path with
    | some manifestPath => return manifests ++ [← load manifestPath]
    | none => return manifests
  else if isManifestFile path then return manifests ++ [← load path]
  else return manifests

/-- The manifests of a directory, sorted by id. -/
def loadDir (id : M → String) (dir : String) : Except PluginError (List M) := do
  if ¬ disk.isDir dir then return []
  let entries ← (disk.readDir dir).mapError (.io dir)
  let manifests ← entries.foldlM (loadEntry disk inDir isManifestFile load dir) []
  return manifests.mergeSort fun a b => id a ≤ id b

end Directories

/-- Load all plugin manifests from a directory: of per-plugin folders, and flat ones. -/
def loadFromDir (dir : String) : Except PluginError (List PluginManifest) :=
  loadDir disk (manifestInPluginDir disk) (isPluginManifestFile serde disk)
    (loadFromFile serde disk) (·.id) dir

/-- Load all RSP target manifests from a directory. -/
def loadTargetsFromDir (dir : String) : Except PluginError (List TargetManifest) :=
  loadDir disk (targetManifestInDir disk) (isTargetManifestFile serde disk)
    (loadTargetFromFile serde disk) (·.id) dir

end DappyCore.Loader
