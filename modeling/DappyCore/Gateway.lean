import Mathlib.Data.List.Nodup
import DappyCore.Lib.FirstMatch
import DappyCore.Manifest

/-!
The gateway: plugins are registered one after another, and the first that matches a launch is
the one that it is routed to.
-/

namespace DappyCore.Gateway

open Json Plugin

/-- Inputs available when resolving a route. -/
structure RouteContext where
  explicitPlugin : Option String
  launchType : Option String
  programPath : Option String

structure RouteMatch where
  pluginId : String
  deriving DecidableEq

inductive GatewayError
  | pluginNotFound (id : String)
  | noRoute
  | duplicatePlugin (id : String)
  deriving DecidableEq

/-! ### Plugins -/

/-- Static plugin definition, as far as it is routed by. -/
structure StaticPlugin where
  id : String
  launchTypes : List String
  fileExtensions : List String
  deriving DecidableEq

/-- `rsplit('.').next()`: what is after the last dot, or all of a text that has none. -/
def afterLastDot (text : List Char) : String := String.ofList (text.rtakeWhile (· ≠ '.'))

namespace StaticPlugin

/-- The launch type is one of the plugin's. -/
def matchesType (plugin : StaticPlugin) (ctx : RouteContext) : Bool :=
  ctx.launchType.any (· ∈ plugin.launchTypes)

/-- The end of the program's path is one of the plugin's extensions. -/
def matchesPath (plugin : StaticPlugin) (ctx : RouteContext) : Bool :=
  ctx.programPath.any fun path => afterLastDot path.toList ∈ plugin.fileExtensions

def «matches» (plugin : StaticPlugin) (ctx : RouteContext) : Bool :=
  match ctx.explicitPlugin with
  | some explicit => explicit = plugin.id
  | none => plugin.matchesType ctx || plugin.matchesPath ctx

end StaticPlugin

/-! ### Routing -/

/-- In-memory plugin registry. No two plugins have one id. -/
structure PluginRegistry where
  plugins : List StaticPlugin
  defaultPlugin : Option String
  unique : (plugins.map (·.id)).Nodup

namespace PluginRegistry

def new : PluginRegistry where
  plugins := []
  defaultPlugin := none
  unique := List.nodup_nil

def register (registry : PluginRegistry) (plugin : StaticPlugin) :
    Except GatewayError PluginRegistry :=
  if h : plugin.id ∈ registry.plugins.map (·.id) then .error (.duplicatePlugin plugin.id)
  else .ok {
    plugins := registry.plugins ++ [plugin]
    defaultPlugin := registry.defaultPlugin
    unique := by
      rw [List.map_append, List.map_singleton]
      exact List.nodup_append.mpr ⟨registry.unique, List.nodup_singleton _, fun a ha b hb hab =>
        h (List.mem_singleton.mp hb ▸ hab ▸ ha)⟩ }

def setDefault (registry : PluginRegistry) (pluginId : String) : PluginRegistry :=
  { registry with defaultPlugin := some pluginId }

def get (registry : PluginRegistry) (id : String) : Option StaticPlugin :=
  registry.plugins.find? (·.id = id)

end PluginRegistry

/-- The default plugin, for what matches no other. -/
def routeToDefault (registry : PluginRegistry) : Except GatewayError RouteMatch :=
  match registry.defaultPlugin with
  | some id => if (registry.get id).isSome then .ok ⟨id⟩ else .error .noRoute
  | none => .error .noRoute

/-- `Router::resolve`. -/
def resolve (registry : PluginRegistry) (ctx : RouteContext) : Except GatewayError RouteMatch :=
  match ctx.explicitPlugin with
  | some id => if (registry.get id).isSome then .ok ⟨id⟩ else .error (.pluginNotFound id)
  | none =>
    match registry.plugins.find? (·.matches ctx) with
    | some plugin => .ok ⟨plugin.id⟩
    | none => routeToDefault registry

/-! ### Launches -/

structure LaunchOptions where
  program : Option String
  adapter : Option String
  extra : Value

/-- The plugins that were loaded. One that is registered again takes the last place. -/
structure Manifests where
  plugins : List PluginManifest
  unique : (plugins.map (·.id)).Nodup

namespace Manifests

def new : Manifests := ⟨[], List.nodup_nil⟩

def register (registry : Manifests) (manifest : PluginManifest) : Manifests where
  plugins := registry.plugins.filter (·.id ≠ manifest.id) ++ [manifest]
  unique := by
    rw [List.map_append, List.map_singleton]
    refine List.nodup_append.mpr ⟨?_, List.nodup_singleton _, fun a ha b hb hab => ?_⟩
    · exact registry.unique.sublist (List.Sublist.map _ List.filter_sublist)
    · obtain ⟨other, hother, rfl⟩ := List.mem_map.mp ha
      have hne : other.id ≠ manifest.id := by simpa using (List.mem_filter.mp hother).2
      exact hne (hab.trans (List.mem_singleton.mp hb))

def get (registry : Manifests) (id : String) : Option PluginManifest :=
  registry.plugins.find? (·.id = id)

end Manifests

def manifestToStaticPlugin (manifest : PluginManifest) : StaticPlugin where
  id := manifest.id
  launchTypes := manifest.launchTypes
  fileExtensions := manifest.fileExtensions

/-- `let _ = gw.register(..)`. -/
def registerManifest (gw : PluginRegistry) (manifest : PluginManifest) : PluginRegistry :=
  match gw.register (manifestToStaticPlugin manifest) with
  | .ok gw => gw
  | .error _ => gw

def buildGatewayRegistry (registry : Manifests) : PluginRegistry :=
  let gw := registry.plugins.foldl registerManifest .new
  if (gw.get "fake").isSome then gw.setDefault "fake" else gw

/-- `str::contains`. -/
def containsText (text pattern : List Char) : Bool := text.tails.any pattern.isPrefixOf

/-- Whether a path looks like a Cargo build output binary. -/
def looksLikeCargoBinary (path : String) : Bool :=
  let normalized := path.toList.map fun c => if c = '\\' then '/' else c
  containsText normalized "/target/debug/".toList ||
    containsText normalized "/target/release/".toList ||
    "target/debug/".toList.isPrefixOf normalized || "target/release/".toList.isPrefixOf normalized

def launchToRouteContext (launch : LaunchOptions) : RouteContext :=
  let type := (launch.extra.get "type").bind Value.asStr
  let rust := launch.adapter.isNone && type.isNone && launch.program.any looksLikeCargoBinary
  { explicitPlugin := launch.adapter
    launchType := type.or (if rust then some "rust" else none)
    programPath := launch.program }

structure AdapterMatch where
  adapterId : String
  manifest : PluginManifest

def resolveRoute (registry : Manifests) (launch : LaunchOptions) :
    Except GatewayError AdapterMatch :=
  match resolve (buildGatewayRegistry registry) (launchToRouteContext launch) with
  | .error e => .error e
  | .ok matched =>
    match registry.get matched.pluginId with
    | some manifest => .ok ⟨matched.pluginId, manifest⟩
    | none => .error (.pluginNotFound matched.pluginId)

end DappyCore.Gateway
