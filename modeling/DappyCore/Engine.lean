import DappyCore.Targets
import DappyCore.Reregistration
import DappyCore.Instances

/-!
The engine: the manifests it loads from disk, with what the environment changes of them and what
the user overrides, and the adapters it resolves launches to.
-/

namespace DappyCore.Engine

open Lib Lib.Keyed Json Loader Targets Endpoints Instances Paths

/-- What a process loads from: the environment, the directory it was built in, and the disk. -/
structure World where
  var : String → Option String
  manifestDir : String
  serde : Loader.Serde
  disk : Disk

variable (world : World)

/-! ### Directories -/

/-- Default builtin plugin directory. -/
def defaultBuiltinDir : String :=
  match world.var "DAP_PLUGINS_DIR" with
  | some dir => dir
  | none =>
    let fixtures := join world.manifestDir "../../tests/fixtures/plugins/builtin"
    let sibling := join world.manifestDir "../../../dap-plugins/builtin"
    ([fixtures, sibling].find? world.disk.isDir).getD fixtures

/-- Where the user keeps what overrides the builtin manifests. -/
def userDir (name : String) : Option String :=
  let base := (world.var "XDG_CONFIG_HOME").or
    ((world.var "HOME").map fun home => join home ".config")
  base.map fun base => join base name

def userTargetsDir : Option String := userDir world "dap/targets"

/-! ### Targets -/

/-- A `BTreeMap` from ids that manifests are inserted into, one after another: its values. -/
def byId {M : Type} (id : M → String) (manifests : List M) : List M :=
  sortBy (fun a b => decide (a ≤ b)) id (manifests.foldl (put id) [])

/-- Load builtin and user RSP target manifests (user entries override by id). -/
def loadTargetDefaults : Except PluginError (List TargetManifest) := do
  let builtin ← loadTargetsFromDir world.serde world.disk (defaultBuiltinDir world)
  let user ←
    match userTargetsDir world with
    | some dir => loadTargetsFromDir world.serde world.disk dir
    | none => pure []
  return byId (·.id) (builtin ++ user)

/-! ### The engine -/

/-- Top-level orchestrator: registry + routing + instance tracking. -/
structure DapEngine where
  instances : InstanceManager
  registry : Loader.PluginRegistry
  targetRegistry : TargetRegistry

/-- The command of an adapter is what the environment says, for the two that it may name. -/
def patchAdapterFromEnv (manifest : Loader.PluginManifest) : Loader.PluginManifest :=
  let patch := fun (id name : String) (manifest : Loader.PluginManifest) =>
    if manifest.id = id then
      match world.var name with
      | some command => { manifest with adapter := { manifest.adapter with command } }
      | none => manifest
    else manifest
  patch "python" "PYTHON" (patch "rust" "LLDB_DAP" manifest)

def patchRegistryFromEnv (registry : Loader.PluginRegistry) : Loader.PluginRegistry :=
  (registry.plugins.map (patchAdapterFromEnv world)).foldl Loader.PluginRegistry.register .new

namespace DapEngine

def new : DapEngine where
  instances := ∅
  registry := .new
  targetRegistry := .new

def registerPlugin (engine : DapEngine) (manifest : Loader.PluginManifest) : DapEngine :=
  { engine with registry := engine.registry.register (patchAdapterFromEnv world manifest) }

/-- What is loaded stays, whatever comes of the rest. -/
def loadPluginsFromDir (engine : DapEngine) (dir : String) :
    DapEngine × Except (String × PluginError) Unit :=
  match engine.registry.loadFromDir world.serde world.disk dir with
  | (.error e, registry) => ({ engine with registry }, .error e)
  | (.ok (), registry) => ({ engine with registry := patchRegistryFromEnv world registry }, .ok ())

def loadBuiltinPlugins (engine : DapEngine) : DapEngine × Except (String × PluginError) Unit :=
  match engine.loadPluginsFromDir world (defaultBuiltinDir world) with
  | (engine, .error e) => (engine, .error e)
  | (engine, .ok ()) =>
    match loadTargetDefaults world with
    | .error e => (engine, .error ("", e))
    | .ok manifests =>
      ({ engine with
          targetRegistry := manifests.foldl TargetRegistry.register engine.targetRegistry },
        .ok ())

def adapterSpawn (engine : DapEngine) (adapterId : String) : Option AdapterSpawn :=
  (engine.registry.get adapterId).map (·.adapter)

/-- `Router::resolve`. -/
def route (engine : DapEngine) (launch : Gateway.LaunchOptions) : Option Loader.RouteMatch :=
  (resolveRoute engine.registry launch).toOption

/-- Resolve adapter spawn spec for a launch request. -/
def resolveAdapterSpawn (engine : DapEngine) (launch : Gateway.LaunchOptions) :
    Except String AdapterSpawn :=
  match engine.route launch with
  | some route => .ok route.manifest.adapter
  | none => .error "no adapter matched launch request"

end DapEngine

/-! ### What is loaded -/

/-- A call that loads manifests. -/
inductive Load
  | builtin
  | fromDir (dir : String)
  | plugin (manifest : Loader.PluginManifest)

namespace Load

def apply (engine : DapEngine) : Load → DapEngine
  | builtin => (engine.loadBuiltinPlugins world).1
  | fromDir dir => (engine.loadPluginsFromDir world dir).1
  | plugin manifest => engine.registerPlugin world manifest

/-- The manifests of a directory, none of them where one cannot be loaded. -/
def inDir (dir : String) : List Loader.PluginManifest :=
  (Loader.loadFromDir world.serde world.disk dir).toOption.getD []

/-- The plugins that a call loads. -/
def plugins : Load → List Loader.PluginManifest
  | builtin => inDir world (defaultBuiltinDir world)
  | fromDir dir => inDir world dir
  | plugin manifest => [manifest]

/-- It loads targets too, if the plugins could be loaded. -/
def loadsTargets : Load → Bool
  | builtin => (Loader.loadFromDir world.serde world.disk (defaultBuiltinDir world)).isOk
  | fromDir _ | plugin _ => false

end Load

/-- A new engine after these calls. -/
def loaded (loads : List Load) : DapEngine := loads.foldl (Load.apply world) .new

/-- The command that the environment gives to an adapter. -/
def commandOf (id : String) : Option String :=
  if id = "rust" then world.var "LLDB_DAP" else if id = "python" then world.var "PYTHON" else none

/-- An adapter with the command of the environment, if there is one. -/
def spawned (manifest : Loader.PluginManifest) : AdapterSpawn :=
  { manifest.adapter with
    command := (commandOf world manifest.id).getD manifest.adapter.command }

/-- The plugins of all calls, registered in turn. -/
def registered (loads : List Load) : Loader.PluginRegistry :=
  (loads.flatMap (Load.plugins world)).foldl Loader.PluginRegistry.register .new

/-- The target of an id: the user's, or else the builtin one. -/
def targetOf (id : String) : Option TargetManifest :=
  let last := fun (manifests : List TargetManifest) => (manifests.filter (·.id = id)).getLast?
  match loadTargetsFromDir world.serde world.disk (defaultBuiltinDir world),
      (userTargetsDir world).elim (.ok []) (loadTargetsFromDir world.serde world.disk) with
  | .ok builtin, .ok user => (last user).or (last builtin)
  | _, _ => none

variable {world : World}

lemma patch_eq (manifest : Loader.PluginManifest) :
    patchAdapterFromEnv world manifest = { manifest with adapter := spawned world manifest } := by
  have hne : ¬ ("rust" : String) = "python" := by decide
  simp only [patchAdapterFromEnv, spawned, commandOf]
  by_cases hrust : manifest.id = "rust"
  · rw [if_pos hrust, if_pos hrust]
    cases world.var "LLDB_DAP" with
    | none => rw [if_neg (hrust ▸ hne)]; rfl
    | some command => dsimp only; rw [if_neg (hrust ▸ hne)]; rfl
  · rw [if_neg hrust, if_neg hrust]
    by_cases hpython : manifest.id = "python"
    · rw [if_pos hpython, if_pos hpython]
      cases world.var "PYTHON" <;> rfl
    · rw [if_neg hpython, if_neg hpython]
      rfl

@[simp] lemma id_patch (manifest : Loader.PluginManifest) :
    (patchAdapterFromEnv world manifest).id = manifest.id := by
  rw [patch_eq]

lemma patch_patch (manifest : Loader.PluginManifest) :
    patchAdapterFromEnv world (patchAdapterFromEnv world manifest) =
      patchAdapterFromEnv world manifest := by
  rw [patch_eq, patch_eq]
  simp only [spawned]
  cases commandOf world manifest.id <;> rfl

lemma plugins_foldl_register (manifests : List Loader.PluginManifest)
    (registry : Loader.PluginRegistry) :
    (manifests.foldl Loader.PluginRegistry.register registry).plugins =
      manifests.foldl (put (·.id)) registry.plugins := by
  induction manifests generalizing registry with
  | nil => rfl
  | cons m rest ih => exact ih _

/-- Patching keeps the order of the manifests. -/
lemma plugins_patchRegistryFromEnv (registry : Loader.PluginRegistry) :
    (patchRegistryFromEnv world registry).plugins =
      registry.plugins.map (patchAdapterFromEnv world) := by
  rw [patchRegistryFromEnv, plugins_foldl_register]
  refine (foldl_put_of_nodup (l := []) ?_).trans (List.nil_append _)
  rw [List.nil_append, List.map_map]
  have hid : (fun m : Loader.PluginManifest => m.id) ∘ patchAdapterFromEnv world =
      fun m => m.id := funext id_patch
  rw [hid]
  exact registry.unique

/-- The engine has the plugins of all calls so far, with the commands of the environment. -/
def Patched (world : World) (engine : DapEngine) (raw : Loader.PluginRegistry) : Prop :=
  engine.registry.plugins = raw.plugins.map (patchAdapterFromEnv world)

lemma patched_register {engine : DapEngine} {raw : Loader.PluginRegistry}
    (h : Patched world engine raw) (manifest : Loader.PluginManifest) :
    Patched world (engine.registerPlugin world manifest) (raw.register manifest) := by
  show put (·.id) engine.registry.plugins (patchAdapterFromEnv world manifest) =
    (put (·.id) raw.plugins manifest).map (patchAdapterFromEnv world)
  rw [h, map_put id_patch]

lemma patched_loadPluginsFromDir {engine : DapEngine} {raw : Loader.PluginRegistry}
    (h : Patched world engine raw) (dir : String) :
    Patched world (engine.loadPluginsFromDir world dir).1
      ((Load.inDir world dir).foldl Loader.PluginRegistry.register raw) := by
  unfold DapEngine.loadPluginsFromDir Loader.PluginRegistry.loadFromDir Load.inDir
  cases Loader.loadFromDir world.serde world.disk dir with
  | error e => exact h
  | ok manifests =>
    show (patchRegistryFromEnv world _).plugins = _
    have hmap : ((manifests.foldl (put (·.id)) engine.registry.plugins).map
        (patchAdapterFromEnv world)) = (manifests.map (patchAdapterFromEnv world)).foldl
          (put (·.id)) (raw.plugins.map (patchAdapterFromEnv world)) := by
      rw [map_foldl_put id_patch, h, List.map_map]
      congr 1
      exact List.map_congr_left fun m _ => patch_patch m
    rw [plugins_patchRegistryFromEnv, plugins_foldl_register, hmap, Except.toOption,
      Option.getD_some, plugins_foldl_register, map_foldl_put id_patch]

lemma patched_apply {engine : DapEngine} {raw : Loader.PluginRegistry}
    (h : Patched world engine raw) (load : Load) :
    Patched world (load.apply world engine)
      ((load.plugins world).foldl Loader.PluginRegistry.register raw) := by
  cases load with
  | builtin =>
    have hdir := patched_loadPluginsFromDir h (defaultBuiltinDir world)
    show Patched world (engine.loadBuiltinPlugins world).1 _
    unfold DapEngine.loadBuiltinPlugins
    generalize engine.loadPluginsFromDir world (defaultBuiltinDir world) = result at hdir ⊢
    rcases result with ⟨engine', _ | _⟩
    · exact hdir
    · dsimp only
      cases loadTargetDefaults world <;> exact hdir
  | fromDir dir => exact patched_loadPluginsFromDir h dir
  | plugin manifest => exact patched_register h manifest

lemma patched_loads (world : World) (loads : List Load) :
    Patched world (loaded world loads)
      (registered world loads) := by
  have hall : ∀ (engine : DapEngine) (raw : Loader.PluginRegistry), Patched world engine raw →
      Patched world (loads.foldl (Load.apply world) engine)
        ((loads.flatMap (Load.plugins world)).foldl Loader.PluginRegistry.register raw) := by
    induction loads with
    | nil => exact fun _ _ h => h
    | cons load rest ih =>
      intro engine raw h
      rw [List.foldl_cons, List.flatMap_cons, List.foldl_append]
      exact ih _ _ (patched_apply h load)
  exact hall .new .new rfl

/-! ### Routes -/

lemma get_of_patched {engine : DapEngine} {raw : Loader.PluginRegistry}
    (h : Patched world engine raw) (id : String) :
    engine.registry.get id = (raw.get id).map (patchAdapterFromEnv world) := by
  unfold Loader.PluginRegistry.get
  rw [h, List.find?_map]
  congr 2
  funext m
  rw [Function.comp_apply, id_patch]

/-- **Routes** do not depend on the environment. -/
lemma resolveRoute_of_patched {engine : DapEngine} {raw : Loader.PluginRegistry}
    (h : Patched world engine raw) (launch : Gateway.LaunchOptions) :
    resolveRoute engine.registry launch = (resolveRoute raw launch).map fun found =>
      ⟨found.adapterId, patchAdapterFromEnv world found.manifest⟩ := by
  have hroute (id : String) (e : Gateway.GatewayError) : routeTo engine.registry id e =
      (routeTo raw id e).map fun found =>
        ⟨found.adapterId, patchAdapterFromEnv world found.manifest⟩ := by
    unfold routeTo
    rw [get_of_patched h]
    cases raw.get id <;> rfl
  have hserves : (fun m : Loader.PluginManifest => m.serves launch) ∘ patchAdapterFromEnv world =
      fun m => m.serves launch := by
    funext m
    rw [Function.comp_apply, patch_eq]
    rfl
  rw [resolveRoute_eq, resolveRoute_eq, h, List.find?_map, hserves]
  cases launch.adapter with
  | some id => exact hroute id _
  | none =>
    cases raw.plugins.find? (·.serves launch) with
    | none => exact hroute "fake" _
    | some found =>
      show Except.ok (⟨(patchAdapterFromEnv world found).id, _⟩ : Loader.RouteMatch) = _
      rw [id_patch]
      rfl

/-! ### The targets of the user -/

lemma find?_byId {M : Type} (key : M → String) (manifests : List M) (id : String) :
    (byId key manifests).reverse.find? (key · = id) =
      (manifests.filter (key · = id)).getLast? := by
  rw [← List.getLast?_filter, byId, filter_sortBy orderTest_le, filter_foldl_put]
  cases (manifests.filter (key · = id)).getLast? <;> rfl

lemma targetRegistry_loadPluginsFromDir (world : World) (engine : DapEngine) (dir : String) :
    (engine.loadPluginsFromDir world dir).1.targetRegistry = engine.targetRegistry ∧
      ((engine.loadPluginsFromDir world dir).2.isOk =
        (Loader.loadFromDir world.serde world.disk dir).isOk) := by
  unfold DapEngine.loadPluginsFromDir Loader.PluginRegistry.loadFromDir
  cases Loader.loadFromDir world.serde world.disk dir <;> exact ⟨rfl, rfl⟩

lemma loadTargetDefaults_eq (world : World) (id : String) :
    ((loadTargetDefaults world).toOption.bind fun manifests =>
      manifests.reverse.find? (·.id = id)) = targetOf world id := by
  unfold loadTargetDefaults targetOf
  cases hb : loadTargetsFromDir world.serde world.disk (defaultBuiltinDir world) with
  | error e => rfl
  | ok builtin =>
    have hfind (user : List TargetManifest) :
        (byId (·.id) (builtin ++ user)).reverse.find? (·.id = id) =
          (user.filter (·.id = id)).getLast?.or (builtin.filter (·.id = id)).getLast? := by
      rw [find?_byId, List.filter_append, List.getLast?_append]
    cases userTargetsDir world with
    | none => exact hfind []
    | some dir =>
      show (Option.bind (Except.toOption (do
        let user ← loadTargetsFromDir world.serde world.disk dir
        pure (byId (·.id) (builtin ++ user)))) _) = _
      simp only [Option.elim_some]
      cases loadTargetsFromDir world.serde world.disk dir with
      | error e => rfl
      | ok user => exact hfind user

lemma targets_apply {engine : DapEngine} {before : Bool}
    (h : ∀ id, engine.targetRegistry.get id = if before then targetOf world id else none)
    (load : Load) (id : String) :
    (load.apply world engine).targetRegistry.get id =
      if before || load.loadsTargets world then targetOf world id else none := by
  cases load with
  | fromDir dir =>
    rw [Load.loadsTargets, Bool.or_false, ← h]
    show (engine.loadPluginsFromDir world dir).1.targetRegistry.get id = _
    rw [(targetRegistry_loadPluginsFromDir world engine dir).1]
  | plugin manifest =>
    rw [Load.loadsTargets, Bool.or_false, ← h]
    rfl
  | builtin =>
    obtain ⟨hsame, hok⟩ := targetRegistry_loadPluginsFromDir world engine
      (defaultBuiltinDir world)
    have htargets := loadTargetDefaults_eq world id
    show (engine.loadBuiltinPlugins world).1.targetRegistry.get id = _
    unfold DapEngine.loadBuiltinPlugins Load.loadsTargets
    rw [← hok]
    generalize engine.loadPluginsFromDir world (defaultBuiltinDir world) = result at hsame ⊢
    rcases result with ⟨engine', _ | _⟩
    · -- the plugins are not loaded, and the targets then are not either
      have hfalse : (Except.error ‹_› : Except (String × PluginError) Unit).isOk = false := rfl
      rw [hfalse, Bool.or_false, ← h, ← hsame]
    · -- the targets are loaded after them, or their folder cannot be read
      have htrue : (Except.ok () : Except (String × PluginError) Unit).isOk = true := rfl
      rw [htrue, Bool.or_true, if_pos rfl]
      cases ht : loadTargetDefaults world with
      | error e =>
        rw [ht] at htargets
        show engine'.targetRegistry.get id = _
        rw [hsame, h, ← htargets]
        split_ifs <;> rfl
      | ok manifests =>
        rw [ht] at htargets
        show (manifests.foldl TargetRegistry.register engine'.targetRegistry).get id = _
        rw [TargetRegistry.get_foldl_register, hsame, h]
        have hfind : manifests.reverse.find? (·.id = id) = targetOf world id := htargets
        rw [hfind]
        split_ifs
        · exact Option.or_self
        · exact Option.or_none

lemma targets_loads (loads : List Load) (id : String) :
    (loaded world loads).targetRegistry.get id =
      if loads.any (Load.loadsTargets world) then targetOf world id else none := by
  have hall : ∀ (engine : DapEngine) (before : Bool),
      (∀ id, engine.targetRegistry.get id = if before then targetOf world id else none) →
      (loads.foldl (Load.apply world) engine).targetRegistry.get id =
        if before || loads.any (Load.loadsTargets world) then targetOf world id else none := by
    induction loads with
    | nil =>
      intro engine before h
      rw [List.any_nil, Bool.or_false]
      exact h id
    | cons load rest ih =>
      intro engine before h
      rw [List.foldl_cons, List.any_cons, ← Bool.or_assoc]
      exact ih _ _ fun id => targets_apply h load id
  exact hall .new false fun _ => rfl

/-- **The environment and the user's files** change what is run, never where a launch goes.
Whatever was loaded, in whatever order and with whatever failures, a launch goes to the manifest
that it goes to among all plugins loaded so far, and only the command of its adapter is what the
environment says; a target is the user's own, or else the builtin one. -/
theorem engine_resolves (world : World) (loads : List Load) :
    let engine := loaded world loads
    (∀ launch, engine.resolveAdapterSpawn launch =
      match resolveRoute (registered world loads) launch with
      | .ok found => .ok (spawned world found.manifest)
      | .error _ => .error "no adapter matched launch request") ∧
    (∀ id, engine.adapterSpawn id = ((registered world loads).get id).map (spawned world)) ∧
    ∀ id, engine.targetRegistry.get id =
      if loads.any (Load.loadsTargets world) then targetOf world id else none := by
  have hpatched := patched_loads world loads
  refine ⟨fun launch => ?_, fun id => ?_, fun id => targets_loads loads id⟩
  · unfold DapEngine.resolveAdapterSpawn DapEngine.route
    rw [resolveRoute_of_patched hpatched]
    cases resolveRoute (registered world loads) launch with
    | error e => rfl
    | ok found =>
      show Except.ok (patchAdapterFromEnv world found.manifest).adapter = _
      rw [patch_eq]
  · unfold DapEngine.adapterSpawn
    rw [get_of_patched hpatched, Option.map_map]
    congr 1
    funext m
    rw [Function.comp_apply, patch_eq]

end DappyCore.Engine
