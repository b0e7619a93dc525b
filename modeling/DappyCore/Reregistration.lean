import DappyCore.LoadOrder
import DappyCore.RoutePriority

/-!
Registering a manifest again. It is replaced by itself, but at the last place, and a launch goes
to the first manifest that serves it.
-/

namespace DappyCore.Loader

open Lib.Keyed Gateway

/-- The manifest declares the type of the launch, or what is after the last dot of its program. -/
def PluginManifest.serves (manifest : PluginManifest) (launch : LaunchOptions) : Bool :=
  (manifestToStaticPlugin manifest.toPluginManifest).matches (launchToRouteContext launch)

/-- The launch names no adapter, the manifest is the first that serves it, and there is another
that does. -/
def Overlaps (registry : PluginRegistry) (manifest : PluginManifest) (launch : LaunchOptions) :
    Prop :=
  launch.adapter = none ∧ registry.plugins.find? (·.serves launch) = some manifest ∧
    ∃ other ∈ registry.plugins, other.id ≠ manifest.id ∧ other.serves launch

variable {registry : PluginRegistry} {manifest : PluginManifest} {launch : LaunchOptions}

/-! ### The route of a launch -/

/-- The manifest of an id, as a route. -/
def routeTo (registry : PluginRegistry) (id : String) (e : GatewayError) :
    Except GatewayError Loader.RouteMatch :=
  match registry.get id with
  | some manifest => .ok ⟨id, manifest⟩
  | none => .error e

lemma get_of_mem (h : manifest ∈ registry.plugins) : registry.get manifest.id = some manifest := by
  cases hget : registry.get manifest.id with
  | none => exact absurd (List.find?_eq_none.mp hget manifest h) (by simp)
  | some found =>
    have hfind : registry.plugins.find? (·.id = manifest.id) = some found := hget
    have hid : found.id = manifest.id := by simpa using List.find?_some hfind
    rw [List.inj_on_of_nodup_map registry.unique (List.mem_of_find?_eq_some hfind) h hid]

lemma isSome_gateway_get (registry : PluginRegistry) (id : String) :
    ((buildGatewayRegistry registry.manifests).get id).isSome ↔ (registry.get id).isSome := by
  rw [isSome_get, plugins_buildGatewayRegistry]
  simp only [PluginRegistry.manifests, PluginRegistry.get, List.find?_isSome, List.map_map,
    List.mem_map, Function.comp_apply, decide_eq_true_eq]
  rfl

lemma defaultPlugin_registerManifest (gw : Gateway.PluginRegistry)
    (manifest : Plugin.PluginManifest) :
    (registerManifest gw manifest).defaultPlugin = gw.defaultPlugin := by
  unfold registerManifest Gateway.PluginRegistry.register
  by_cases h : (manifestToStaticPlugin manifest).id ∈ gw.plugins.map (·.id)
  · rw [dif_pos h]
  · rw [dif_neg h]

/-- `fake` is the default where it is registered. -/
lemma defaultPlugin_buildGatewayRegistry (registry : PluginRegistry) :
    (buildGatewayRegistry registry.manifests).defaultPlugin =
      if (registry.get "fake").isSome then some "fake" else none := by
  have hfold (manifests : List Plugin.PluginManifest) (gw : Gateway.PluginRegistry) :
      (manifests.foldl registerManifest gw).defaultPlugin = gw.defaultPlugin := by
    induction manifests generalizing gw with
    | nil => rfl
    | cons manifest manifests ih =>
      rw [List.foldl_cons, ih, defaultPlugin_registerManifest]
  have hfake := isSome_gateway_get registry "fake"
  unfold buildGatewayRegistry at hfake ⊢
  dsimp only at hfake ⊢
  split_ifs at hfake ⊢ with hgw hreg hreg
  · rfl
  · exact absurd (hfake.mp hgw) hreg
  · exact absurd (hfake.mpr hreg) hgw
  · exact hfold _ _

/-- **A launch** goes to the adapter that it names, else to the first manifest that serves it,
else to `fake`. -/
theorem resolveRoute_eq (registry : PluginRegistry) (launch : LaunchOptions) :
    resolveRoute registry launch =
      match launch.adapter with
      | some id => routeTo registry id (.pluginNotFound id)
      | none =>
        match registry.plugins.find? (·.serves launch) with
        | some manifest => .ok ⟨manifest.id, manifest⟩
        | none => routeTo registry "fake" .noRoute := by
  have hexplicit : (launchToRouteContext launch).explicitPlugin = launch.adapter := rfl
  -- the plugins of the gateway are the manifests, in the same order
  have hfind : (buildGatewayRegistry registry.manifests).plugins.find?
      (·.matches (launchToRouteContext launch)) =
      (registry.plugins.find? (·.serves launch)).map fun manifest =>
        manifestToStaticPlugin manifest.toPluginManifest := by
    rw [plugins_buildGatewayRegistry, List.find?_map, PluginRegistry.manifests, List.find?_map,
      Option.map_map]
    rfl
  unfold resolveRoute resolve
  rw [hexplicit, hfind]
  cases launch.adapter with
  | some id =>
    have hsome := isSome_gateway_get registry id
    unfold routeTo
    cases hget : registry.get id with
    | none => simp_all
    | some manifest => simp_all
  | none =>
    cases hserve : registry.plugins.find? (·.serves launch) with
    | some manifest =>
      have hget := get_of_mem (List.mem_of_find?_eq_some hserve)
      have hid : (manifestToStaticPlugin manifest.toPluginManifest).id = manifest.id := rfl
      simp only [Option.map_some, hid, hget]
    | none =>
      have hsome := isSome_gateway_get registry "fake"
      simp only [Option.map_none, routeToDefault, defaultPlugin_buildGatewayRegistry]
      unfold routeTo
      cases hget : registry.get "fake" with
      | none => simp
      | some manifest => simp_all

/-! ### Registering again -/

lemma get_register_again (hm : manifest ∈ registry.plugins) (id : String) :
    (registry.register manifest).get id = registry.get id := by
  have hput : find (fun m : PluginManifest => m.id) (registry.register manifest).plugins id =
      if manifest.id = id then some manifest else registry.get id :=
    find_put registry.plugins manifest id
  refine hput.trans ?_
  split_ifs with h
  · rw [← h, get_of_mem hm]
  · rfl

/-- The manifests are the same as before. -/
lemma mem_register_again (hm : manifest ∈ registry.plugins) (other : PluginManifest) :
    other ∈ (registry.register manifest).plugins ↔ other ∈ registry.plugins := by
  constructor
  · intro h
    rcases List.mem_append.mp h with h | h
    · exact (List.mem_filter.mp h).1
    · rw [List.mem_singleton.mp h]
      exact hm
  · intro h
    by_cases hid : other.id = manifest.id
    · rw [List.inj_on_of_nodup_map registry.unique h hm hid]
      exact List.mem_append_right _ (List.mem_singleton_self manifest)
    · exact List.mem_append_left _ (List.mem_filter.mpr ⟨h, by simpa using hid⟩)

lemma find?_register_again_eq_none (hm : manifest ∈ registry.plugins) (launch : LaunchOptions) :
    (registry.register manifest).plugins.find? (·.serves launch) = none ↔
      registry.plugins.find? (·.serves launch) = none := by
  simp only [List.find?_eq_none, mem_register_again hm]

/-- **Registering again** leaves the route of a launch as it is exactly where the manifest is not
the first of several that serve it. -/
theorem resolveRoute_register_again_iff (hm : manifest ∈ registry.plugins)
    (launch : LaunchOptions) :
    resolveRoute (registry.register manifest) launch = resolveRoute registry launch ↔
      ¬ Overlaps registry manifest launch := by
  have hfind : (registry.register manifest).plugins.find? (·.serves launch) =
      registry.plugins.find? (·.serves launch) ↔
        ¬ (registry.plugins.find? (·.serves launch) = some manifest ∧
          ∃ other ∈ registry.plugins, other.id ≠ manifest.id ∧ other.serves launch) :=
    find?_put_eq_iff registry.unique hm
  have hnone := find?_register_again_eq_none hm launch
  rw [resolveRoute_eq, resolveRoute_eq, Overlaps]
  unfold routeTo
  simp only [get_register_again hm]
  cases launch.adapter with
  | some id => exact iff_of_true rfl (by simp)
  | none =>
    rw [eq_self, true_and, ← hfind]
    refine ⟨fun h => ?_, fun h => by rw [h]⟩
    cases hnew : (registry.register manifest).plugins.find? (·.serves launch) with
    | none => exact (hnone.mp hnew).symm
    | some found =>
      cases hold : registry.plugins.find? (·.serves launch) with
      | none =>
        rw [hnone.mpr hold] at hnew
        cases hnew
      | some first =>
        rw [hnew, hold] at h
        exact congrArg some (RouteMatch.mk.inj (Except.ok.inj h)).2

section Example

/-- Two plugins for one launch type. -/
def twoDebugpys : PluginRegistry where
  plugins := [pythonManifest "python3", { pythonManifest "pypy3" with id := "pypy" }]
  unique := by decide

/-- A launch that names only the type. -/
def debugpyLaunch : LaunchOptions := ⟨none, none, .obj [("type", .string "debugpy")]⟩

theorem resolveRoute_register_again_iff_debugpy :
    resolveRoute (twoDebugpys.register (pythonManifest "python3")) debugpyLaunch =
        resolveRoute twoDebugpys debugpyLaunch ↔
      ¬ Overlaps twoDebugpys (pythonManifest "python3") debugpyLaunch :=
  resolveRoute_register_again_iff List.mem_cons_self debugpyLaunch

/-- Once the first is registered again, the launch goes to the other. -/
theorem registering_again_moves_the_route :
    pythonManifest "python3" ∈ twoDebugpys.plugins ∧
      resolveRoute (twoDebugpys.register (pythonManifest "python3")) debugpyLaunch ≠
        resolveRoute twoDebugpys debugpyLaunch := by
  refine ⟨List.mem_cons_self, fun h => ?_⟩
  have hadapter := congrArg (fun r => r.toOption.map (·.adapterId)) h
  exact absurd hadapter (by decide)

end Example

end DappyCore.Loader
