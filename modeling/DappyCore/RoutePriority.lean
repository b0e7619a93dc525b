import DappyCore.Gateway

/-!
The priorities of a route: a named plugin, the launch type, the extension of the program, the
default plugin. The gateway scans its plugins once for launch type and extension together.
-/

namespace DappyCore.Gateway

open Lib.FirstMatch Plugin

/-! ### The priorities -/

inductive Platform | unix | windows

/-- `std::path::is_separator`. -/
def isSeparator : Platform → Char → Bool
  | .unix, c => c = '/'
  | .windows, c => c = '/' ∨ c = '\\'

/-- The final component of a path. -/
def finalComponent (platform : Platform) (path : String) : List Char :=
  path.toList.rtakeWhile fun c => !isSeparator platform c

/-- The extension of a path: what is after the last dot of its final component, if it has one. -/
def extension (platform : Platform) (path : String) : Option String :=
  if '.' ∈ finalComponent platform path then some (afterLastDot (finalComponent platform path))
  else none

/-- The first plugin that declares the launch type. -/
def byLaunchType (registry : PluginRegistry) (ctx : RouteContext) : Option StaticPlugin :=
  registry.plugins.find? (·.matchesType ctx)

/-- The first plugin that has the extension of the program. -/
def byExtension (platform : Platform) (registry : PluginRegistry) (ctx : RouteContext) :
    Option StaticPlugin :=
  (ctx.programPath.bind (extension platform)).bind fun ext =>
    registry.plugins.find? fun plugin => ext ∈ plugin.fileExtensions

/-- The plugin that comes first in priority. -/
def route (platform : Platform) (registry : PluginRegistry) (ctx : RouteContext) :
    Except GatewayError RouteMatch :=
  match ctx.explicitPlugin with
  | some id =>
    if id ∈ registry.plugins.map (·.id) then .ok ⟨id⟩ else .error (.pluginNotFound id)
  | none =>
    match (byLaunchType registry ctx).or (byExtension platform registry ctx) with
    | some plugin => .ok ⟨plugin.id⟩
    | none =>
      match registry.defaultPlugin with
      | some id => if id ∈ registry.plugins.map (·.id) then .ok ⟨id⟩ else .error .noRoute
      | none => .error .noRoute

/-- Unless a plugin is named, none before the first that declares the launch type has what is
after the last dot of the path. Where none declares it, but one has that, the final component
has a dot, or the plugin is the default. -/
def InPriority (platform : Platform) (registry : PluginRegistry) (ctx : RouteContext) : Prop :=
  ctx.explicitPlugin = none →
    match byLaunchType registry ctx with
    | some _ => ∀ plugin ∈ registry.plugins.takeWhile (!·.matchesType ctx),
        plugin.matchesPath ctx = false
    | none => ∀ plugin, registry.plugins.find? (·.matchesPath ctx) = some plugin →
        (ctx.programPath.bind (extension platform)).isSome ∨
          registry.defaultPlugin = some plugin.id

/-! ### Plugins -/

variable {platform : Platform} {registry : PluginRegistry} {ctx : RouteContext}

lemma isSome_get (id : String) : (registry.get id).isSome ↔ id ∈ registry.plugins.map (·.id) := by
  simp [PluginRegistry.get, List.mem_map]

/-- Plugins of one id are one plugin. -/
lemma eq_of_id {p q : StaticPlugin} (hp : p ∈ registry.plugins) (hq : q ∈ registry.plugins)
    (h : p.id = q.id) : p = q :=
  List.inj_on_of_nodup_map registry.unique hp hq h

/-- Without a name, a plugin matches by launch type or by path. -/
lemma find?_matches (h : ctx.explicitPlugin = none) :
    registry.plugins.find? (·.matches ctx) =
      registry.plugins.find? fun p => p.matchesType ctx || p.matchesPath ctx := by
  simp only [StaticPlugin.matches, h]

/-- With an extension, the path matches by it. -/
lemma byExtension_of_isSome (h : (ctx.programPath.bind (extension platform)).isSome) :
    byExtension platform registry ctx = registry.plugins.find? (·.matchesPath ctx) := by
  unfold byExtension
  cases hp : ctx.programPath with
  | none => simp [hp] at h
  | some path =>
    rw [hp, Option.bind_some, extension] at h
    by_cases hdot : '.' ∈ finalComponent platform path
    · have hafter : afterLastDot (finalComponent platform path) = afterLastDot path.toList :=
        congrArg String.ofList (rtakeWhile_rtakeWhile ⟨'.', hdot, by simp⟩)
      rw [Option.bind_some, extension, if_pos hdot, Option.bind_some, hafter]
      simp only [StaticPlugin.matchesPath, hp, Option.any_some]
    · simp [hdot] at h

lemma byExtension_of_not_isSome (h : ¬ (ctx.programPath.bind (extension platform)).isSome) :
    byExtension platform registry ctx = none := by
  unfold byExtension
  rw [Option.not_isSome_iff_eq_none.mp h]
  rfl

/-! ### The scan -/

lemma routeToDefault_eq (registry : PluginRegistry) : routeToDefault registry =
    match registry.defaultPlugin with
    | some id => if id ∈ registry.plugins.map (·.id) then .ok ⟨id⟩ else .error .noRoute
    | none => .error .noRoute := by
  unfold routeToDefault
  cases registry.defaultPlugin with
  | none => rfl
  | some id => simp only [isSome_get]

/-- A plugin is the default exactly where what matches no other is routed to it. -/
lemma ok_eq_routeToDefault {plugin : StaticPlugin} (h : plugin ∈ registry.plugins) :
    (.ok ⟨plugin.id⟩ : Except GatewayError RouteMatch) = routeToDefault registry ↔
      registry.defaultPlugin = some plugin.id := by
  rw [routeToDefault_eq]
  constructor
  · intro hr
    split at hr
    · next id hid =>
      split_ifs at hr with hmem
      rw [hid, RouteMatch.mk.inj (Except.ok.inj hr)]
    · cases hr
  · intro hd
    rw [hd]
    exact (if_pos (List.mem_map_of_mem h)).symm

/-- Where a plugin declares the launch type, the scan finds the first of them if it comes upon no
extension before. -/
lemma scan_of_launchType {first : StaticPlugin} (h : byLaunchType registry ctx = some first) :
    (match registry.plugins.find? fun p => p.matchesType ctx || p.matchesPath ctx with
      | some plugin => (.ok ⟨plugin.id⟩ : Except GatewayError RouteMatch)
      | none => routeToDefault registry) = .ok ⟨first.id⟩ ↔
    ∀ plugin ∈ registry.plugins.takeWhile (!·.matchesType ctx),
      plugin.matchesPath ctx = false := by
  have hfirst := List.mem_of_find?_eq_some h
  rw [← find?_or_eq_some_iff h]
  cases hf : registry.plugins.find? fun p => p.matchesType ctx || p.matchesPath ctx with
  | none =>
    have hno := List.find?_eq_none.mp hf first hfirst
    have hfind : registry.plugins.find? (·.matchesType ctx) = some first := h
    have htype := List.find?_some hfind
    simp [htype] at hno
  | some plugin =>
    have hplugin := List.mem_of_find?_eq_some hf
    constructor
    · intro hid
      rw [eq_of_id hplugin hfirst (RouteMatch.mk.inj (Except.ok.inj hid))]
    · intro hsome
      rw [Option.some.inj hsome]

/-- Where none does, it finds the first whose extension is after the last dot. -/
lemma scan_of_path :
    (match registry.plugins.find? (·.matchesPath ctx) with
      | some plugin => (.ok ⟨plugin.id⟩ : Except GatewayError RouteMatch)
      | none => routeToDefault registry) =
      (match byExtension platform registry ctx with
      | some plugin => .ok ⟨plugin.id⟩
      | none => routeToDefault registry) ↔
    ∀ plugin, registry.plugins.find? (·.matchesPath ctx) = some plugin →
      (ctx.programPath.bind (extension platform)).isSome ∨
        registry.defaultPlugin = some plugin.id := by
  by_cases hx : (ctx.programPath.bind (extension platform)).isSome
  · rw [byExtension_of_isSome hx]
    exact iff_of_true rfl fun _ _ => .inl hx
  · rw [byExtension_of_not_isSome hx]
    cases hf : registry.plugins.find? (·.matchesPath ctx) with
    | none => exact iff_of_true rfl nofun
    | some plugin =>
      have hdefault := ok_eq_routeToDefault (List.mem_of_find?_eq_some hf)
      dsimp only
      rw [hdefault]
      simp [hx]

/-- **The gateway routes by priority** exactly where its one scan does not come upon an extension
before the launch type, nor takes for an extension what is none. -/
theorem resolve_eq_route_iff (platform : Platform) (registry : PluginRegistry)
    (ctx : RouteContext) :
    resolve registry ctx = route platform registry ctx ↔ InPriority platform registry ctx := by
  unfold resolve route InPriority
  cases he : ctx.explicitPlugin with
  | some id => simp [isSome_get]
  | none =>
    have hnamed : ∀ {P : Prop}, ((none : Option String) = none → P) ↔ P := imp_iff_right rfl
    rw [find?_matches he, ← routeToDefault_eq, hnamed]
    cases ht : byLaunchType registry ctx with
    | some first =>
      rw [Option.some_or]
      exact scan_of_launchType ht
    | none =>
      rw [Option.none_or, find?_or_of_none ht]
      exact scan_of_path

/-- Two plugins, of which the first goes by extension and the other by launch type. -/
def twoPlugins : PluginRegistry where
  plugins := [⟨"python", [], ["py"]⟩, ⟨"remote", ["attach"], []⟩]
  defaultPlugin := none
  unique := by decide

/-- The first wins over the launch type, and on a program that is called as its extension. -/
theorem extension_overtakes_launchType :
    resolve twoPlugins ⟨none, some "attach", some "main.py"⟩ ≠
        route .unix twoPlugins ⟨none, some "attach", some "main.py"⟩ ∧
      resolve twoPlugins ⟨none, none, some "py"⟩ ≠
        route .unix twoPlugins ⟨none, none, some "py"⟩ := by
  decide

/-! ### Launches -/

/-- A route is to a registered plugin. -/
theorem mem_of_resolve {matched : RouteMatch} (h : resolve registry ctx = .ok matched) :
    matched.pluginId ∈ registry.plugins.map (·.id) := by
  unfold resolve at h
  split at h
  · split_ifs at h with hget
    rw [← Except.ok.inj h]
    exact (isSome_get _).mp hget
  · split at h
    · next plugin hfind =>
      rw [← Except.ok.inj h]
      exact List.mem_map_of_mem (List.mem_of_find?_eq_some hfind)
    · rw [routeToDefault_eq] at h
      split at h
      · split_ifs at h with hmem
        rw [← Except.ok.inj h]
        exact hmem
      · cases h

lemma plugins_registerManifest {gw : PluginRegistry} {manifest : PluginManifest}
    (h : manifest.id ∉ gw.plugins.map (·.id)) :
    (registerManifest gw manifest).plugins = gw.plugins ++ [manifestToStaticPlugin manifest] := by
  have hid : (manifestToStaticPlugin manifest).id ∉ gw.plugins.map (·.id) := h
  simp only [registerManifest, PluginRegistry.register, dif_neg hid]

lemma plugins_foldl_registerManifest {manifests : List PluginManifest} {gw : PluginRegistry}
    (h : (gw.plugins.map (·.id) ++ manifests.map (·.id)).Nodup) :
    (manifests.foldl registerManifest gw).plugins =
      gw.plugins ++ manifests.map manifestToStaticPlugin := by
  induction manifests generalizing gw with
  | nil => simp
  | cons manifest manifests ih =>
    have hnew : manifest.id ∉ gw.plugins.map (·.id) := fun hmem =>
      List.disjoint_of_nodup_append h hmem List.mem_cons_self
    have hplugins := plugins_registerManifest hnew
    rw [List.foldl_cons, ih, hplugins, List.append_assoc]
    · rfl
    · rw [hplugins, List.map_append, List.append_assoc]
      exact h

/-- **Every loaded plugin** is registered with the gateway, in the same order. -/
theorem plugins_buildGatewayRegistry (manifests : Manifests) :
    (buildGatewayRegistry manifests).plugins = manifests.plugins.map manifestToStaticPlugin := by
  have hplugins : (manifests.plugins.foldl registerManifest .new).plugins =
      manifests.plugins.map manifestToStaticPlugin :=
    plugins_foldl_registerManifest manifests.unique
  unfold buildGatewayRegistry
  dsimp only
  split_ifs
  · exact hplugins
  · exact hplugins

/-- **Every route has a manifest**, so that a launch fails only where its route does. -/
theorem resolveRoute_of_resolve {manifests : Manifests} {launch : LaunchOptions}
    {matched : RouteMatch}
    (h : resolve (buildGatewayRegistry manifests) (launchToRouteContext launch) = .ok matched) :
    ∃ manifest ∈ manifests.plugins, manifest.id = matched.pluginId ∧
      resolveRoute manifests launch = .ok ⟨matched.pluginId, manifest⟩ := by
  have hmem := mem_of_resolve h
  rw [plugins_buildGatewayRegistry, List.map_map] at hmem
  obtain ⟨manifest, hmanifest, hstatic⟩ := List.mem_map.mp hmem
  have hid : manifest.id = matched.pluginId := hstatic
  cases hget : manifests.get matched.pluginId with
  | none =>
    have hno := List.find?_eq_none.mp hget manifest hmanifest
    exact absurd hid (by simpa using hno)
  | some found =>
    have hfound : manifests.plugins.find? (·.id = matched.pluginId) = some found := hget
    refine ⟨found, List.mem_of_find?_eq_some hfound, by simpa using List.find?_some hfound, ?_⟩
    simp only [resolveRoute, h, hget]

end DappyCore.Gateway
