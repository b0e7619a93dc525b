import DappyCore.Gateway
import DappyCore.Lib.Keyed
import DappyCore.ManifestFiles

/-!
The order in which a directory is listed: manifests are sorted by id before they are registered, so
it is left to the directory which of two with one id comes last.
-/

namespace DappyCore.Loader

open Lib Lib.Effect Lib.Keyed Lib.Selection Json

variable {serde : Serde} {disk : Disk}

/-! ### The registry -/

/-- Registry of adapter plugin manifests with disk-backed loading. -/
@[ext]
structure PluginRegistry where
  plugins : List PluginManifest
  unique : (plugins.map (·.id)).Nodup

/-- The manifest that a launch is routed to. -/
structure RouteMatch where
  adapterId : String
  manifest : PluginManifest

namespace PluginRegistry

def new : PluginRegistry := ⟨[], List.nodup_nil⟩

def register (registry : PluginRegistry) (manifest : PluginManifest) : PluginRegistry where
  plugins := registry.plugins.filter (·.id ≠ manifest.id) ++ [manifest]
  unique := nodup_put registry.unique manifest

def get (registry : PluginRegistry) (id : String) : Option PluginManifest :=
  registry.plugins.find? (·.id = id)

/-- Load manifests from a plugin root. Nothing is registered where one of them cannot be loaded. -/
def loadFromDir (serde : Serde) (disk : Disk) (registry : PluginRegistry) (dir : String) :
    Except (String × PluginError) Unit × PluginRegistry :=
  match Loader.loadFromDir serde disk dir with
  | .error e => (.error ("load plugin manifests", e), registry)
  | .ok manifests => (.ok (), manifests.foldl register registry)

/-- The manifests as far as a launch is routed by them. -/
def manifests (registry : PluginRegistry) : Gateway.Manifests where
  plugins := registry.plugins.map (·.toPluginManifest)
  unique := by
    rw [List.map_map]
    exact registry.unique

end PluginRegistry

def resolveRoute (registry : PluginRegistry) (launch : Gateway.LaunchOptions) :
    Except Gateway.GatewayError RouteMatch :=
  match Gateway.resolve (Gateway.buildGatewayRegistry registry.manifests)
      (Gateway.launchToRouteContext launch) with
  | .error e => .error e
  | .ok matched =>
    match registry.get matched.pluginId with
    | some manifest => .ok ⟨matched.pluginId, manifest⟩
    | none => .error (.pluginNotFound matched.pluginId)

/-- **A route** leads to a manifest with all that was loaded of it. -/
theorem resolveRoute_manifests (registry : PluginRegistry) (launch : Gateway.LaunchOptions) :
    (resolveRoute registry launch).map (fun found =>
        (⟨found.adapterId, found.manifest.toPluginManifest⟩ : Gateway.AdapterMatch)) =
      Gateway.resolveRoute registry.manifests launch := by
  have hget (id : String) : registry.manifests.get id =
      (registry.get id).map (·.toPluginManifest) := by
    unfold Gateway.Manifests.get PluginRegistry.get PluginRegistry.manifests
    rw [List.find?_map]
    rfl
  unfold resolveRoute Gateway.resolveRoute
  cases Gateway.resolve (Gateway.buildGatewayRegistry registry.manifests)
      (Gateway.launchToRouteContext launch) with
  | error e => rfl
  | ok matched =>
    simp only [hget]
    cases registry.get matched.pluginId <;> rfl

/-! ### Listing a directory in another order -/

/-- The same files, with the entries of a root in some order. -/
def Disk.relisted (disk : Disk) (root : String) (entries : List String) : Disk :=
  { disk with
    readDir := fun path => if path = root then .ok (entries.map .ok) else disk.readDir path }

def Root.relist (root : Root disk) (entries : List String) :
    Root (disk.relisted root.path entries) where
  path := root.path
  entries
  isDir := root.isDir
  listed := if_pos rfl

/-- The files that plugin manifests are read from. -/
def pluginFiles (serde : Serde) (disk : Disk) (entries : List String) : List String :=
  entries.filterMap (chosen disk (manifestInPluginDir disk) (isPluginManifestFile serde disk))

/-- The registry after a root was loaded whose entries are listed in some order. -/
def loaded (serde : Serde) (root : Root disk) (registry : PluginRegistry) (entries : List String) :
    PluginRegistry :=
  (registry.loadFromDir serde (disk.relisted root.path entries) root.path).2

/-- Two orders make no difference to the registry, nor to a route. -/
structure SameLoaded (serde : Serde) (root : Root disk) (registry : PluginRegistry)
    (entries entries' : List String) : Prop where
  state : loaded serde root registry entries = loaded serde root registry entries'
  route : ∀ launch, resolveRoute (loaded serde root registry entries) launch =
    resolveRoute (loaded serde root registry entries') launch

/-- A manifest cannot be loaded, or no two of them have one id. -/
def Determined (serde : Serde) (root : Root disk) : Prop :=
  (∃ file ∈ pluginFiles serde disk root.entries, ¬ isPlugin serde disk file) ∨
    ∀ file ∈ pluginFiles serde disk root.entries, ∀ file' ∈ pluginFiles serde disk root.entries,
      ∀ manifest manifest', loadFromFile serde disk file = .ok manifest →
        loadFromFile serde disk file' = .ok manifest' → manifest.id = manifest'.id → file = file'

section Order

variable {root : Root disk} {registry : PluginRegistry} {entries entries' : List String}

lemma loadFromDir_relisted : loadFromDir serde (disk.relisted root.path entries) root.path =
    ((pluginFiles serde disk entries).mapM (loadFromFile serde disk)).map
      (sortBy (fun a b => decide (a ≤ b)) (·.id)) :=
  loadDir_eq (root.relist entries)

lemma plugins_foldl_register (manifests : List PluginManifest) (registry : PluginRegistry) :
    (manifests.foldl PluginRegistry.register registry).plugins =
      manifests.foldl (put (·.id)) registry.plugins := by
  induction manifests generalizing registry with
  | nil => rfl
  | cons manifest manifests ih => exact ih (registry.register manifest)

/-- What is read is sorted by id and registered. -/
lemma loaded_of_ok {manifests : List PluginManifest}
    (h : (pluginFiles serde disk entries).mapM (loadFromFile serde disk) = .ok manifests) :
    loaded serde root registry entries =
      (sortBy (fun a b => decide (a ≤ b)) (·.id) manifests).foldl PluginRegistry.register
        registry := by
  unfold loaded PluginRegistry.loadFromDir
  rw [loadFromDir_relisted, h]
  rfl

/-- Where something cannot be loaded, nothing is registered. -/
lemma loaded_of_not_isPlugin
    (h : ∃ file ∈ pluginFiles serde disk entries, ¬ isPlugin serde disk file) :
    loaded serde root registry entries = registry := by
  obtain ⟨file, hfile, hnot⟩ := h
  unfold loaded PluginRegistry.loadFromDir
  rw [loadFromDir_relisted]
  cases hread : (pluginFiles serde disk entries).mapM (loadFromFile serde disk) with
  | error e => rfl
  | ok manifests => exact absurd (isOk_of_mapM hread hfile) hnot

lemma sourcePath_of_loadFromFile {file : String} {manifest : PluginManifest}
    (h : loadFromFile serde disk file = .ok manifest) : manifest.sourcePath = some file := by
  obtain ⟨text, -, h⟩ := except_bind_eq_ok.mp h
  obtain ⟨_, -, h⟩ := except_bind_eq_ok.mp h
  obtain ⟨⟨⟩, -, h⟩ := except_bind_eq_ok.mp h
  rw [← Except.ok.inj h]

lemma perm_erase_append {l : List String} {a : String} (h : a ∈ l) : (l.erase a ++ [a]).Perm l :=
  (List.perm_append_singleton a _).trans (List.perm_cons_erase h).symm

lemma perm_pluginFiles (serde : Serde) (h : entries.Perm root.entries) :
    (pluginFiles serde disk entries).Perm (pluginFiles serde disk root.entries) :=
  h.filterMap _

/-- **Where no two have one id**, the order is lost. -/
lemma loaded_eq_of_perm (registry : PluginRegistry) (h : entries.Perm root.entries)
    (h' : entries'.Perm root.entries) (hdetermined : Determined serde root) :
    loaded serde root registry entries = loaded serde root registry entries' := by
  have hfiles := perm_pluginFiles serde h
  have hfiles' := perm_pluginFiles serde h'
  by_cases hfails : ∃ file ∈ pluginFiles serde disk root.entries, ¬ isPlugin serde disk file
  · -- no order loads a folder with a file that is not valid
    obtain ⟨file, hfile, hnot⟩ := hfails
    rw [loaded_of_not_isPlugin ⟨file, hfiles.mem_iff.mpr hfile, hnot⟩,
      loaded_of_not_isPlugin ⟨file, hfiles'.mem_iff.mpr hfile, hnot⟩]
  · have hids := hdetermined.resolve_left hfails
    have hall : ∀ file ∈ pluginFiles serde disk root.entries, isPlugin serde disk file :=
      fun file hfile => by_contra fun hnot => hfails ⟨file, hfile, hnot⟩
    rw [loaded_of_ok (mapM_of_isOk fun file hfile => hall file (hfiles.mem_iff.mp hfile)),
      loaded_of_ok (mapM_of_isOk fun file hfile => hall file (hfiles'.mem_iff.mp hfile))]
    refine congrArg (List.foldl _ _) (sortBy_eq_of_perm orderTest_le ?_ ?_)
    · exact (hfiles.trans hfiles'.symm).filterMap _
    · -- manifests with one id are one manifest
      intro a ha b hb hid
      obtain ⟨file, hfile, hload⟩ := List.mem_filterMap.mp ha
      obtain ⟨file', hfile', hload'⟩ := List.mem_filterMap.mp hb
      have hsame := hids file (hfiles.mem_iff.mp hfile) file' (hfiles.mem_iff.mp hfile') a b
        (toOption_eq_some.mp hload) (toOption_eq_some.mp hload') hid
      rw [hsame, hload'] at hload
      exact (Option.some.inj hload).symm

/-- **What comes last** is what the registry has with its id. -/
lemma get_loaded_last (registry : PluginRegistry) {entry file : String}
    {manifest : PluginManifest}
    (hall : ∀ file ∈ pluginFiles serde disk root.entries, isPlugin serde disk file)
    (hentry : entry ∈ root.entries)
    (hfile : chosen disk (manifestInPluginDir disk) (isPluginManifestFile serde disk) entry =
      some file) (hload : loadFromFile serde disk file = .ok manifest) :
    (loaded serde root registry (root.entries.erase entry ++ [entry])).get manifest.id =
      some manifest := by
  have hfiles : pluginFiles serde disk (root.entries.erase entry ++ [entry]) =
      pluginFiles serde disk (root.entries.erase entry) ++ [file] := by
    rw [pluginFiles, List.filterMap_append]
    simp only [List.filterMap_cons, hfile, List.filterMap_nil]
    rfl
  have hperm := perm_pluginFiles serde (perm_erase_append hentry)
  have hread : _ = Except.ok _ := mapM_of_isOk fun file hfile => hall file (hperm.mem_iff.mp hfile)
  rw [hfiles, List.filterMap_append] at hread
  simp only [List.filterMap_cons, toOption_eq_some.mpr hload, List.filterMap_nil] at hread
  rw [loaded_of_ok (hfiles ▸ hread), PluginRegistry.get, plugins_foldl_register]
  exact find_last orderTest_le _ _ manifest

/-- **Loading does not depend on the order** in which a root is listed exactly where no two files
have manifests with one id, or one of them cannot be loaded. -/
theorem order_irrelevant_iff (root : Root disk) (registry : PluginRegistry) :
    (∀ entries entries' : List String, entries.Perm root.entries → entries'.Perm root.entries →
      SameLoaded serde root registry entries entries') ↔ Determined serde root := by
  constructor
  · intro h
    by_cases hfails : ∃ file ∈ pluginFiles serde disk root.entries, ¬ isPlugin serde disk file
    · exact .inl hfails
    · have hall : ∀ file ∈ pluginFiles serde disk root.entries, isPlugin serde disk file :=
        fun file hfile => by_contra fun hnot => hfails ⟨file, hfile, hnot⟩
      refine .inr fun file hfile file' hfile' manifest manifest' hload hload' hid => ?_
      obtain ⟨entry, hentry, hchosen⟩ := List.mem_filterMap.mp hfile
      obtain ⟨entry', hentry', hchosen'⟩ := List.mem_filterMap.mp hfile'
      -- each of the two is put last in turn
      have hlast := get_loaded_last registry hall hentry hchosen hload
      have hlast' := get_loaded_last registry hall hentry' hchosen' hload'
      have hstate := (h _ _ (perm_erase_append hentry) (perm_erase_append hentry')).state
      rw [hstate, hid, hlast'] at hlast
      have hpath := sourcePath_of_loadFromFile hload
      rw [← Option.some.inj hlast, sourcePath_of_loadFromFile hload'] at hpath
      exact (Option.some.inj hpath).symm
  · -- sorted by id, the manifests come in one order only
    intro hdetermined entries entries' hentries hentries'
    have hstate := loaded_eq_of_perm registry hentries hentries' hdetermined
    exact ⟨hstate, fun launch => by rw [hstate]⟩

end Order

section Example

/-- Two folders with one id. -/
def twinsDisk : Disk := exampleDisk ["plugins/pypy", "plugins/python"]
  [("plugins/pypy/plugin.yaml", pythonText "pypy3"),
    ("plugins/python/plugin.yaml", pythonText "python3")]

def twinsRoot : Root twinsDisk := exampleRoot _ _

def pypyTwin : PluginManifest :=
  { pythonManifest "pypy3" with sourcePath := some "plugins/pypy/plugin.yaml" }

def pythonTwin : PluginManifest :=
  { pythonManifest "python3" with sourcePath := some "plugins/python/plugin.yaml" }

/-- Of two with one id, the second stays. -/
lemma loaded_twins {entries : List String} {manifest manifest' : PluginManifest}
    (hread : (pluginFiles exampleSerde twinsDisk entries).mapM
      (loadFromFile exampleSerde twinsDisk) = .ok [manifest, manifest'])
    (hid : manifest.id = manifest'.id) :
    loaded exampleSerde twinsRoot .new entries = ⟨[manifest'], List.nodup_singleton _⟩ := by
  have hsorted : [manifest, manifest'].Pairwise fun a b => decide (a.id ≤ b.id) = true := by
    simp [hid]
  refine PluginRegistry.ext ?_
  rw [loaded_of_ok hread, plugins_foldl_register, sortBy, List.mergeSort_of_pairwise hsorted]
  simp [put, PluginRegistry.new, hid]

/-- A launch by id is routed to the one or the other. -/
theorem twins_depend_on_order : ¬ ∀ entries entries' : List String,
    entries.Perm twinsRoot.entries → entries'.Perm twinsRoot.entries →
      SameLoaded exampleSerde twinsRoot .new entries entries' := by
  intro h
  have hroute := (h ["plugins/pypy", "plugins/python"] ["plugins/python", "plugins/pypy"]
    (.refl _) (.swap _ _ _)).route ⟨none, some "python", .obj []⟩
  have hread : (pluginFiles exampleSerde twinsDisk ["plugins/pypy", "plugins/python"]).mapM
      (loadFromFile exampleSerde twinsDisk) = .ok [pypyTwin, pythonTwin] := rfl
  have hread' : (pluginFiles exampleSerde twinsDisk ["plugins/python", "plugins/pypy"]).mapM
      (loadFromFile exampleSerde twinsDisk) = .ok [pythonTwin, pypyTwin] := rfl
  rw [loaded_twins hread rfl, loaded_twins hread' rfl] at hroute
  have hadapter := congrArg (fun r => r.toOption.map (·.manifest.adapter.command)) hroute
  exact absurd hadapter (by decide)

end Example

end DappyCore.Loader
