import DappyCore.Loader
import Mathlib.Data.List.Dedup

/-!
Plugins and targets in one directory: both loaders go through the same files, in folders by their
names and elsewhere by what is in them. What is valid for one of them is in the way of the other
where its name is one that both look for.
-/

namespace DappyCore.Loader

open Json Lib.Effect Lib.Selection Paths

variable {serde : Serde} {disk : Disk}

/-- A plugin root: a directory that can be listed. -/
structure Root (disk : Disk) where
  path : String
  entries : List String
  isDir : disk.isDir path
  listed : disk.readDir path = .ok (entries.map .ok)

/-! ### One pass over a directory -/

section Pass

variable {M : Type} {inDir : String → Option String} {isManifestFile : String → Bool}
  {load : String → Except PluginError M} {id : M → String}

/-- The file that is read for an entry of the directory. -/
def chosen (disk : Disk) (inDir : String → Option String) (isManifestFile : String → Bool)
    (path : String) : Option String :=
  if disk.isDir path then inDir path else if isManifestFile path then some path else none

lemma loadEntry_ok (dir path : String) (manifests : List M) :
    loadEntry disk inDir isManifestFile load dir manifests (.ok path) =
      match chosen disk inDir isManifestFile path with
      | some file => (load file).map fun manifest => manifests ++ [manifest]
      | none => .ok manifests := by
  unfold loadEntry chosen
  simp only [Except.mapError, bind, Except.bind]
  by_cases hdir : disk.isDir path
  · rw [if_pos hdir, if_pos hdir]
    cases inDir path with
    | none => rfl
    | some file => cases hload : load file <;> simp only [hload] <;> rfl
  · rw [if_neg hdir, if_neg hdir]
    by_cases hfile : isManifestFile path
    · rw [if_pos hfile, if_pos hfile]
      cases hload : load path <;> simp only [hload] <;> rfl
    · rw [if_neg hfile, if_neg hfile]
      rfl

lemma foldlM_loadEntry (dir : String) (entries : List String) (manifests : List M) :
    (entries.map .ok).foldlM (loadEntry disk inDir isManifestFile load dir) manifests =
      ((entries.filterMap (chosen disk inDir isManifestFile)).mapM load).map (manifests ++ ·) := by
  induction entries generalizing manifests with
  | nil =>
    rw [List.filterMap_nil, List.mapM_nil]
    exact congrArg Except.ok (List.append_nil manifests).symm
  | cons path entries ih =>
    rw [List.map_cons, List.foldlM_cons, loadEntry_ok, List.filterMap_cons]
    cases chosen disk inDir isManifestFile path with
    | none => exact ih manifests
    | some file =>
      dsimp only
      rw [List.mapM_cons]
      cases hfile : load file with
      | error e => rfl
      | ok manifest =>
        have hrest := ih (manifests ++ [manifest])
        cases hall : (entries.filterMap (chosen disk inDir isManifestFile)).mapM load with
        | error e =>
          rw [hall] at hrest
          exact hrest
        | ok rest =>
          rw [hall] at hrest
          refine hrest.trans (congrArg Except.ok ?_)
          dsimp only
          rw [List.append_assoc, List.singleton_append]

/-- **A directory is read** file by file, and sorted. -/
lemma loadDir_eq (root : Root disk) : loadDir disk inDir isManifestFile load id root.path =
    ((root.entries.filterMap (chosen disk inDir isManifestFile)).mapM load).map
      (·.mergeSort fun a b => id a ≤ id b) := by
  unfold loadDir
  rw [root.isDir, root.listed]
  simp only [Except.mapError, bind, Except.bind, not_true, if_false]
  rw [foldlM_loadEntry]
  cases (root.entries.filterMap (chosen disk inDir isManifestFile)).mapM load <;> rfl

end Pass

/-! ### What the files hold -/

def isPlugin (serde : Serde) (disk : Disk) (path : String) : Bool :=
  (loadFromFile serde disk path).isOk

def isTarget (serde : Serde) (disk : Disk) (path : String) : Bool :=
  (loadTargetFromFile serde disk path).isOk

section Fields

variable {path : String}

lemma documentIn_of_read {text : String} {value : serde.Document}
    (htext : disk.readToString path = .ok text) (hvalue : serde.document text = .ok value) :
    documentIn serde disk path = some value := by
  unfold documentIn
  simp only [htext, hvalue]

/-- A plugin manifest is read from a document. -/
lemma document_of_isPlugin (h : isPlugin serde disk path) : ∃ value manifest,
    documentIn serde disk path = some value ∧ serde.plugin value = .ok manifest := by
  obtain ⟨loaded, h⟩ := isOk_iff.mp h
  obtain ⟨text, htext, h⟩ := except_bind_eq_ok.mp h
  obtain ⟨manifest, hmanifest, -⟩ := except_bind_eq_ok.mp h
  obtain ⟨value, hvalue, hmanifest⟩ := except_bind_eq_ok.mp (mapError_eq_ok.mp hmanifest)
  exact ⟨value, manifest, documentIn_of_read (mapError_eq_ok.mp htext) hvalue, hmanifest⟩

lemma targetTypes_of_validate {manifest : TargetManifest} (h : manifest.validate = .ok ()) :
    manifest.targetTypes ≠ [] := by
  intro hnil
  unfold TargetManifest.validate at h
  rw [hnil] at h
  simp only [bind, Except.bind] at h
  split_ifs at h with hid hname hversion htypes
  exact htypes rfl

/-- A target manifest is read from a document, and has types. -/
lemma document_of_isTarget (h : isTarget serde disk path) : ∃ value manifest,
    documentIn serde disk path = some value ∧ serde.target value = .ok manifest ∧
      manifest.targetTypes ≠ [] := by
  obtain ⟨loaded, h⟩ := isOk_iff.mp h
  obtain ⟨text, htext, h⟩ := except_bind_eq_ok.mp h
  obtain ⟨manifest, hmanifest, h⟩ := except_bind_eq_ok.mp h
  obtain ⟨value, hvalue, hmanifest⟩ := except_bind_eq_ok.mp (mapError_eq_ok.mp hmanifest)
  obtain ⟨⟨⟩, hvalidate, -⟩ := except_bind_eq_ok.mp h
  have htypes := targetTypes_of_validate hvalidate
  exact ⟨value, manifest, documentIn_of_read (mapError_eq_ok.mp htext) hvalue, hmanifest, htypes⟩

/-- **A flat plugin manifest** is taken for one. -/
lemma isPluginManifestFile_of_isPlugin (hyaml : isYaml path) (h : isPlugin serde disk path) :
    isPluginManifestFile serde disk path := by
  obtain ⟨value, manifest, hvalue, hmanifest⟩ := document_of_isPlugin h
  simp [isPluginManifestFile, hasField, hyaml, hvalue, serde.plugin_id hmanifest,
    serde.plugin_adapter hmanifest]

/-- **A flat target manifest** is taken for one, unless it has an adapter. -/
lemma isTargetManifestFile_of_isTarget (hyaml : isYaml path) (h : isTarget serde disk path) :
    isTargetManifestFile serde disk path = !hasField serde disk path "adapter" := by
  obtain ⟨value, manifest, hvalue, hmanifest, htypes⟩ := document_of_isTarget h
  have hfield : (serde.get value "targetTypes").isSome := by
    rw [Option.isSome_iff_ne_none]
    exact fun hnone => htypes (serde.target_types hmanifest hnone)
  simp [isTargetManifestFile, hasField, hyaml, hvalue, hfield, serde.target_id hmanifest]

lemma hasField_of_isPluginManifestFile (h : isPluginManifestFile serde disk path) :
    hasField serde disk path "adapter" := by
  rw [isPluginManifestFile, Bool.and_eq_true, Bool.and_eq_true] at h
  exact h.2.1

lemma hasField_of_isTargetManifestFile (h : isTargetManifestFile serde disk path) :
    hasField serde disk path "adapter" = false := by
  rw [isTargetManifestFile, Bool.and_eq_true] at h
  unfold hasField
  cases hvalue : documentIn serde disk path with
  | none => rfl
  | some value =>
    have hget := h.2
    rw [hvalue, Option.any_some, Bool.and_eq_true] at hget
    rw [Option.any_some, Option.isNone_iff_eq_none.mp hget.2]
    rfl

end Fields

/-! ### Manifest files of a root -/

/-- The names that a manifest is recognized by in a folder. -/
def manifestNames : List String := (pluginManifestNames ++ targetManifestNames).dedup

/-- The manifest files of an entry: under any of the names in a folder, or a flat one. -/
def manifestFiles (disk : Disk) (entry : String) : List String :=
  if disk.isDir entry then (manifestNames.map (join entry)).filter disk.isFile
  else if isYaml entry then [entry] else []

/-- Each manifest file is a valid manifest of a plugin or of a target. Another flat file of this
format may be there, as long as neither loader takes it for a manifest. -/
structure Wellformed (serde : Serde) (root : Root disk) : Prop where
  folder : ∀ entry ∈ root.entries, disk.isDir entry → ∀ file ∈ manifestFiles disk entry,
    isPlugin serde disk file ∨ isTarget serde disk file
  flat : ∀ entry ∈ root.entries, ¬ disk.isDir entry → isYaml entry →
    isPluginManifestFile serde disk entry ∨ isTargetManifestFile serde disk entry →
      isPlugin serde disk entry ∨ isTarget serde disk entry

/-- Both loaders succeed, with all the manifests there are. -/
structure Undisturbed (serde : Serde) (root : Root disk) : Prop where
  plugins : ∃ manifests, loadFromDir serde disk root.path = .ok manifests ∧
    manifests.Perm ((root.entries.flatMap (manifestFiles disk)).filterMap fun file =>
      (loadFromFile serde disk file).toOption)
  targets : ∃ manifests, loadTargetsFromDir serde disk root.path = .ok manifests ∧
    manifests.Perm ((root.entries.flatMap (manifestFiles disk)).filterMap fun file =>
      (loadTargetFromFile serde disk file).toOption)

/-- In each folder the plugin manifest is the file that is found for one, and no other file is one;
so with targets. No flat target has an adapter. -/
structure Separate (serde : Serde) (root : Root disk) : Prop where
  plugins : ∀ entry ∈ root.entries, disk.isDir entry → ∀ file,
    file ∈ manifestFiles disk entry ∧ isPlugin serde disk file ↔
      manifestInPluginDir disk entry = some file
  targets : ∀ entry ∈ root.entries, disk.isDir entry → ∀ file,
    file ∈ manifestFiles disk entry ∧ isTarget serde disk file ↔
      targetManifestInDir disk entry = some file
  flat : ∀ entry ∈ root.entries, ¬ disk.isDir entry → isYaml entry → isTarget serde disk entry →
    hasField serde disk entry "adapter" = false

section Root

variable {root : Root disk} {entry file : String}

lemma join_injective {dir a b : String} (ha : a.toList.head? ≠ some '/')
    (hb : b.toList.head? ≠ some '/') (h : join dir a = join dir b) : a = b := by
  unfold join at h
  rw [if_neg ha, if_neg hb] at h
  split_ifs at h
  · exact String.append_right_inj _ |>.mp h
  · exact String.append_right_inj _ |>.mp h

lemma nodup_manifestFiles : (manifestFiles disk entry).Nodup := by
  have hplain : ∀ name ∈ manifestNames, name.toList.head? ≠ some '/' := by decide
  unfold manifestFiles
  split_ifs
  · refine List.Nodup.filter _ (List.Nodup.map_on ?_ (List.nodup_dedup _))
    exact fun a ha b hb h => join_injective (hplain a ha) (hplain b hb) h
  · exact List.nodup_singleton _
  · exact List.nodup_nil

lemma mem_manifestFiles_of_firstFile {names : List String} (hnames : names ⊆ manifestNames)
    (hdir : disk.isDir entry) (h : firstFile disk names entry = some file) :
    file ∈ manifestFiles disk entry := by
  obtain ⟨name, hname, rfl⟩ := List.mem_map.mp (List.mem_of_find?_eq_some h)
  rw [manifestFiles, if_pos hdir, List.mem_filter]
  exact ⟨List.mem_map_of_mem (hnames hname), List.find?_some h⟩

lemma eq_toList_iff {α : Type} {l : List α} {o : Option α} (hl : l.Nodup) :
    l = o.toList ↔ ∀ a, a ∈ l ↔ o = some a := by
  constructor
  · rintro rfl a
    rw [Option.mem_toList]
  · intro h
    cases o with
    | none =>
      refine List.eq_nil_iff_forall_not_mem.mpr fun a ha => ?_
      cases (h a).mp ha
    | some a =>
      refine List.perm_singleton.mp
        ((List.perm_ext_iff_of_nodup hl (List.nodup_singleton a)).mpr fun b => ?_)
      rw [h b, List.mem_singleton, Option.some.injEq, eq_comm]

/-- One file of an entry has a property, or none, and it is known which. -/
lemma filter_manifestFiles_iff {p : String → Bool} {o : Option String} :
    (manifestFiles disk entry).filter p = o.toList ↔
      ∀ file, file ∈ manifestFiles disk entry ∧ p file ↔ o = some file := by
  rw [eq_toList_iff (nodup_manifestFiles.filter _)]
  simp only [List.mem_filter]

variable {M : Type} {inDir : String → Option String} {isManifestFile : String → Bool}
  {load : String → Except PluginError M} {id : M → String}

/-- **A loader finds all its manifests** exactly where, in a folder, the file it looks into is the
one that is valid for it, and elsewhere what it takes for a manifest is. -/
theorem complete_loadDir (hnames : ∀ entry, disk.isDir entry → ∀ file, inDir entry = some file →
      file ∈ manifestFiles disk entry) (hyaml : ∀ path, isManifestFile path → isYaml path) :
    (∃ manifests, loadDir disk inDir isManifestFile load id root.path = .ok manifests ∧
      manifests.Perm ((root.entries.flatMap (manifestFiles disk)).filterMap fun file =>
        (load file).toOption)) ↔
    (∀ entry ∈ root.entries, disk.isDir entry → ∀ file,
      file ∈ manifestFiles disk entry ∧ (load file).isOk ↔ inDir entry = some file) ∧
    ∀ entry ∈ root.entries, ¬ disk.isDir entry → isYaml entry →
      ((load entry).isOk ↔ isManifestFile entry) := by
  -- what is looked into is among the files that may hold a manifest
  have hchosen : ∀ entry ∈ root.entries, ∀ file ∈ chosen disk inDir isManifestFile entry,
      file ∈ manifestFiles disk entry := by
    intro entry _ file hfile
    unfold chosen at hfile
    split_ifs at hfile with hdir hmanifest
    · exact hnames entry hdir file hfile
    · cases hfile
      rw [manifestFiles, if_neg hdir, if_pos (hyaml _ hmanifest)]
      exact List.mem_singleton_self _
    · cases hfile
  -- sorting by id changes the order only
  have hread : (∃ manifests, loadDir disk inDir isManifestFile load id root.path = .ok manifests ∧
      manifests.Perm ((root.entries.flatMap (manifestFiles disk)).filterMap fun file =>
        (load file).toOption)) ↔
      ∃ manifests, (root.entries.filterMap (chosen disk inDir isManifestFile)).mapM load =
        .ok manifests ∧ manifests.Perm ((root.entries.flatMap (manifestFiles disk)).filterMap
          fun file => (load file).toOption) := by
    rw [loadDir_eq]
    constructor
    · rintro ⟨sorted, hsorted, hperm⟩
      obtain ⟨manifests, hread, rfl⟩ := map_eq_ok.mp hsorted
      exact ⟨manifests, hread, (List.mergeSort_perm manifests _).symm.trans hperm⟩
    · rintro ⟨manifests, hread, hperm⟩
      refine ⟨_, map_eq_ok.mpr ⟨manifests, hread, rfl⟩, ?_⟩
      exact (List.mergeSort_perm manifests _).trans hperm
  rw [hread, complete_iff hchosen]
  simp only [filter_manifestFiles_iff]
  constructor
  · -- each entry tells of its own files
    intro h
    refine ⟨fun entry he hdir file => ?_, fun entry he hdir hflat => ?_⟩
    · have hfile := h entry he file
      rwa [chosen, if_pos hdir] at hfile
    · have hfile := h entry he entry
      rw [chosen, if_neg hdir, manifestFiles, if_neg hdir, if_pos hflat] at hfile
      simpa using hfile
  · -- and is about no others
    rintro ⟨hfolder, hflat⟩ entry he file
    rw [chosen]
    by_cases hdir : disk.isDir entry
    · rw [if_pos hdir]
      exact hfolder entry he hdir file
    · rw [if_neg hdir, manifestFiles, if_neg hdir]
      by_cases hformat : isYaml entry
      · rw [if_pos hformat, List.mem_singleton]
        have hmanifest := hflat entry he hdir hformat
        by_cases hm : isManifestFile entry
        · rw [if_pos hm, Option.some.injEq]
          constructor
          · rintro ⟨rfl, -⟩
            rfl
          · rintro rfl
            exact ⟨rfl, hmanifest.mpr hm⟩
        · rw [if_neg hm]
          refine iff_of_false ?_ nofun
          rintro ⟨rfl, hok⟩
          exact hm (hmanifest.mp hok)
      · rw [if_neg hformat, if_neg (mt (hyaml entry) hformat)]
        exact iff_of_false (fun h => List.not_mem_nil h.1) nofun

/-- A flat file is taken for what it is, unless it is a target with an adapter. -/
lemma flat_iff (hformat : isYaml entry)
    (hvalid : isPluginManifestFile serde disk entry ∨ isTargetManifestFile serde disk entry →
      isPlugin serde disk entry ∨ isTarget serde disk entry) :
    (isPlugin serde disk entry ↔ isPluginManifestFile serde disk entry) ∧
        (isTarget serde disk entry ↔ isTargetManifestFile serde disk entry) ↔
      (isTarget serde disk entry → hasField serde disk entry "adapter" = false) := by
  constructor
  · rintro ⟨-, htarget⟩ h
    exact hasField_of_isTargetManifestFile (htarget.mp h)
  · intro h
    have htarget : isTarget serde disk entry → isTargetManifestFile serde disk entry := by
      intro htarget
      rw [isTargetManifestFile_of_isTarget hformat htarget, h htarget]
      rfl
    refine ⟨⟨isPluginManifestFile_of_isPlugin hformat, fun hm => ?_⟩, htarget, fun hm => ?_⟩
    · refine (hvalid (.inl hm)).resolve_right fun ht => ?_
      have hadapter := hasField_of_isPluginManifestFile hm
      rw [h ht] at hadapter
      cases hadapter
    · refine (hvalid (.inr hm)).resolve_left fun hp => ?_
      have hadapter :=
        hasField_of_isPluginManifestFile (isPluginManifestFile_of_isPlugin hformat hp)
      rw [hasField_of_isTargetManifestFile hm] at hadapter
      cases hadapter

/-- **Plugins and targets do not disturb each other** exactly where they are kept separate: a name
that both loaders look for in a folder, and a second manifest there, stand in the way. -/
theorem undisturbed_iff (h : Wellformed serde root) :
    Undisturbed serde root ↔ Separate serde root := by
  have hplugins : (∃ manifests, loadFromDir serde disk root.path = .ok manifests ∧ _) ↔ _ :=
    complete_loadDir (fun _ hdir _ => mem_manifestFiles_of_firstFile (by decide) hdir)
      fun _ hm => (Bool.and_eq_true_iff.mp hm).1
  have htargets : (∃ manifests, loadTargetsFromDir serde disk root.path = .ok manifests ∧ _) ↔ _ :=
    complete_loadDir (fun _ hdir _ => mem_manifestFiles_of_firstFile (by decide) hdir)
      fun _ hm => (Bool.and_eq_true_iff.mp hm).1
  constructor
  · intro hboth
    obtain ⟨hpFolder, hpFlat⟩ := hplugins.mp hboth.plugins
    obtain ⟨htFolder, htFlat⟩ := htargets.mp hboth.targets
    refine ⟨hpFolder, htFolder, fun entry he hdir hformat => ?_⟩
    exact (flat_iff hformat (h.flat entry he hdir hformat)).mp
      ⟨hpFlat entry he hdir hformat, htFlat entry he hdir hformat⟩
  · intro hseparate
    have hflat : ∀ entry ∈ root.entries, ¬ disk.isDir entry → isYaml entry → _ :=
      fun entry he hdir hformat => (flat_iff hformat (h.flat entry he hdir hformat)).mpr
        (hseparate.flat entry he hdir hformat)
    constructor
    · refine hplugins.mpr ⟨hseparate.plugins, fun entry he hdir hformat => ?_⟩
      exact (hflat entry he hdir hformat).1
    · refine htargets.mpr ⟨hseparate.targets, fun entry he hdir hformat => ?_⟩
      exact (hflat entry he hdir hformat).2

end Root

section Example

def pythonText (command : String) : String :=
  "id: python\nname: Python\nversion: 0.1.0\nlaunchTypes: [debugpy]\nadapter:\n" ++
    "  transport: stdio\n  command: " ++ command ++ "\n"

def gdbserverText : String :=
  "id: gdbserver\nname: GDB Server\nversion: 0.1.0\ntargetTypes: [gdb-remote]\n"

def pythonDocument (command : String) : Value :=
  .obj [("id", .string "python"), ("name", .string "Python"), ("version", .string "0.1.0"),
    ("launchTypes", .array [.string "debugpy"]),
    ("adapter", .obj [("transport", .string "stdio"), ("command", .string command)])]

def gdbserverDocument : Value :=
  .obj [("id", .string "gdbserver"), ("name", .string "GDB Server"), ("version", .string "0.1.0"),
    ("targetTypes", .array [.string "gdb-remote"])]

def pythonManifest (command : String) : PluginManifest where
  id := "python"
  launchTypes := ["debugpy"]
  fileExtensions := []
  initializeSpec := none
  launch := none
  init := none
  name := "Python"
  version := "0.1.0"
  languages := []
  adapter := ⟨.stdio, command, []⟩
  attachment := none
  sourcePath := none

def gdbserverManifest : TargetManifest where
  id := "gdbserver"
  name := "GDB Server"
  version := "0.1.0"
  targetTypes := ["gdb-remote"]
  description := none
  spawn := none
  connect := none
  attach := none
  init := none
  sourcePath := none

/-- What comes of these texts. -/
def exampleSerde : Serde where
  Document := Value
  document := fun text =>
    if text = pythonText "python3" then .ok (pythonDocument "python3")
    else if text = pythonText "pypy3" then .ok (pythonDocument "pypy3")
    else if text = gdbserverText then .ok gdbserverDocument
    else .error "did not find expected node content"
  get := Value.get
  plugin := fun value =>
    if (value.get "id").isSome ∧ (value.get "adapter").isSome then
      match ((value.get "adapter").bind (·.get "command")).bind Value.asStr with
      | some command => .ok (pythonManifest command)
      | none => .error "adapter: missing field `command`"
    else .error "missing field `adapter`"
  target := fun value =>
    if (value.get "id").isSome then
      .ok { gdbserverManifest with
        targetTypes := if (value.get "targetTypes").isSome then ["gdb-remote"] else [] }
    else .error "missing field `id`"
  plugin_id := by
    intro value manifest h
    by_cases hfields : (value.get "id").isSome ∧ (value.get "adapter").isSome
    · exact hfields.1
    · rw [if_neg hfields] at h
      cases h
  plugin_adapter := by
    intro value manifest h
    by_cases hfields : (value.get "id").isSome ∧ (value.get "adapter").isSome
    · exact hfields.2
    · rw [if_neg hfields] at h
      cases h
  target_id := by
    intro value manifest h
    by_cases hid : (value.get "id").isSome
    · exact hid
    · rw [if_neg hid] at h
      cases h
  target_types := by
    intro value manifest h hnone
    by_cases hid : (value.get "id").isSome
    · rw [if_pos hid] at h
      rw [← Except.ok.inj h]
      simp [hnone]
    · rw [if_neg hid] at h
      cases h

/-- A root with some folders, and the files in them. -/
def exampleDisk (folders : List String) (files : List (String × String)) : Disk where
  isDir := fun path => path = "plugins" || path ∈ folders
  isFile := fun path => (files.lookup path).isSome
  readDir := fun path =>
    if path = "plugins" then .ok (folders.map .ok) else .error "No such file or directory"
  readToString := fun path =>
    match files.lookup path with
    | some text => .ok text
    | none => .error "No such file or directory"

def exampleRoot (folders : List String) (files : List (String × String)) :
    Root (exampleDisk folders files) where
  path := "plugins"
  entries := folders
  isDir := rfl
  listed := rfl

/-- A plugin and a target, each under its own name. -/
def separateDisk : Disk := exampleDisk ["plugins/python", "plugins/gdbserver"]
  [("plugins/python/plugin.yaml", pythonText "python3"),
    ("plugins/gdbserver/target.yaml", gdbserverText)]

/-- A target under the name that both loaders look for. -/
def sharedDisk : Disk := exampleDisk ["plugins/gdbserver"]
  [("plugins/gdbserver/manifest.yaml", gdbserverText)]

def separateRoot : Root separateDisk := exampleRoot _ _

def sharedRoot : Root sharedDisk := exampleRoot _ _

theorem separateRoot_undisturbed : Undisturbed exampleSerde separateRoot := by
  refine (undisturbed_iff ⟨by decide, by decide⟩).mpr ⟨?_, ?_, by decide⟩
  · intro entry he hdir
    refine filter_manifestFiles_iff.mp ?_
    revert entry
    decide
  · intro entry he hdir
    refine filter_manifestFiles_iff.mp ?_
    revert entry
    decide

/-- The loader of plugins fails on a target that it takes for a plugin. -/
theorem sharedRoot_disturbed :
    Wellformed exampleSerde sharedRoot ∧ ¬ Undisturbed exampleSerde sharedRoot := by
  refine ⟨⟨by decide, by decide⟩, fun h => ?_⟩
  obtain ⟨manifests, hload, -⟩ := h.plugins
  have hfails : (loadFromDir exampleSerde sharedDisk sharedRoot.path).isOk = false := by decide
  rw [hload] at hfails
  cases hfails

end Example

end DappyCore.Loader
