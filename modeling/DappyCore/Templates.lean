import DappyCore.Manifest

/-!
Where the values of a manifest come to stand once its placeholders are resolved: a path of keys
leads to the resolved form of what it led to before, and of the specs that are merged each key has
the value of the last one whose value for it is resolved.
-/

namespace DappyCore.Plugin

open Json

/-- What a path of keys leads to. -/
def follow : List String → Value → Option Value
  | [], v => some v
  | key :: path, v => (v.get key).bind (follow path)

/-- A value as `serde_json` holds it: no object has a key twice. -/
inductive WellFormed : Value → Prop
  | null : WellFormed .null
  | bool (b : Bool) : WellFormed (.bool b)
  | number (n : Number) : WellFormed (.number n)
  | string (s : String) : WellFormed (.string s)
  | array {items : List Value} (h : ∀ v ∈ items, WellFormed v) : WellFormed (.array items)
  | object {fields : Fields} (nodup : (fields.map (·.1)).Nodup)
    (h : ∀ f ∈ fields, WellFormed f.2) : WellFormed (.object fields)

variable {env : Environment} {ctx : TemplateContext}

/-! ### Fields -/

lemma mem_of_lookupField {key : String} {v : Value} {fields : Fields}
    (h : lookupField key fields = some v) : (key, v) ∈ fields := by
  induction fields with
  | nil => simp [lookupField] at h
  | cons f rest ih =>
    obtain ⟨k, w⟩ := f
    rw [lookupField] at h
    split_ifs at h with hk
    · rw [hk, Option.some.inj h]
      exact List.mem_cons_self
    · exact List.mem_cons_of_mem _ (ih h)

lemma lookupField_of_not_mem {key : String} {fields : Fields} (h : key ∉ fields.map (·.1)) :
    lookupField key fields = none := by
  rw [Option.eq_none_iff_forall_ne_some]
  intro v hv
  exact h (List.mem_map.mpr ⟨(key, v), mem_of_lookupField hv, rfl⟩)

/-- The keys of a map that is filled by insertions go up. -/
lemma pairwise_insertField {fields : Fields} (h : fields.Pairwise (·.1 < ·.1)) (key : String)
    (v : Value) : (insertField key v fields).Pairwise (·.1 < ·.1) ∧
      ∀ f ∈ insertField key v fields, f.1 = key ∨ ∃ g ∈ fields, g.1 = f.1 := by
  induction fields with
  | nil => simp [insertField]
  | cons f rest ih =>
    obtain ⟨k, w⟩ := f
    obtain ⟨hk, hrest⟩ := List.pairwise_cons.mp h
    obtain ⟨ihpair, ihkeys⟩ := ih hrest
    rw [insertField]
    split_ifs with heq hlt
    · -- the key is there: its value is replaced
      subst heq
      refine ⟨List.pairwise_cons.mpr ⟨hk, hrest⟩, fun f hf => ?_⟩
      rcases List.mem_cons.mp hf with rfl | hf
      · exact .inl rfl
      · exact .inr ⟨f, List.mem_cons_of_mem _ hf, rfl⟩
    · -- it is below all keys that are there
      refine ⟨List.pairwise_cons.mpr ⟨fun g hg => ?_, h⟩, fun f hf => ?_⟩
      · rcases List.mem_cons.mp hg with rfl | hg
        · exact hlt
        · exact String.lt_trans hlt (hk g hg)
      · rcases List.mem_cons.mp hf with rfl | hf
        · exact .inl rfl
        · exact .inr ⟨f, hf, rfl⟩
    · -- it comes further back
      refine ⟨List.pairwise_cons.mpr ⟨fun g hg => ?_, ihpair⟩, fun f hf => ?_⟩
      · rcases ihkeys g hg with he | ⟨g', hg', he⟩
        · rw [he, ← String.not_le]
          exact fun hle => heq (String.le_antisymm (String.not_lt.mp hlt) hle)
        · rw [← he]
          exact hk g' hg'
      · rcases List.mem_cons.mp hf with rfl | hf
        · exact .inr ⟨_, List.mem_cons_self, rfl⟩
        · rcases ihkeys f hf with he | ⟨g, hg, he⟩
          · exact .inl he
          · exact .inr ⟨g, List.mem_cons_of_mem _ hg, he⟩

lemma pairwise_resolveFields (fields : Fields) {out : Fields} (h : out.Pairwise (·.1 < ·.1)) :
    (resolveFields env ctx fields out).Pairwise (·.1 < ·.1) := by
  induction fields generalizing out with
  | nil => exact h
  | cons f rest ih =>
    obtain ⟨k, v⟩ := f
    rw [resolveFields]
    split
    · exact ih (pairwise_insertField h _ _).1
    · exact ih h

lemma nodup_resolveFields (fields : Fields) :
    ((resolveFields env ctx fields []).map (·.1)).Nodup := by
  have hpair : (resolveFields env ctx fields []).Pairwise (·.1 < ·.1) :=
    pairwise_resolveFields fields .nil
  rw [List.Nodup, List.pairwise_map]
  refine hpair.imp fun {f g} (hlt : f.1 < g.1) (he : f.1 = g.1) => ?_
  rw [he] at hlt
  exact String.lt_irrefl _ hlt

/-- A field is resolved where it stands, or is left out. -/
lemma lookup_resolveFields {fields : Fields} (h : (fields.map (·.1)).Nodup) (out : Fields)
    (key : String) :
    lookupField key (resolveFields env ctx fields out) =
      ((lookupField key fields).bind (resolveValue env ctx)).or (lookupField key out) := by
  induction fields generalizing out with
  | nil => simp [resolveFields, lookupField]
  | cons f rest ih =>
    obtain ⟨k, v⟩ := f
    obtain ⟨hk, hrest⟩ := List.nodup_cons.mp h
    rw [resolveFields, lookupField]
    by_cases hkey : k = key
    · subst hkey
      have hnone : lookupField k rest = none := lookupField_of_not_mem hk
      rw [if_pos rfl, Option.bind_some]
      split
      · next resolved hv => rw [ih hrest, hnone, lookup_insertField, if_pos rfl, hv]; rfl
      · next hv => rw [ih hrest, hnone, hv]; rfl
    · rw [if_neg hkey]
      split
      · rw [ih hrest, lookup_insertField, if_neg hkey]
      · rw [ih hrest]

/-! ### Paths -/

/-- **Placeholders are resolved in place**: a path leads to the resolved form of what it led to,
and to nothing where that is left out. -/
theorem follow_resolveValue {v : Value} (h : WellFormed v) (path : List String) :
    (resolveValue env ctx v).bind (follow path) =
      (follow path v).bind (resolveValue env ctx) := by
  induction path generalizing v with
  | nil => simp [follow]
  | cons key path ih =>
    cases h with
    | object nodup hall =>
      rename_i fields
      rw [resolveValue, Option.bind_some, follow, follow, Value.get, Value.get,
        lookup_resolveFields nodup]
      cases hf : lookupField key fields with
      | none => rfl
      | some w =>
        have hw : WellFormed w := hall (key, w) (mem_of_lookupField hf)
        simpa [lookupField] using ih hw
    | string s =>
      rw [resolveValue]
      cases resolveString env ctx s <;> rfl
    | null | bool b | number n | array hall => simp [resolveValue, follow, Value.get]

/-- The value that a key has in a spec, where it is resolved. -/
def given (env : Environment) (ctx : TemplateContext) (spec : Option Value) (key : String) :
    Option Value :=
  (spec.bind (·.get key)).filter fun v => (resolveValue env ctx v).isSome

/-- What a merge brings to each key, and to the paths that begin with it. -/
lemma follow_mergeObject (env : Environment) (ctx : TemplateContext) (fields : Fields)
    {patch : Value} (h : WellFormed patch) :
    ∃ merged, mergeObject env ctx (.object fields) patch = .object merged ∧
      ∀ key path, follow (key :: path) (.object merged) =
        match given env ctx (some patch) key with
        | some v => (follow path v).bind (resolveValue env ctx)
        | none => follow (key :: path) (.object fields) := by
  cases h with
  | object nodup hall =>
    rename_i more
    refine ⟨_, rfl, fun key path => ?_⟩
    simp only [follow, Value.get, given, Option.bind_some]
    rw [lookup_foldl_insertField _ _ (nodup_resolveFields more), lookup_resolveFields nodup]
    cases hf : lookupField key more with
    | none => simp [lookupField]
    | some v =>
      have hlaw : (resolveValue env ctx v).bind (follow path) =
          (follow path v).bind (resolveValue env ctx) :=
        follow_resolveValue (hall (key, v) (mem_of_lookupField hf)) path
      cases hr : resolveValue env ctx v with
      | none => simp [hr, lookupField, Option.filter_some]
      | some resolved =>
        rw [hr, Option.bind_some] at hlaw
        simp [hr, hlaw, Option.filter_some]
  | string s =>
    refine ⟨fields, ?_, fun key path => rfl⟩
    simp only [mergeObject, resolveValue]
    cases resolveString env ctx s <;> rfl
  | null | bool b | number n | array hall => exact ⟨fields, rfl, fun key path => rfl⟩

/-- The same for a spec that may be missing. -/
lemma follow_merge (env : Environment) (ctx : TemplateContext) (fields : Fields)
    {spec : Option Value} (h : ∀ v ∈ spec, WellFormed v) :
    ∃ merged, (spec.map (mergeObject env ctx (.object fields))).getD (.object fields) =
        .object merged ∧
      ∀ key path, follow (key :: path) (.object merged) =
        match given env ctx spec key with
        | some v => (follow path v).bind (resolveValue env ctx)
        | none => follow (key :: path) (.object fields) := by
  cases spec with
  | none => exact ⟨fields, rfl, fun key path => rfl⟩
  | some patch => exact follow_mergeObject env ctx fields (h patch rfl)

/-! ### The arguments of a session -/

namespace PluginManifest

/-- The specs of a manifest that its requests are built from. -/
structure WellFormed (manifest : PluginManifest) : Prop where
  defaults : ∀ launch ∈ manifest.launch, ∀ v ∈ launch.defaults, Plugin.WellFormed v
  fields : ∀ launch ∈ manifest.launch, ∀ v ∈ launch.fields, Plugin.WellFormed v
  initializeDefaults : ∀ v ∈ manifest.initializeSpec.bind (·.defaults), Plugin.WellFormed v

/-- The value that the arguments of the launch take for a key: that of the fields, or else of the
defaults, if it is resolved. -/
def launchGiven (env : Environment) (manifest : PluginManifest) (program key : String) :
    Option Value :=
  let ctx := manifest.templateContext env program
  manifest.launch.bind fun launch =>
    (given env ctx launch.fields key).or (given env ctx launch.defaults key)

/-- The arguments of a launch that gives none. -/
def onlyProgram (env : Environment) (manifest : PluginManifest) (program : String) : Value :=
  let ctx := manifest.templateContext env program
  .obj [("program", .string (ctx.programAbs.getD ctx.program))]

/-- The two merges of a launch, before the program is put in. -/
lemma follow_launch {manifest : PluginManifest} (h : manifest.WellFormed) {launch : LaunchSpec}
    (hl : manifest.launch = some launch) (env : Environment) (program : String) :
    ∃ merged, buildLaunchArguments env manifest program =
        (match merged with
          | [] => onlyProgram env manifest program
          | f :: rest => .object (f :: rest)) ∧
      ∀ key path, follow (key :: path) (.object merged) =
        (launchGiven env manifest program key).bind fun v =>
          (follow path v).bind (resolveValue env (manifest.templateContext env program)) := by
  obtain ⟨m₁, h₁, hf₁⟩ := follow_merge env
    (manifest.templateContext env program) [] (h.defaults launch hl)
  obtain ⟨m₂, h₂, hf₂⟩ := follow_merge env
    (manifest.templateContext env program) m₁ (h.fields launch hl)
  refine ⟨m₂, ?_, fun key path => ?_⟩
  · have hobj : (.obj [] : Value) = .object [] := rfl
    simp only [buildLaunchArguments, hl, hobj, h₁, h₂]
    cases m₂ <;> rfl
  · rw [hf₂, hf₁, launchGiven, hl, Option.bind_some]
    cases given env (manifest.templateContext env program) launch.fields key with
    | some v => rfl
    | none => cases given env (manifest.templateContext env program) launch.defaults key <;> rfl

lemma resolved_of_launchGiven {manifest : PluginManifest} {program key : String} {v : Value}
    (h : launchGiven env manifest program key = some v) :
    (resolveValue env (manifest.templateContext env program) v).isSome := by
  obtain ⟨launch, -, hv⟩ := Option.bind_eq_some_iff.mp h
  rcases Option.or_eq_some_iff.mp hv with hv | ⟨-, hv⟩
  · exact (Option.filter_eq_some_iff.mp hv).2
  · exact (Option.filter_eq_some_iff.mp hv).2

/-- **Launch and initialize arguments.** To resolve the placeholders and then follow a path of keys
is to follow the path first. At each key a launch has the value of the manifest's
fields, or else of its defaults, that is resolved, with the placeholders below it resolved in
place; only a launch with none of them gets the program. At each key an initialize has the value
of the manifest's defaults that is resolved, or else what every client sends. -/
theorem arguments_at {manifest : PluginManifest} (h : manifest.WellFormed) (env : Environment)
    (program clientId : String) (fallback : Option String) :
    (∀ ctx v path, Plugin.WellFormed v → (resolveValue env ctx v).bind (follow path) =
      (follow path v).bind (resolveValue env ctx)) ∧
    ((∃ key, (launchGiven env manifest program key).isSome) → ∀ key path,
      follow (key :: path) (buildLaunchArguments env manifest program) =
        (launchGiven env manifest program key).bind fun v =>
          (follow path v).bind (resolveValue env (manifest.templateContext env program))) ∧
    ((∀ key, launchGiven env manifest program key = none) →
      buildLaunchArguments env manifest program = onlyProgram env manifest program) ∧
    ∀ key path, follow (key :: path) (buildInitializeArguments env manifest clientId fallback) =
      match given env (manifest.templateContext env "")
        (manifest.initializeSpec.bind (·.defaults)) key with
      | some v => (follow path v).bind (resolveValue env (manifest.templateContext env ""))
      | none => follow (key :: path) (initializeArguments clientId
          (((manifest.initializeSpec.bind (·.adapterId)).or fallback).getD manifest.id)) := by
  refine ⟨fun ctx v path hv => follow_resolveValue hv path, fun hsome key path => ?_,
    fun hnone => ?_, fun key path => ?_⟩
  · obtain ⟨k, hk⟩ := hsome
    obtain ⟨v, hv⟩ := Option.isSome_iff_exists.mp hk
    obtain ⟨launch, hl, -⟩ := Option.bind_eq_some_iff.mp hv
    obtain ⟨merged, hbuild, hfollow⟩ := follow_launch h hl env program
    cases merged with
    | nil =>
      -- an empty object has no value at the key that is given
      have hat : none = resolveValue env (manifest.templateContext env program) v := by
        have h := hfollow k []
        rw [hv] at h
        exact h
      have hresolved := resolved_of_launchGiven hv
      rw [← hat] at hresolved
      cases hresolved
    | cons f rest => rw [hbuild, hfollow]
  · cases hl : manifest.launch with
    | none => simp [buildLaunchArguments, hl, onlyProgram]
    | some launch =>
      obtain ⟨merged, hbuild, hfollow⟩ := follow_launch h hl env program
      cases merged with
      | nil => exact hbuild
      | cons f rest =>
        have hat := hfollow f.1 []
        rw [hnone] at hat
        simp [follow, Value.get, lookupField] at hat
  · cases hd : manifest.initializeSpec.bind (·.defaults) with
    | none => simp [buildInitializeArguments, hd, given]
    | some defaults =>
      obtain ⟨merged, hmerge, hfollow⟩ := follow_mergeObject env
        (manifest.templateContext env "") _ (h.initializeDefaults defaults hd)
      have hbuild : buildInitializeArguments env manifest clientId fallback = .object merged := by
        rw [← hmerge]
        simp only [buildInitializeArguments, hd]
        rfl
      rw [hbuild, hfollow]
      rfl

/-- A launch whose fields name a variable that may be missing. -/
def pythonManifest : PluginManifest where
  id := "python"
  launchTypes := ["python"]
  fileExtensions := [".py"]
  initializeSpec := none
  launch := some
    { request := "launch"
      defaults := some (.obj [("cwd", .string "/tmp"), ("env", .null)])
      fields := some (.obj [("env", .obj [("MAIN", .string "$\x7bprogram.abs\x7d"),
        ("PATH", .string "$\x7benv:PATH\x7d")])]) }
  init := none

lemma wellFormed_pythonManifest : pythonManifest.WellFormed where
  defaults := by
    intro launch hlaunch v hv
    obtain rfl := Option.some.inj hlaunch
    obtain rfl := Option.some.inj hv
    refine .object (by decide) fun f hf => ?_
    rcases List.mem_cons.mp hf with rfl | hf
    · exact .string _
    · exact List.mem_singleton.mp hf ▸ .null
  fields := by
    intro launch hlaunch v hv
    obtain rfl := Option.some.inj hlaunch
    obtain rfl := Option.some.inj hv
    refine .object (by decide) fun f hf => ?_
    obtain rfl := List.mem_singleton.mp hf
    refine .object (by decide) fun f hf => ?_
    rcases List.mem_cons.mp hf with rfl | hf
    · exact .string _
    · exact List.mem_singleton.mp hf ▸ .string _
  initializeDefaults := by
    intro v hv
    cases hv

/-- The variable that is missing leaves its own field out, and nothing else. -/
theorem arguments_at_python :
    let env : Environment :=
      { canonicalize := fun path => some ("/" ++ path), var := fun _ => none }
    follow ["env", "MAIN"] (buildLaunchArguments env pythonManifest "main.py") =
        some (.string "/main.py") ∧
      follow ["env", "PATH"] (buildLaunchArguments env pythonManifest "main.py") = none ∧
      follow ["cwd"] (buildLaunchArguments env pythonManifest "main.py") =
        some (.string "/tmp") := by
  intro env
  have hall := (arguments_at wellFormed_pythonManifest env "main.py" "dappy" none).2.1
    ⟨"cwd", rfl⟩
  exact ⟨hall _ _, hall _ _, hall _ _⟩

end PluginManifest

end DappyCore.Plugin
