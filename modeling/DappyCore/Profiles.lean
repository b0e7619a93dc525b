import DappyCore.ProxyTree

/-!
Profiles of child sessions as JSON: how a profile is written, and what is read as one. A value is
the name of a preset, or an object of rules whose parts are read by the names of their fields, or
by their order where they are arrays.
-/

namespace DappyCore.ChildSession

open Json

/-! ### Reading parts -/

/-- The fields of a struct: those of an object by their names, those of an array by their order,
which may break off. -/
def structFields (names : List String) : Value → Option (String → Option Value)
  | .object fields => some fun name => lookupField name fields
  | .array items =>
    if names.length < items.length then none else some fun name => items[names.idxOf name]?
  | _ => none

/-- A field with `#[serde(default)]`. -/
def orDefault {α : Type} (field : Option Value) (default : α) (read : Value → Option α) :
    Option α :=
  match field with
  | some value => read value
  | none => some default

def readOption {α : Type} (read : Value → Option α) : Value → Option (Option α)
  | .null => some none
  | value => (read value).map some

def readList {α : Type} (read : Value → Option α) : Value → Option (List α)
  | .array items => items.mapM read
  | _ => none

section Parts

variable {α : Type} {read : Value → Option α} {write : α → Value}

lemma readList_map (l : List α) (h : ∀ x ∈ l, read (write x) = some x) :
    readList read (.array (l.map write)) = some l := by
  rw [readList, List.mapM_map]
  induction l with
  | nil => rfl
  | cons x l ih =>
    rw [List.mapM_cons, Function.comp_apply, h x List.mem_cons_self,
      ih fun y hy => h y (List.mem_cons_of_mem _ hy)]
    rfl

/-- What is read of a list is read of its parts. -/
lemma forall_of_readList {P : α → Prop} (hread : ∀ value x, read value = some x → P x)
    {value : Value} {l : List α} (h : readList read value = some l) : ∀ x ∈ l, P x := by
  cases value with
  | array items =>
    rw [readList] at h
    induction items generalizing l with
    | nil =>
      obtain rfl : [] = l := by simpa using h
      simp
    | cons item items ih =>
      rw [List.mapM_cons] at h
      obtain ⟨x, hx, h⟩ := Option.bind_eq_some_iff.mp h
      obtain ⟨rest, hrest, h⟩ := Option.bind_eq_some_iff.mp h
      obtain rfl : x :: rest = l := Option.some.inj h
      exact List.forall_mem_cons.mpr ⟨hread item x hx, ih hrest⟩
  | _ => cases h

end Parts

/-! ### The parts of a profile -/

def ParentBackendKind.toValue : ParentBackendKind → Value
  | .stdio => .string "stdio"
  | .tcp => .string "tcp"

def ParentBackendKind.ofName : String → Option ParentBackendKind
  | "stdio" => some .stdio
  | "tcp" => some .tcp
  | _ => none

/-- A name, or an object that has it with no content. -/
def ParentBackendKind.ofValue : Value → Option ParentBackendKind
  | .string name => ofName name
  | .object [(name, .null)] => ofName name
  | _ => none

def PortTemplate.toValue : PortTemplate → Value
  | .number port => .int port
  | .template expr => .string expr

/-- The first that fits: a `u16`, or a string. -/
def PortTemplate.ofValue : Value → Option PortTemplate
  | .number (.int n) => if 0 ≤ n ∧ n ≤ 65535 then some (.number n.toNat) else none
  | .string expr => some (.template expr)
  | _ => none

def RuleCondition.toValue (condition : RuleCondition) : Value :=
  .obj ((condition.request.map fun request => ("request", .string request)).toList ++
    (if condition.exists = [] then [] else
      [("exists", .array (condition.exists.map .string))]) ++
    (if condition.parentBackend = [] then [] else
      [("parentBackend", .array (condition.parentBackend.map ParentBackendKind.toValue))]))

def RuleCondition.ofValue (value : Value) : Option RuleCondition := do
  let field ← structFields ["request", "exists", "parentBackend"] value
  let request ← orDefault (field "request") none (readOption Value.asStr)
  let «exists» ← orDefault (field "exists") [] (readList Value.asStr)
  let parentBackend ← orDefault (field "parentBackend") [] (readList ParentBackendKind.ofValue)
  return { request, «exists», parentBackend }

def ChildBackendTemplate.toValue : ChildBackendTemplate → Value
  | .stdio cmd args => .obj
    [("type", .string "stdio"), ("cmd", .string cmd), ("args", .array (args.map .string))]
  | .tcp host port => .obj
    [("type", .string "tcp"), ("host", .string host), ("port", port.toValue)]
  | .parentBackend => .obj [("type", .string "parentBackend")]
  | .inheritParentStdio => .obj [("type", .string "inheritParentStdio")]

/-- What is with the tag of a variant. -/
def ChildBackendTemplate.ofContent (content : Value) : String → Option ChildBackendTemplate
  | "stdio" => do
    let field ← structFields ["cmd", "args"] content
    let cmd ← (field "cmd").bind Value.asStr
    let args ← orDefault (field "args") [] (readList Value.asStr)
    return .stdio cmd args
  | "tcp" => do
    let field ← structFields ["host", "port"] content
    let host ← (field "host").bind Value.asStr
    let port ← (field "port").bind PortTemplate.ofValue
    return .tcp host port
  | "parentBackend" => (structFields [] content).map fun _ => .parentBackend
  | "inheritParentStdio" => (structFields [] content).map fun _ => .inheritParentStdio
  | _ => none

/-- The tag is a field of an object, or stands first in an array. -/
def ChildBackendTemplate.ofValue : Value → Option ChildBackendTemplate
  | .object fields =>
    ((lookupField "type" fields).bind Value.asStr).bind
      (ofContent (.object (removeField "type" fields)))
  | .array (.string type :: items) => ofContent (.array items) type
  | _ => none

def DebugRequestTemplate.toValue (template : DebugRequestTemplate) : Value :=
  .obj [("request", .string template.request), ("arguments", template.arguments)]

def DebugRequestTemplate.ofValue (value : Value) : Option DebugRequestTemplate := do
  let field ← structFields ["request", "arguments"] value
  let request ← (field "request").bind Value.asStr
  let arguments ← field "arguments"
  return { request, arguments }

def ChildSessionRule.toValue (rule : ChildSessionRule) : Value :=
  .obj [("when", rule.when.toValue), ("childBackend", rule.childBackend.toValue),
    ("debugRequest", rule.debugRequest.toValue)]

def ChildSessionRule.ofValue (value : Value) : Option ChildSessionRule := do
  let field ← structFields ["when", "childBackend", "debugRequest"] value
  let when ← orDefault (field "when") ⟨none, [], []⟩ RuleCondition.ofValue
  let childBackend ← (field "childBackend").bind ChildBackendTemplate.ofValue
  let debugRequest ← (field "debugRequest").bind DebugRequestTemplate.ofValue
  return { when, childBackend, debugRequest }

/-! ### Profiles -/

namespace ChildSessionProfile

def toValue (profile : ChildSessionProfile) : Value :=
  .obj ((if profile.rules = [] then [] else
      [("rules", .array (profile.rules.map ChildSessionRule.toValue))]) ++
    (profile.unsupportedMessage.map fun text => ("unsupportedMessage", .string text)).toList)

/-- `Explicit`, of which there is only an object here. -/
def ofFields (fields : Fields) : Option ChildSessionProfile := do
  let rules ← orDefault (lookupField "rules" fields) [] (readList ChildSessionRule.ofValue)
  let unsupportedMessage ←
    orDefault (lookupField "unsupportedMessage" fields) none (readOption Value.asStr)
  return { rules, unsupportedMessage }

/-- `deserialize_profile`. `toText` is `Value::to_string`, `why` what `serde_json` says of an object
that it does not take. -/
def fromJsonValue (toText why : Value → String) : Value → Except String ChildSessionProfile
  | .string name =>
    match fromPreset name with
    | some profile => .ok profile
    | none => .error ("unknown child-session profile preset '" ++ name ++
        "'; expected \"fake\", \"debugpy\", \"lldb-dap\", or an explicit rules object")
  | .object fields =>
    match ofFields fields with
    | some profile => .ok profile
    | none => .error ("invalid child-session profile object: " ++ why (.object fields))
  | other => .error ("child-session profile must be a preset name or rules object, got " ++
      toText other)

end ChildSessionProfile

/-! ### What is written is read -/

/-- The ports of a profile are those of their type. -/
def PortTemplate.Fits : PortTemplate → Prop
  | .number port => port ≤ 65535
  | .template _ => True

def ChildBackendTemplate.Fits : ChildBackendTemplate → Prop
  | .tcp _ port => port.Fits
  | _ => True

def ChildSessionProfile.Fits (profile : ChildSessionProfile) : Prop :=
  ∀ rule ∈ profile.rules, rule.childBackend.Fits

lemma structFields_obj (names : List String) {fields : Fields} (h : (fields.map (·.1)).Nodup) :
    structFields names (.obj fields) = some fun name => lookupField name fields := by
  have hget : ∀ name, lookupField name (fields.foldl (fun acc f => insertField f.1 f.2 acc) []) =
      lookupField name fields := Value.get_obj h
  simp only [structFields, Value.obj, hget]

lemma readList_strings (l : List String) :
    readList Value.asStr (.array (l.map .string)) = some l := readList_map l fun _ _ => rfl

lemma ParentBackendKind.ofValue_toValue (kind : ParentBackendKind) :
    ofValue kind.toValue = some kind := by
  cases kind <;> rfl

lemma PortTemplate.ofValue_toValue {port : PortTemplate} (h : port.Fits) :
    ofValue port.toValue = some port := by
  cases port with
  | number port =>
    have hle : port ≤ 65535 := h
    have hfits : 0 ≤ (port : ℤ) ∧ (port : ℤ) ≤ 65535 := by omega
    rw [toValue, Value.int, ofValue, if_pos hfits, Int.toNat_natCast]
  | template expr => rfl

/-! ### Fields that may be left out -/

lemma lookupField_append (key : String) (fields more : Fields) :
    lookupField key (fields ++ more) = (lookupField key fields).or (lookupField key more) := by
  induction fields with
  | nil => rfl
  | cons f fields ih =>
    rw [List.cons_append, lookupField, lookupField, ih]
    split_ifs <;> rfl

section LeftOut

variable {α : Type} {P : Prop} [Decidable P] {read : Value → Option α} {write : α → Value}

lemma lookupField_unless (key name : String) (value : Value) :
    lookupField key (if P then [] else [(name, value)]) =
      if P ∨ name ≠ key then none else some value := by
  by_cases hp : P
  · rw [if_pos hp, if_pos (.inl hp), lookupField]
  · by_cases hname : name = key
    · have hno : ¬ (P ∨ name ≠ key) := fun h => h.elim hp fun hne => hne hname
      rw [if_neg hp, if_neg hno, lookupField, if_pos hname]
    · rw [if_neg hp, if_pos (.inr hname), lookupField, if_neg hname, lookupField]

lemma lookupField_given (key name : String) (given : Option α) :
    lookupField key (given.map fun x => (name, write x)).toList =
      if name = key then given.map write else none := by
  cases given with
  | none => simp [lookupField]
  | some x => rfl

lemma keys_unless (name : String) (value : Value) :
    (((if P then [] else [(name, value)]) : Fields).map (·.1)).Sublist [name] := by
  split_ifs
  · exact List.nil_sublist _
  · exact List.Sublist.refl _

lemma keys_given (name : String) (given : Option α) :
    ((given.map fun x => (name, write x)).toList.map (·.1)).Sublist [name] := by
  cases given with
  | none => exact List.nil_sublist _
  | some x => exact List.Sublist.refl _

lemma orDefault_given (given : Option String) :
    orDefault (given.map .string) none (readOption Value.asStr) = some given := by
  cases given <;> rfl

/-- An empty list is left out. -/
lemma orDefault_unless {l : List α} [Decidable (l = [])]
    (h : readList read (.array (l.map write)) = some l) :
    orDefault (if l = [] then none else some (.array (l.map write))) [] (readList read) =
      some l := by
  split_ifs with hl
  · rw [hl, orDefault]
  · rw [orDefault, h]

end LeftOut

lemma RuleCondition.ofValue_toValue (condition : RuleCondition) :
    ofValue condition.toValue = some condition := by
  have hexists := readList_strings condition.exists
  have hbackend := readList_map condition.parentBackend fun kind _ => kind.ofValue_toValue
  rw [ofValue, toValue, structFields_obj]
  · simp only [Option.bind_eq_bind, Option.bind_some, lookupField_append, lookupField_given,
      lookupField_unless, String.reduceEq, ne_eq, not_false_eq_true, not_true_eq_false, or_true,
      or_false, if_true, if_false, Option.none_or, Option.or_none, orDefault_given,
      orDefault_unless hexists, orDefault_unless hbackend]
    rfl
  · have hkeys : ["request", "exists", "parentBackend"].Nodup := by simp
    rw [List.map_append, List.map_append]
    exact (((keys_given "request" _).append (keys_unless "exists" _)).append
      (keys_unless "parentBackend" _)).nodup hkeys

/-- The fields beside the tag. -/
lemma structFields_unset (names : List String) {fields : Fields}
    (h : (fields.map (·.1)).Nodup) : structFields names ((Value.obj fields).unset "type") =
      some fun name => if "type" = name then none else lookupField name fields := by
  have hget : ∀ name, lookupField name (fields.foldl (fun acc f => insertField f.1 f.2 acc) []) =
      lookupField name fields := Value.get_obj h
  simp only [structFields, Value.obj, Value.unset, lookup_removeField, hget]

lemma ChildBackendTemplate.ofValue_obj {fields : Fields} (type : String)
    (h : (fields.map (·.1)).Nodup) (ht : lookupField "type" fields = some (.string type)) :
    ofValue (.obj fields) = ofContent ((Value.obj fields).unset "type") type := by
  have hget : lookupField "type" (fields.foldl (fun acc f => insertField f.1 f.2 acc) []) =
      some (.string type) := (Value.get_obj h "type").trans ht
  simp only [Value.obj, ofValue, hget, Option.bind_some, Value.asStr]
  rfl

lemma ChildBackendTemplate.ofValue_toValue {backend : ChildBackendTemplate} (h : backend.Fits) :
    ofValue backend.toValue = some backend := by
  cases backend with
  | stdio cmd args =>
    rw [toValue, ofValue_obj "stdio" (by simp) rfl, ofContent,
      structFields_unset _ (by simp)]
    simp [lookupField, Value.asStr, orDefault, readList_strings]
  | tcp host port =>
    rw [toValue, ofValue_obj "tcp" (by simp) rfl, ofContent,
      structFields_unset _ (by simp)]
    simp [lookupField, Value.asStr, PortTemplate.ofValue_toValue h]
  | parentBackend => rfl
  | inheritParentStdio => rfl

lemma DebugRequestTemplate.ofValue_toValue (template : DebugRequestTemplate) :
    ofValue template.toValue = some template := by
  unfold ofValue toValue
  rw [structFields_obj _ (by simp)]
  simp [lookupField, Value.asStr]

lemma ChildSessionRule.ofValue_toValue {rule : ChildSessionRule} (h : rule.childBackend.Fits) :
    ofValue rule.toValue = some rule := by
  unfold ofValue toValue
  rw [structFields_obj _ (by simp)]
  simp [lookupField, orDefault, RuleCondition.ofValue_toValue,
    ChildBackendTemplate.ofValue_toValue h, DebugRequestTemplate.ofValue_toValue]

namespace ChildSessionProfile

lemma ofFields_toValue {profile : ChildSessionProfile} (h : profile.Fits) :
    ∃ fields, profile.toValue = .object fields ∧ ofFields fields = some profile := by
  obtain ⟨rules, unsupportedMessage⟩ := profile
  have hrules : readList ChildSessionRule.ofValue (.array (rules.map ChildSessionRule.toValue)) =
      some rules := readList_map rules fun rule hr => ChildSessionRule.ofValue_toValue (h rule hr)
  have hget (fields : Fields) (hn : (fields.map (·.1)).Nodup) (name : String) :
      lookupField name (fields.foldl (fun acc f => insertField f.1 f.2 acc) []) =
        lookupField name fields := Value.get_obj hn name
  refine ⟨_, rfl, ?_⟩
  rw [ofFields, hget _ ?_, hget _ ?_]
  · simp only [Option.bind_eq_bind, lookupField_append, lookupField_given, lookupField_unless,
      String.reduceEq, ne_eq, not_false_eq_true, not_true_eq_false, or_true, or_false, if_true,
      if_false, Option.none_or, Option.or_none, orDefault_given, orDefault_unless hrules]
    rfl
  all_goals
    have hkeys : ["rules", "unsupportedMessage"].Nodup := by simp
    rw [List.map_append]
    exact ((keys_unless "rules" _).append (keys_given "unsupportedMessage" _)).nodup hkeys

/-! ### What is read fits -/

end ChildSessionProfile

lemma PortTemplate.fits_of_ofValue {value : Value} {port : PortTemplate}
    (h : ofValue value = some port) : port.Fits := by
  unfold ofValue at h
  split at h
  · rename_i n
    split_ifs at h with hn
    obtain rfl := Option.some.inj h
    show n.toNat ≤ 65535
    omega
  · obtain rfl := Option.some.inj h
    trivial
  · cases h

lemma ChildBackendTemplate.fits_of_ofContent {content : Value} {type : String}
    {backend : ChildBackendTemplate} (h : ofContent content type = some backend) :
    backend.Fits := by
  unfold ofContent at h
  split at h
  · obtain ⟨field, -, h⟩ := Option.bind_eq_some_iff.mp h
    obtain ⟨cmd, -, h⟩ := Option.bind_eq_some_iff.mp h
    obtain ⟨args, -, h⟩ := Option.bind_eq_some_iff.mp h
    obtain rfl := Option.some.inj h
    trivial
  · obtain ⟨field, -, h⟩ := Option.bind_eq_some_iff.mp h
    obtain ⟨host, -, h⟩ := Option.bind_eq_some_iff.mp h
    obtain ⟨port, hport, h⟩ := Option.bind_eq_some_iff.mp h
    obtain ⟨value, -, hvalue⟩ := Option.bind_eq_some_iff.mp hport
    obtain rfl := Option.some.inj h
    exact PortTemplate.fits_of_ofValue hvalue
  · obtain ⟨_, -, rfl⟩ := Option.map_eq_some_iff.mp h
    trivial
  · obtain ⟨_, -, rfl⟩ := Option.map_eq_some_iff.mp h
    trivial
  · cases h

lemma ChildBackendTemplate.fits_of_ofValue {value : Value} {backend : ChildBackendTemplate}
    (h : ofValue value = some backend) : backend.Fits := by
  unfold ofValue at h
  split at h
  · obtain ⟨type, -, h⟩ := Option.bind_eq_some_iff.mp h
    exact fits_of_ofContent h
  · exact fits_of_ofContent h
  · cases h

lemma ChildSessionRule.fits_of_ofValue (value : Value) (rule : ChildSessionRule)
    (h : ofValue value = some rule) : rule.childBackend.Fits := by
  obtain ⟨field, -, h⟩ := Option.bind_eq_some_iff.mp h
  obtain ⟨condition, -, h⟩ := Option.bind_eq_some_iff.mp h
  obtain ⟨backend, hbackend, h⟩ := Option.bind_eq_some_iff.mp h
  obtain ⟨debugRequest, -, h⟩ := Option.bind_eq_some_iff.mp h
  obtain rfl := Option.some.inj h
  obtain ⟨value, -, hvalue⟩ := Option.bind_eq_some_iff.mp hbackend
  exact ChildBackendTemplate.fits_of_ofValue hvalue

namespace ChildSessionProfile

lemma fits_of_ofFields {fields : Fields} {profile : ChildSessionProfile}
    (h : ofFields fields = some profile) : profile.Fits := by
  obtain ⟨rules, hrules, h⟩ := Option.bind_eq_some_iff.mp h
  obtain ⟨unsupportedMessage, -, h⟩ := Option.bind_eq_some_iff.mp h
  obtain rfl := Option.some.inj h
  cases hf : lookupField "rules" fields with
  | none =>
    rw [hf] at hrules
    obtain rfl := Option.some.inj hrules
    exact fun rule hr => absurd hr List.not_mem_nil
  | some value =>
    rw [hf] at hrules
    exact forall_of_readList ChildSessionRule.fits_of_ofValue hrules

lemma fits_of_fromPreset {name : String} {profile : ChildSessionProfile}
    (h : fromPreset name = some profile) : profile.Fits := by
  unfold fromPreset at h
  split at h
  · obtain rfl := Option.some.inj h
    simp [Fits, fakePreset, ChildBackendTemplate.Fits]
  · obtain rfl := Option.some.inj h
    simp [Fits, debugpyPreset, ChildBackendTemplate.Fits, PortTemplate.Fits]
  · obtain rfl := Option.some.inj h
    simp [Fits, lldbDapPreset, ChildBackendTemplate.Fits]
  · cases h

variable {toText why : Value → String}

lemma fits_of_fromJsonValue {value : Value} {profile : ChildSessionProfile}
    (h : fromJsonValue toText why value = .ok profile) : profile.Fits := by
  unfold fromJsonValue at h
  split at h
  · split at h
    · obtain rfl := Except.ok.inj h
      exact fits_of_fromPreset ‹_›
    · cases h
  · split at h
    · obtain rfl := Except.ok.inj h
      exact fits_of_ofFields ‹_›
    · cases h
  · cases h

end ChildSessionProfile

end DappyCore.ChildSession

namespace DappyCore.ProxyProcess

open Json ChildSession ChildSessionProfile

/-! ### Files -/

/-- `Host.profileFile`, of a disk and a parser of JSON. -/
def readProfileFile (readToString : String → Except String String)
    (fromStr : String → Except String Value) (toText why : Value → String) (path : String) :
    Except String ChildSessionProfile :=
  match readToString path with
  | .error _ => .error ("read child profile file " ++ path)
  | .ok body =>
    match fromStr body with
    | .error _ => .error "parse child profile file as JSON"
    | .ok value => fromJsonValue toText why value

/-- Fields that say nothing of a profile. -/
def Unknown (more : Fields) : Prop := ∀ f ∈ more, f.1 ≠ "rules" ∧ f.1 ≠ "unsupportedMessage"

/-- An object with more fields put into it. -/
def withFields (value : Value) (more : Fields) : Value :=
  more.foldl (fun value f => value.set f.1 f.2) value

lemma ofFields_withFields {more : Fields} (h : Unknown more) (fields : Fields) :
    ∃ fields', withFields (.object fields) more = .object fields' ∧
      ofFields fields' = ofFields fields := by
  induction more generalizing fields with
  | nil => exact ⟨fields, rfl, rfl⟩
  | cons f more ih =>
    obtain ⟨⟨hrules, hmessage⟩, hmore⟩ := List.forall_mem_cons.mp h
    obtain ⟨fields', hset, hsame⟩ := ih hmore (insertField f.1 f.2 fields)
    refine ⟨fields', hset, hsame.trans ?_⟩
    simp only [ofFields, lookup_insertField, hrules, hmessage, if_false]

/-- **Profiles are read back.** A profile is read from its own JSON, whatever else is put into that,
and a proxy that is given a file of it loads it; and what is read as a profile, by the name of a
preset or by its rules, has ports that fit, so that it is read back from its own JSON too. -/
theorem profile_read_back (readToString : String → Except String String)
    (fromStr : String → Except String Value) (toText why : Value → String) :
    (∀ profile, profile.Fits → fromJsonValue toText why profile.toValue = .ok profile ∧
      ∀ more, Unknown more →
        fromJsonValue toText why (withFields profile.toValue more) = .ok profile) ∧
    (∀ value profile, fromJsonValue toText why value = .ok profile →
      profile.Fits ∧ fromJsonValue toText why profile.toValue = .ok profile) ∧
    ∀ host cli path body profile, cli.childProfileFile = some path → readToString path = .ok body →
      host.profileFile = readProfileFile readToString fromStr toText why → profile.Fits →
      fromStr body = .ok profile.toValue → loadChildProfile host cli = .ok profile := by
  have hread : ∀ profile : ChildSessionProfile, profile.Fits →
      fromJsonValue toText why profile.toValue = .ok profile := fun profile h => by
    obtain ⟨fields, hvalue, hfields⟩ := ofFields_toValue h
    rw [hvalue, fromJsonValue, hfields]
  refine ⟨fun profile h => ⟨hread profile h, fun more hmore => ?_⟩,
    fun value profile h => ?_, fun host cli path body profile hpath hbody hhost h hparse => ?_⟩
  · -- the fields that are looked up are none of the unknown ones
    obtain ⟨fields, hvalue, hfields⟩ := ofFields_toValue h
    obtain ⟨fields', hset, hsame⟩ := ofFields_withFields hmore fields
    rw [hvalue, hset, fromJsonValue, hsame, hfields]
  · have hfits := fits_of_fromJsonValue h
    exact ⟨hfits, hread profile hfits⟩
  · -- the file of a proxy is read in the same way
    rw [loadChildProfile, hpath, hhost]
    simp only [readProfileFile, hbody, hparse]
    exact hread profile h

/-- The preset for debugpy as a file, with fields beside its own. -/
def debugpyFile : Value :=
  withFields ChildSessionProfile.debugpyPreset.toValue [("version", .int 1), ("notes", .null)]

/-- A process that finds the preset in every file. -/
def debugpyHost : Host where
  scopeId := none
  currentExe := .ok "dap-proxy"
  profileFile := readProfileFile (fun _ => .ok "rules")
    (fun _ => .ok ChildSessionProfile.debugpyPreset.toValue) (fun _ => "") fun _ => ""

/-- A preset by its name, by its rules with more beside them, and by a file of them. -/
theorem profile_read_back_debugpy :
    fromJsonValue (fun _ => "") (fun _ => "") (.string "debugpy") = .ok .debugpyPreset ∧
      fromJsonValue (fun _ => "") (fun _ => "") debugpyFile = .ok .debugpyPreset ∧
      loadChildProfile debugpyHost { editor.cli with childProfileFile := some "debugpy.json" } =
        .ok .debugpyPreset := by
  obtain ⟨hown, haccepted, hfile⟩ := profile_read_back (fun _ => .ok "rules")
    (fun _ => .ok ChildSessionProfile.debugpyPreset.toValue) (fun _ => "") fun _ => ""
  have hfits := (haccepted (.string "debugpy") .debugpyPreset rfl).1
  refine ⟨rfl, (hown _ hfits).2 _ ?_, ?_⟩
  · simp [Unknown]
  · exact hfile debugpyHost _ "debugpy.json" "rules" _ rfl rfl rfl hfits rfl

end DappyCore.ProxyProcess
