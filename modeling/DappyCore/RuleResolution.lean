import DappyCore.Lib.Selection
import DappyCore.TemplatePaths

/-!
A rule that asks for every path its templates have placeholders for. What it asks for is looked up
as the placeholders are, so once it is selected its templates are filled.
-/

namespace DappyCore.ChildSession

open Lib.Effect Lib.Selection Json Transport Plugin

/-! ### The texts of a rule -/

mutual

/-- The texts in a value, at any depth. -/
def textsOf : Value → List String
  | .string text => [text]
  | .array items => itemTexts items
  | .object fields => fieldTexts fields
  | _ => []

def itemTexts : List Value → List String
  | [] => []
  | item :: items => textsOf item ++ itemTexts items

def fieldTexts : List (String × Value) → List String
  | [] => []
  | (_, value) :: fields => textsOf value ++ fieldTexts fields

end

def PortTemplate.texts : PortTemplate → List String
  | .number _ => []
  | .template expr => [expr]

def ChildBackendTemplate.texts : ChildBackendTemplate → List String
  | .stdio cmd args => cmd :: args
  | .tcp host port => host :: port.texts
  | .parentBackend | .inheritParentStdio => []

def ChildSessionRule.texts (rule : ChildSessionRule) : List String :=
  rule.childBackend.texts ++ rule.debugRequest.request :: textsOf rule.debugRequest.arguments

/-- Every placeholder of the rule is the configuration, the request, or a path it asks for. -/
def Covered (rule : ChildSessionRule) : Prop :=
  ∀ text ∈ rule.texts, ∀ path, placeholder text = some path →
    path = "configuration".toList ∨ path = "request".toList ∨
      String.ofList path ∈ rule.when.exists

/-- The request is admitted, and this is the rule for it. -/
structure Selects (config : ChildSessionConfig) (remainingDepth activeChildren : ℕ)
    (parent : ParentSessionContext) (args : StartDebuggingArgs) (rule : ChildSessionRule) :
    Prop where
  enabled : config.autoSpawn
  depth : 0 < remainingDepth
  room : activeChildren < config.maxChildren
  found : findRule config parent args = some rule

/-- The backend of the rule is a template. -/
def HasTemplate (rule : ChildSessionRule) : Prop :=
  (∃ cmd args, rule.childBackend = .stdio cmd args) ∨
    ∃ host port, rule.childBackend = .tcp host port

/-! ### What a template is filled with -/

/-- The field of this name, of which the last counts; an object of `serde_json` has one. -/
def lastField (key : String) : Fields → Option Value
  | [] => none
  | (k, v) :: rest => (lastField key rest).or (if k = key then some v else none)

/-- Each text that is a placeholder as a whole is replaced by the value at its path, and all else
is as in the template. -/
inductive Filled (context : Value) : Value → Value → Prop
  | replaced {text : String} {path : List Char} {value : Value} :
    placeholder text = some path → pointer context path = some value →
      Filled context (.string text) value
  | copied {text : String} : placeholder text = none → Filled context (.string text) (.string text)
  | null : Filled context .null .null
  | bool (b : Bool) : Filled context (.bool b) (.bool b)
  | number (n : Number) : Filled context (.number n) (.number n)
  | array {items filled : List Value} :
    List.Forall₂ (Filled context) items filled → Filled context (.array items) (.array filled)
  | object {fields filled : Fields} :
    (∀ key, Option.Rel (Filled context) (lastField key fields) (lookupField key filled)) →
      Filled context (.object fields) (.object filled)

/-- An integer that is a port. -/
def IsPort (value : Value) : Prop := ∃ n : ℤ, value = .int n ∧ 0 ≤ n ∧ n ≤ 65535

/-- The rule has a template for a port, which is no placeholder, or one for what is no port. -/
def BadPort (rule : ChildSessionRule) (context : Value) : Prop :=
  ∃ host expr, rule.childBackend = .tcp host (.template expr) ∧
    ∀ path value, placeholder expr = some path → pointer context path = some value → ¬ IsPort value

/-! ### Looking up -/

variable {args : StartDebuggingArgs} {text : String} {path : List Char} {value : Value}

/-- The pointer of a name at the root is its member. -/
lemma pointer_name (context : Value) {name : String} (hkey : IsKey name.toList)
    (hplain : '/' ∉ name.toList ∧ ¬ HasEscape name.toList)
    (hindex : decimalIndex name.toList = none) :
    pointer context name.toList = context.get name := by
  have hsegs : ∀ seg ∈ [name.toList], IsKey seg := List.forall_mem_singleton.mpr hkey
  have hdotted : dotted [name.toList] = name.toList := (dotted_eq_iff hsegs hkey).mpr rfl
  have hp := pointer_dotted context hsegs
  rw [hdotted, keysRead_of_plain (List.forall_mem_singleton.mpr hplain), descend_cons,
    ← get_eq_member context hindex] at hp
  rw [hp]
  cases context.get name <;> rfl

lemma pointer_configuration (context : Value) :
    pointer context "configuration".toList = context.get "configuration" :=
  pointer_name context ⟨by decide, by decide⟩ (plain_of_whole (.inl rfl) _ List.mem_cons_self)
    (by decide)

lemma pointer_request (context : Value) :
    pointer context "request".toList = context.get "request" :=
  pointer_name context ⟨by decide, by decide⟩ (plain_of_whole (.inr rfl) _ List.mem_cons_self)
    (by decide)

/-- **The expander and the guard** look up the same: a placeholder is resolved to what the pointer
of its path leads to. -/
theorem resolveTemplateValue_eq_ok {context : Value} (hp : placeholder text = some path)
    (hv : pointer context path = some value) : resolveTemplateValue text context = .ok value := by
  rw [← toOption_eq_some, toOption_resolveTemplateValue hp]
  by_cases h1 : path = "configuration".toList
  · rw [h1, pointer_configuration] at hv
    rw [if_pos h1, hv, Option.getD_some]
  · rw [if_neg h1]
    by_cases h2 : path = "request".toList
    · rw [h2, pointer_request] at hv
      rw [if_pos h2, hv, Option.getD_some]
    · rw [if_neg h2, hv]

/-- What the placeholders of a text need is there. -/
def Present (context : Value) (text : String) : Prop :=
  ∀ path, placeholder text = some path → ∃ value, pointer context path = some value

lemma get_toValue (args : StartDebuggingArgs) :
    args.toValue.get "configuration" = some args.configuration ∧
      args.toValue.get "request" = some (.string args.request) := by
  have hnd : ([("request", .string args.request), ("configuration", args.configuration)].map
      (fun f : String × Value => f.1)).Nodup := by
    simp
  unfold StartDebuggingArgs.toValue
  rw [Value.get_obj hnd, Value.get_obj hnd]
  exact ⟨rfl, rfl⟩

/-- Each placeholder of the rule that was selected has its value. -/
lemma present_of_covered {config : ChildSessionConfig} {parent : ParentSessionContext}
    {rule : ChildSessionRule} (hrule : findRule config parent args = some rule)
    (hcov : Covered rule) (ht : text ∈ rule.texts) : Present args.toValue text := by
  intro path hp
  rcases hcov text ht path hp with rfl | rfl | hexists
  · exact ⟨_, (pointer_configuration _).trans (get_toValue args).1⟩
  · exact ⟨_, (pointer_request _).trans (get_toValue args).2⟩
  · have hfind : config.profile.rules.find? (fun rule =>
        ruleMatches rule args args.toValue parent && backendCompatible rule parent) = some rule :=
      hrule
    have hmatches := List.find?_some hfind
    simp only [ruleMatches, Bool.and_eq_true, decide_eq_true_eq] at hmatches
    have hsome := List.all_eq_true.mp hmatches.1.2.1 _ hexists
    rw [String.toList_ofList] at hsome
    exact Option.isSome_iff_exists.mp hsome

/-! ### Filling -/

section Filling

variable {context : Value}

lemma isOk_resolveStringTemplate (toText : Value → String) (h : Present context text) :
    (resolveStringTemplate toText text context).isOk := by
  unfold resolveStringTemplate
  cases hp : placeholder text with
  | none => simp [Except.isOk, Except.toBool]
  | some path =>
    obtain ⟨value, hv⟩ := h path hp
    rw [resolveTemplateValue_eq_ok hp hv]
    cases value <;> rfl

lemma lastField_cons (key k : String) (v : Value) (rest : Fields) :
    lastField key ((k, v) :: rest) = (lastField key rest).or (if k = key then some v else none) :=
  rfl

mutual

/-- **A value is filled** where what its placeholders need is there. -/
theorem resolveValueTemplate_filled : ∀ template : Value,
    (∀ text ∈ textsOf template, Present context text) →
      ∃ value, resolveValueTemplate context template = .ok value ∧ Filled context template value
  | .null, _ => ⟨.null, rfl, .null⟩
  | .bool b, _ => ⟨.bool b, rfl, .bool b⟩
  | .number n, _ => ⟨.number n, rfl, .number n⟩
  | .string text, h => by
    unfold resolveValueTemplate
    cases hp : placeholder text with
    | none => exact ⟨.string text, rfl, .copied hp⟩
    | some path =>
      obtain ⟨value, hv⟩ := h text (List.mem_singleton_self text) path hp
      exact ⟨value, resolveTemplateValue_eq_ok hp hv, .replaced hp hv⟩
  | .array items, h => by
    obtain ⟨filled, hok, hfilled⟩ := resolveItemTemplates_filled items h
    exact ⟨.array filled, by rw [resolveValueTemplate, hok]; rfl, .array hfilled⟩
  -- of a key that is given more than once the last value counts
  | .object fields, h => by
    obtain ⟨filled, hok, hfilled⟩ := resolveFieldTemplates_filled fields [] h
    refine ⟨.object filled, by rw [resolveValueTemplate, hok]; rfl, .object fun key => ?_⟩
    have hkey := hfilled key
    cases hlast : lastField key fields with
    | none =>
      rw [hlast] at hkey
      rw [hkey]
      exact .none
    | some v =>
      rw [hlast] at hkey
      obtain ⟨w, hw, hvw⟩ := hkey
      rw [hw]
      exact .some hvw

theorem resolveItemTemplates_filled : ∀ items : List Value,
    (∀ text ∈ itemTexts items, Present context text) →
      ∃ filled, resolveItemTemplates context items = .ok filled ∧
        List.Forall₂ (Filled context) items filled
  | [], _ => ⟨[], rfl, .nil⟩
  | item :: items, h => by
    obtain ⟨value, hok, hvalue⟩ := resolveValueTemplate_filled item fun text ht =>
      h text (List.mem_append_left _ ht)
    obtain ⟨filled, hoks, hfilled⟩ := resolveItemTemplates_filled items fun text ht =>
      h text (List.mem_append_right _ ht)
    exact ⟨value :: filled, by rw [resolveItemTemplates, hok, hoks]; rfl, .cons hvalue hfilled⟩

/-- A field is filled from the last of its name, or stays what it was before. -/
theorem resolveFieldTemplates_filled : ∀ (fields out : Fields),
    (∀ text ∈ fieldTexts fields, Present context text) →
      ∃ filled, resolveFieldTemplates context fields out = .ok filled ∧ ∀ key,
        match lastField key fields with
        | none => lookupField key filled = lookupField key out
        | some v => ∃ w, lookupField key filled = some w ∧ Filled context v w
  | [], out, _ => ⟨out, rfl, fun _ => rfl⟩
  | (k, v) :: fields, out, h => by
    obtain ⟨value, hok, hvalue⟩ := resolveValueTemplate_filled v fun text ht =>
      h text (List.mem_append_left _ ht)
    obtain ⟨filled, hoks, hfilled⟩ := resolveFieldTemplates_filled fields
      (insertField k value out) fun text ht => h text (List.mem_append_right _ ht)
    refine ⟨filled, by rw [resolveFieldTemplates, hok]; exact hoks, fun key => ?_⟩
    have hkey := hfilled key
    rw [lastField_cons]
    cases hlast : lastField key fields with
    | some v' =>
      -- a later field of the same name wins
      rw [hlast] at hkey
      exact hkey
    | none =>
      rw [hlast, lookup_insertField] at hkey
      by_cases hk : k = key
      · rw [if_pos hk] at hkey ⊢
        exact ⟨value, hkey, hvalue⟩
      · rw [if_neg hk] at hkey ⊢
        exact hkey

end

lemma asPort_isSome_iff (value : Value) : (asPort value).isSome ↔ IsPort value := by
  unfold asPort IsPort
  split
  · next n =>
    split_ifs with h
    · exact iff_of_true rfl ⟨n, rfl, h.1, by omega⟩
    · refine iff_of_false (by simp) ?_
      rintro ⟨m, hm, h0, h1⟩
      cases hm
      exact h ⟨h0, by omega⟩
  · next hno =>
    refine iff_of_false (by simp) ?_
    rintro ⟨n, rfl, -⟩
    exact hno n rfl

lemma isOk_resolvePort {port : PortTemplate} (h : ∀ text ∈ port.texts, Present context text) :
    (resolvePort port context).isOk ↔
      ∀ expr, port = .template expr → ∃ path value, placeholder expr = some path ∧
        pointer context path = some value ∧ IsPort value := by
  cases port with
  | number n => exact iff_of_true rfl (by simp)
  | template expr =>
    simp only [PortTemplate.template.injEq, forall_eq']
    unfold resolvePort
    cases hp : placeholder expr with
    | none =>
      -- a text that is no placeholder is no port
      refine iff_of_false ?_ (by simp)
      simp [resolveTemplateValue, hp, Except.isOk, Except.toBool]
    | some path =>
      obtain ⟨value, hv⟩ := h expr (List.mem_singleton_self expr) path hp
      have hport := asPort_isSome_iff value
      simp only [resolveTemplateValue_eq_ok hp hv]
      constructor
      · intro hok
        refine ⟨path, value, rfl, hv, hport.mp ?_⟩
        cases ha : asPort value with
        | none => simp [ha, Except.isOk, Except.toBool] at hok
        | some n => rfl
      · rintro ⟨path', value', hpath, hv', hn⟩
        obtain rfl := Option.some.inj hpath
        obtain rfl := Option.some.inj (hv.symm.trans hv')
        obtain ⟨n, hn⟩ := Option.isSome_iff_exists.mp (hport.mpr hn)
        simp [hn, Except.isOk, Except.toBool]

lemma not_badPort_iff {rule : ChildSessionRule} {host : String} {port : PortTemplate}
    (hback : rule.childBackend = .tcp host port) : ¬ BadPort rule context ↔
      ∀ expr, port = .template expr → ∃ path value, placeholder expr = some path ∧
        pointer context path = some value ∧ IsPort value := by
  unfold BadPort
  rw [hback]
  constructor
  · intro h expr hport
    by_contra hno
    refine h ⟨host, expr, by rw [hport], fun path value hp hv hok => hno ⟨path, value, hp, hv, hok⟩⟩
  · rintro h ⟨host', expr, htcp, hbad⟩
    obtain ⟨-, hport⟩ := ChildBackendTemplate.tcp.inj htcp
    obtain ⟨path, value, hp, hv, hok⟩ := h expr hport
    exact hbad path value hp hv hok

/-- The backend of a template is built exactly where its port is one. -/
lemma isOk_buildChildBackend (toText : Value → String) {rule : ChildSessionRule}
    (parent : ParentSessionContext) (htemplate : HasTemplate rule)
    (h : ∀ text ∈ rule.childBackend.texts, Present context text) :
    (buildChildBackend toText rule.childBackend parent context).isOk ↔ ¬ BadPort rule context := by
  rcases htemplate with ⟨cmd, as, hback⟩ | ⟨host, port, hback⟩
  · have hno : ¬ BadPort rule context := by
      rintro ⟨host, expr, htcp, -⟩
      rw [hback] at htcp
      cases htcp
    rw [hback] at h ⊢
    refine iff_of_true ?_ hno
    obtain ⟨hcmd, has⟩ := List.forall_mem_cons.mp h
    obtain ⟨command, hcommand⟩ := isOk_iff.mp (isOk_resolveStringTemplate toText hcmd)
    have hargs := mapM_of_isOk fun arg harg => isOk_resolveStringTemplate toText (has arg harg)
    exact isOk_bind_iff.mpr ⟨command, hcommand, isOk_bind_iff.mpr ⟨_, hargs, rfl⟩⟩
  · rw [not_badPort_iff hback]
    rw [hback] at h ⊢
    obtain ⟨hhost, hport⟩ := List.forall_mem_cons.mp h
    obtain ⟨host', hhost'⟩ := isOk_iff.mp (isOk_resolveStringTemplate toText hhost)
    rw [← isOk_resolvePort hport]
    constructor
    · intro hok
      obtain ⟨_, _, hok⟩ := isOk_bind_iff.mp hok
      obtain ⟨n, hn, -⟩ := isOk_bind_iff.mp hok
      exact isOk_iff.mpr ⟨n, hn⟩
    · intro hok
      obtain ⟨n, hn⟩ := isOk_iff.mp hok
      exact isOk_bind_iff.mpr ⟨host', hhost', isOk_bind_iff.mpr ⟨n, hn, rfl⟩⟩

/-- What is left of a rule is resolved, whatever its backend. -/
lemma resolveDebugRequest_filled (toText : Value → String) {template : DebugRequestTemplate}
    (hrequest : Present context template.request)
    (hargs : ∀ text ∈ textsOf template.arguments, Present context text) :
    ∃ request arguments, resolveDebugRequest toText template context = .ok (request, arguments) ∧
      Filled context template.arguments arguments := by
  obtain ⟨request, hrequest'⟩ := isOk_iff.mp (isOk_resolveStringTemplate toText hrequest)
  obtain ⟨arguments, hok, hfilled⟩ := resolveValueTemplate_filled template.arguments hargs
  refine ⟨request, arguments, ?_, hfilled⟩
  exact except_bind_eq_ok.mpr ⟨request, hrequest',
    except_bind_eq_ok.mpr ⟨arguments, hok, rfl⟩⟩

end Filling

/-! ### The rule that was selected -/

variable {toText : Value → String} {config : ChildSessionConfig}
  {remainingDepth activeChildren : ℕ} {parent : ParentSessionContext} {rule : ChildSessionRule}

lemma resolveChildSpawn_of_selects
    (h : Selects config remainingDepth activeChildren parent args rule) :
    resolveChildSpawn toText config remainingDepth activeChildren parent args = do
      let backend ← buildChildBackend toText rule.childBackend parent args.toValue
      let (debugRequest, debugArguments) ←
        resolveDebugRequest toText rule.debugRequest args.toValue
      return { backend, debugRequest, debugArguments, childDepth := remainingDepth - 1 } := by
  unfold resolveChildSpawn planChild
  rw [if_neg (not_not.mpr h.enabled), if_neg (Nat.ne_of_gt h.depth),
    if_neg (Nat.not_le_of_lt h.room), h.found]

/-- **A matching rule resolves**: of a rule with a template whose placeholders it asks for, only
the port can fail, and the debug arguments are the template filled. -/
theorem matching_rule_resolves (h : Selects config remainingDepth activeChildren parent args rule)
    (htemplate : HasTemplate rule) (hcov : Covered rule) :
    ((∃ message, resolveChildSpawn toText config remainingDepth activeChildren parent args =
        .error message) ↔ BadPort rule args.toValue) ∧
      ∀ plan, resolveChildSpawn toText config remainingDepth activeChildren parent args = .ok plan →
        Filled args.toValue rule.debugRequest.arguments plan.debugArguments := by
  have hpresent : ∀ text ∈ rule.texts, Present args.toValue text := fun text ht =>
    present_of_covered h.found hcov ht
  obtain ⟨hback, hdebug⟩ := List.forall_mem_append.mp hpresent
  obtain ⟨hrequest, hargs⟩ := List.forall_mem_cons.mp hdebug
  have hbackend := isOk_buildChildBackend toText parent htemplate hback
  obtain ⟨request, arguments, hresolved, hfilled⟩ :=
    resolveDebugRequest_filled toText hrequest hargs
  rw [resolveChildSpawn_of_selects h]
  cases hb : buildChildBackend toText rule.childBackend parent args.toValue with
  | error e =>
    rw [hb] at hbackend
    have hbad : BadPort rule args.toValue := by
      by_contra hno
      exact absurd (hbackend.mpr hno) (by simp [Except.isOk, Except.toBool])
    exact ⟨iff_of_true ⟨e, rfl⟩ hbad, fun plan hplan => by cases hplan⟩
  | ok backend =>
    rw [hb] at hbackend
    have hgood : ¬ BadPort rule args.toValue := hbackend.mp rfl
    rw [hresolved]
    refine ⟨iff_of_false ?_ hgood, fun plan hplan => ?_⟩
    · rintro ⟨message, hmessage⟩
      cases hmessage
    · rw [← Except.ok.inj hplan]
      exact hfilled

section Example

def debugpyConfig : ChildSessionConfig := ⟨true, 4, 1, .debugpyPreset⟩

/-- A subprocess that connects back. -/
def connectBack : StartDebuggingArgs :=
  ⟨"attach", .object [("connect", .object [("host", .string "127.0.0.1"), ("port", .int 5678)])]⟩

def debugpyRule : ChildSessionRule where
  when := {
    request := some "attach"
    «exists» := ["configuration.connect.host", "configuration.connect.port"]
    parentBackend := [] }
  childBackend :=
    .tcp "$\x7bconfiguration.connect.host\x7d" (.template "$\x7bconfiguration.connect.port\x7d")
  debugRequest := ⟨"$\x7brequest\x7d", .string "$\x7bconfiguration\x7d"⟩

lemma covered_debugpyRule : Covered debugpyRule := by
  intro text ht path hp
  have htexts : debugpyRule.texts = ["$\x7bconfiguration.connect.host\x7d",
      "$\x7bconfiguration.connect.port\x7d", "$\x7brequest\x7d", "$\x7bconfiguration\x7d"] := rfl
  rw [htexts] at ht
  simp only [List.mem_cons, List.not_mem_nil, or_false] at ht
  rcases ht with rfl | rfl | rfl | rfl
  · obtain rfl : "configuration.connect.host".toList = path := Option.some.inj hp
    exact .inr (.inr (by decide))
  · obtain rfl : "configuration.connect.port".toList = path := Option.some.inj hp
    exact .inr (.inr (by decide))
  · exact .inr (.inl (Option.some.inj hp).symm)
  · exact .inl (Option.some.inj hp).symm

theorem matching_rule_resolves_debugpy :
    ((∃ message, resolveChildSpawn (fun _ => "") debugpyConfig 1 0 ⟨.stdio, [], none⟩ connectBack =
        .error message) ↔ BadPort debugpyRule connectBack.toValue) ∧
      ∀ plan, resolveChildSpawn (fun _ => "") debugpyConfig 1 0 ⟨.stdio, [], none⟩ connectBack =
          .ok plan →
        Filled connectBack.toValue debugpyRule.debugRequest.arguments plan.debugArguments :=
  matching_rule_resolves ⟨rfl, by decide, by decide, rfl⟩ (.inr ⟨_, _, rfl⟩) covered_debugpyRule

end Example

end DappyCore.ChildSession
