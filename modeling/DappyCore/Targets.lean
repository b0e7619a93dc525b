import DappyCore.Templates
import DappyCore.Loader
import DappyCore.AttachDefaults
import DappyCore.PluginInfo

/-!
RSP targets: their registry, what a target is prepared from, and how its attach arguments come to
the adapter in the requests that start debugging.
-/

namespace DappyCore.Targets

open Lib Lib.Effect Json Protocol Plugin Loader
open Session SessionLoop MuxBridge AttachDefaults ClientBridge

/-! ### The registry -/

/-- Registry of RSP target manifests. -/
structure TargetRegistry where
  targets : List TargetManifest

namespace TargetRegistry

def new : TargetRegistry := ⟨[]⟩

/-- A manifest takes the place of the first one with its id, or comes last. -/
def register (registry : TargetRegistry) (manifest : TargetManifest) : TargetRegistry :=
  match registry.targets.findIdx? (·.id = manifest.id) with
  | some existing => ⟨registry.targets.set existing manifest⟩
  | none => ⟨registry.targets ++ [manifest]⟩

def get (registry : TargetRegistry) (id : String) : Option TargetManifest :=
  registry.targets.find? (·.id = id)

end TargetRegistry

/-! ### Resolving a target -/

/-- Spawn command with templates resolved for a concrete program path. -/
structure ResolvedTargetSpawn where
  command : String
  args : List String
  deriving DecidableEq

/-- Fully resolved target ready for spawn and attach. -/
structure ResolvedTarget where
  id : String
  name : String
  description : Option String
  spawn : Option ResolvedTargetSpawn
  host : String
  port : UInt16
  attachFields : Value
  initSteps : List InitStep

def defaultHost : String := "127.0.0.1"

def defaultPort : UInt16 := 1234

def defaultConnect : TargetConnect := ⟨defaultHost, defaultPort⟩

/-- `json!(port)`. -/
def portValue (port : UInt16) : Value := .int port.toNat

variable (env : Environment)

def resolveRequiredString (template : String) (ctx : TemplateContext) (field : String) :
    Except PluginError String := do
  let resolved ←
    match resolveValue env ctx (.string template) with
    | some resolved => pure resolved
    | none => throw (.invalidManifest ("failed to resolve template for " ++ field))
  match resolved.asStr with
  | some text => return text
  | none => throw (.invalidManifest (field ++ " must resolve to a string"))

def resolveSpawn (spawn : TargetSpawn) (ctx : TemplateContext) :
    Except PluginError ResolvedTargetSpawn := do
  let command ← resolveRequiredString env spawn.command ctx "spawn.command"
  let args ← spawn.args.mapM fun arg => resolveRequiredString env arg ctx "spawn.args"
  return { command, args }

/-- `entry("host")` and `entry("port")`, both `or_insert`. -/
def fillEndpoint (host : String) (port : UInt16) (fields : Fields) : Fields :=
  fillField (fillField fields ("host", .string host)) ("port", portValue port)

def mergeAttachFields (attach : Option Value) (connect : TargetConnect) (ctx : TemplateContext) :
    Value :=
  let args := (attach.map (mergeObject env ctx (.obj []))).getD (.obj [])
  match args with
  | .object map => .object (fillEndpoint connect.host connect.port map)
  | args => args

def resolve (manifest : TargetManifest) (program : String) : Except PluginError ResolvedTarget := do
  let ctx := TemplateContext.new env program manifest.id
  let connect := manifest.connect.getD defaultConnect
  let spawn ←
    match manifest.spawn with
    | some spawn => some <$> resolveSpawn env spawn ctx
    | none => pure none
  return {
    id := manifest.id
    name := manifest.name
    description := manifest.description
    spawn
    host := connect.host
    port := connect.port
    attachFields := mergeAttachFields env manifest.attach connect ctx
    initSteps := (manifest.init.map (·.steps)).getD [] }

def ResolvedTarget.attachArguments (target : ResolvedTarget) : Value :=
  match target.attachFields with
  | .object map => .object (fillEndpoint target.host target.port map)
  | _ => .obj [("host", .string target.host), ("port", portValue target.port)]

/-! ### Preparing a target -/

/-- RSP target process plus attach fields for gdb-remote. -/
structure PreparedRspTarget (Child : Type) where
  process : Option Child
  attachArguments : Value

/-- Why no target is prepared: it is unknown, it is not resolved, or its backend does not start
or does not listen. -/
inductive PrepareError
  | unknown (message : String)
  | manifest (error : PluginError)
  | spawn (message : String)

/-- `spawnRspTarget` starts the backend and waits until it listens. -/
def prepareRspTarget {Child : Type}
    (spawnRspTarget : ResolvedTargetSpawn → String → UInt16 → Except String Child)
    (registry : TargetRegistry) (targetId program : String) :
    Except PrepareError (PreparedRspTarget Child) := do
  let manifest ←
    match registry.get targetId with
    | some manifest => pure manifest
    | none => throw (.unknown ("unknown RSP target `" ++ targetId ++ "`"))
  let profile ← (resolve env manifest program).mapError .manifest
  let process ←
    match profile.spawn with
    | some spawn =>
      some <$> (spawnRspTarget spawn profile.host profile.port).mapError .spawn
    | none => pure none
  return { process, attachArguments := profile.attachArguments }

/-! ### What a target gives -/

namespace TargetRegistry

lemma get_register (registry : TargetRegistry) (manifest : TargetManifest) (id : String) :
    (registry.register manifest).get id =
      if manifest.id = id then some manifest else registry.get id := by
  obtain ⟨targets⟩ := registry
  simp only [register, get]
  induction targets with
  | nil => by_cases hid : manifest.id = id <;> simp [hid]
  | cons t rest ih =>
    by_cases ht : t.id = manifest.id
    · -- a target with this id is replaced where it is
      simp only [List.findIdx?_cons, ht, decide_true, if_true, List.set_cons_zero,
        List.find?_cons]
      by_cases hid : manifest.id = id <;> simp [hid]
    · simp only [List.findIdx?_cons, ht, decide_false, Bool.false_eq_true, if_false]
      cases hrest : rest.findIdx? (·.id = manifest.id) with
      | none =>
        -- it is put behind the others
        simp only [hrest] at ih
        simp only [Option.map_none, List.cons_append, List.find?_cons, ih]
        by_cases hid : t.id = id
        · have hne : ¬ manifest.id = id := fun h => ht (hid.trans h.symm)
          simp [hid, hne]
        · simp [hid]
      | some n =>
        -- it is replaced further back
        simp only [hrest] at ih
        simp only [Option.map_some, List.set_cons_succ, List.find?_cons, ih]
        by_cases hid : t.id = id
        · have hne : ¬ manifest.id = id := fun h => ht (hid.trans h.symm)
          simp [hid, hne]
        · simp [hid]

/-- A target is the one that was registered last under its id. -/
lemma get_foldl_register (manifests : List TargetManifest) (registry : TargetRegistry)
    (id : String) :
    (manifests.foldl register registry).get id =
      (manifests.reverse.find? (·.id = id)).or (registry.get id) := by
  induction manifests generalizing registry with
  | nil => rfl
  | cons m rest ih =>
    rw [List.foldl_cons, ih, get_register, List.reverse_cons, List.find?_append, Option.or_assoc]
    congr 1
    by_cases hid : m.id = id <;> simp [hid]

end TargetRegistry

/-- What the endpoint of a target gives to a key. -/
def endpoint (connect : TargetConnect) (key : String) : Option Value :=
  if key = "host" then some (.string connect.host)
  else if key = "port" then some (portValue connect.port)
  else none

/-- What the arguments of an attach have below a key: what the manifest has there, resolved, or
else the endpoint. -/
def targetAt (manifest : TargetManifest) (program key : String) (path : List String) :
    Option Value :=
  let ctx := TemplateContext.new env program manifest.id
  match given env ctx manifest.attach key with
  | some v => (follow path v).bind (resolveValue env ctx)
  | none => (endpoint (manifest.connect.getD defaultConnect) key).bind (follow path)

lemma lookup_fillEndpoint (connect : TargetConnect) (fields : Fields) (key : String) :
    lookupField key (fillEndpoint connect.host connect.port fields) =
      (lookupField key fields).or (endpoint connect key) := by
  rw [fillEndpoint, lookup_fillField, lookup_fillField, Option.or_assoc, endpoint]
  congr 1
  by_cases hh : key = "host"
  · rw [if_pos hh.symm, if_pos hh]
    rfl
  · rw [if_neg (Ne.symm hh), if_neg hh, Option.none_or]
    by_cases hp : key = "port"
    · rw [if_pos hp.symm, if_pos hp]
    · rw [if_neg (Ne.symm hp), if_neg hp]

variable {env : Environment}

lemma resolveRequiredString_eq_ok {template field text : String} {ctx : TemplateContext} :
    resolveRequiredString env template ctx field = .ok text ↔
      resolveString env ctx template = some text := by
  unfold resolveRequiredString
  rw [resolveValue]
  cases resolveString env ctx template with
  | none => simp [throw, throwThe, MonadExceptOf.throw, bind, Except.bind]
  | some s => simp [Value.asStr, pure, Except.pure, bind, Except.bind]

lemma forall₂_of_mapM {ctx : TemplateContext} {field : String} {templates texts : List String}
    (h : templates.mapM (fun arg => resolveRequiredString env arg ctx field) = .ok texts) :
    List.Forall₂ (fun arg text => resolveString env ctx arg = some text) templates texts := by
  induction templates generalizing texts with
  | nil =>
    obtain rfl := Except.ok.inj h
    exact .nil
  | cons arg rest ih =>
    rw [List.mapM_cons] at h
    obtain ⟨text, htext, h⟩ := except_bind_eq_ok.mp h
    obtain ⟨more, hmore, h⟩ := except_bind_eq_ok.mp h
    obtain rfl := Except.ok.inj h
    exact .cons (resolveRequiredString_eq_ok.mp htext) (ih hmore)

lemma resolveSpawn_eq_ok {spawn : TargetSpawn} {ctx : TemplateContext}
    {resolved : ResolvedTargetSpawn} (h : resolveSpawn env spawn ctx = .ok resolved) :
    resolveString env ctx spawn.command = some resolved.command ∧
      List.Forall₂ (fun arg text => resolveString env ctx arg = some text) spawn.args
        resolved.args := by
  obtain ⟨command, hcommand, h⟩ := except_bind_eq_ok.mp h
  obtain ⟨args, hargs, h⟩ := except_bind_eq_ok.mp h
  obtain rfl := Except.ok.inj h
  exact ⟨resolveRequiredString_eq_ok.mp hcommand, forall₂_of_mapM hargs⟩

/-- What a resolved target has: the endpoint of the manifest, its attach fields merged, and the
command that it starts. -/
lemma resolve_eq_ok {manifest : TargetManifest} {program : String} {target : ResolvedTarget}
    (h : resolve env manifest program = .ok target) :
    let ctx := TemplateContext.new env program manifest.id
    let connect := manifest.connect.getD defaultConnect
    target.host = connect.host ∧ target.port = connect.port ∧
      target.attachFields = mergeAttachFields env manifest.attach connect ctx ∧
      ((manifest.spawn = none ∧ target.spawn = none) ∨ ∃ spawn resolved,
        manifest.spawn = some spawn ∧ target.spawn = some resolved ∧
        resolveSpawn env spawn ctx = .ok resolved) := by
  cases hs : manifest.spawn with
  | none =>
    simp only [resolve, hs] at h
    obtain rfl := Except.ok.inj h
    exact ⟨rfl, rfl, rfl, .inl ⟨rfl, rfl⟩⟩
  | some spawn =>
    simp only [resolve, hs] at h
    obtain ⟨process, hprocess, h⟩ := except_bind_eq_ok.mp h
    obtain ⟨resolved, hresolved, rfl⟩ := map_eq_ok.mp hprocess
    obtain rfl := Except.ok.inj h
    exact ⟨rfl, rfl, rfl, .inr ⟨spawn, resolved, rfl, rfl, hresolved⟩⟩

/-- The arguments of a prepared target, key by key and below. -/
lemma attachArguments_at {manifest : TargetManifest}
    (h : ∀ v ∈ manifest.attach, Plugin.WellFormed v) {program : String} {target : ResolvedTarget}
    (ht : resolve env manifest program = .ok target) :
    ∃ fields, target.attachArguments = .object fields ∧ ∀ key path,
      follow (key :: path) (.object fields) = targetAt env manifest program key path := by
  obtain ⟨hhost, hport, hfields, -⟩ := resolve_eq_ok ht
  obtain ⟨merged, hmerged, hfollow⟩ := follow_merge env
    (.new env program manifest.id) [] h
  have hobj : (.obj [] : Value) = .object [] := rfl
  refine ⟨fillEndpoint target.host target.port
    (fillEndpoint target.host target.port merged), ?_, fun key path => ?_⟩
  · simp only [ResolvedTarget.attachArguments, hfields, mergeAttachFields, hobj, hmerged, hhost,
      hport]
  · -- the manifest's own field comes first, then the host or the port
    have hkey := hfollow key []
    have hpath := hfollow key path
    rw [hhost, hport, targetAt]
    simp only [follow, Value.get, lookupField, Option.bind_fun_some, Option.bind_none,
      Option.bind_some] at hkey hpath ⊢
    rw [lookup_fillEndpoint, lookup_fillEndpoint, Option.or_assoc, Option.or_self]
    cases hg : given env (.new env program manifest.id) manifest.attach key with
    | none =>
      -- the manifest does not say
      rw [hg] at hkey
      rw [hkey, Option.none_or]
    | some v =>
      rw [hg] at hkey hpath
      obtain ⟨w, hw⟩ := Option.isSome_iff_exists.mp (Option.filter_eq_some_iff.mp hg).2
      rw [hkey.trans hw] at hpath ⊢
      exact hpath

/-- What a client's arguments give to a key: its own fields, and arguments that are no object as
one field. -/
def clientGiven (arguments : Option Value) (key : String) : Option Value :=
  match arguments with
  | none | some .null => none
  | some (.object fields) => lookupField key fields
  | some other => if key = "extra" then some other else none

/-- Every merge with the arguments of a target ends in an object, in which the client's come
first. -/
lemma merge_lookup (arguments : Option Value) (defaults : Fields) :
    ∃ fields, mergeDefaultAttachArguments (arguments.getD (.obj [])) (.object defaults) =
        .object fields ∧
      ∀ key, lookupField key fields =
        (clientGiven arguments key).or (lookupField key defaults) := by
  -- arguments that are no object are kept under a name of their own
  have hextra : ∀ (other : Value) (key : String), lookupField key
      (insertField "extra" other defaults) =
        (if key = "extra" then some other else none).or (lookupField key defaults) := by
    intro other key
    rw [lookup_insertField]
    by_cases hkey : key = "extra"
    · rw [if_pos hkey.symm, if_pos hkey]
      rfl
    · rw [if_neg (Ne.symm hkey), if_neg hkey, Option.none_or]
  cases arguments with
  | none => exact ⟨_, rfl, fun key => lookup_foldl_fillField key defaults []⟩
  | some client =>
    cases client with
    | object fields => exact ⟨_, rfl, fun key => lookup_foldl_fillField key defaults fields⟩
    | null => exact ⟨_, rfl, fun key => rfl⟩
    | bool b => exact ⟨_, rfl, hextra (.bool b)⟩
    | number n => exact ⟨_, rfl, hextra (.number n)⟩
    | string text => exact ⟨_, rfl, hextra (.string text)⟩
    | array items => exact ⟨_, rfl, hextra (.array items)⟩

/-! ### What the bridge writes -/

/-- A message that the bridge writes of its own: an answer to the adapter, or the farewell. -/
def Own (m : Message) : Prop :=
  (∃ response, m = .response response) ∨ m = .request
    { seq := 1, command := "disconnect"
      arguments := some (.obj [("terminateDebuggee", .bool true)]) }

/-- What is written of a message that the multiplexer forwards. -/
def Written (setup : Setup) (v : Value) (m : Message) : Prop :=
  ∃ message, Message.ofValue v = some message ∧
    m = match setup.attachDefaults with
      | some defaults => mergeDebugRequestArguments message defaults
      | none => message

/-- Beside what the bridge writes of its own, the adapter is written what the multiplexer
forwards, in order; all of it while the bridge forwards. -/
structure Fed (setup : Setup) (b : Bridge) : Prop where
  fed : ∃ own passed n, Interleave own passed b.toAdapter ∧ (∀ m ∈ own, Own m) ∧
    n ≤ b.forwarded ∧ (b.forwarding → n = b.forwarded) ∧
    List.Forall₂ (Written setup) (b.session.toUpstream.sent.take n) passed
  known : b.forwarded ≤ b.session.toUpstream.sent.length

variable {setup : Setup} {b : Bridge}

lemma fed_start : Fed setup MuxBridge.start where
  fed := ⟨[], [], 0, .nil, by simp, le_refl _, fun _ => rfl, .nil⟩
  known := Nat.zero_le _

/-- A step that forwards nothing, of a bridge that may stop. -/
lemma Fed.next {t : Bridge} (h : Fed setup b)
    (hsent : b.session.toUpstream.sent <+: t.session.toUpstream.sent)
    (hforwarded : t.forwarded = b.forwarded) (hforwarding : t.forwarding → b.forwarding)
    (hwritten : t.toAdapter = b.toAdapter ∨ ∃ m, Own m ∧ t.toAdapter = b.toAdapter ++ [m]) :
    Fed setup t where
  fed := by
    obtain ⟨own, passed, n, hi, hown, hn, hall, hpassed⟩ := h.fed
    -- what was passed on is at the beginning of the channel still
    have htake : t.session.toUpstream.sent.take n = b.session.toUpstream.sent.take n := by
      have hlen := h.known
      obtain ⟨more, hmore⟩ := hsent
      rw [← hmore, List.take_append_of_le_length (by omega)]
    have hrest : n ≤ t.forwarded ∧ (t.forwarding → n = t.forwarded) := by
      rw [hforwarded]
      exact ⟨hn, fun hf => hall (hforwarding hf)⟩
    rcases hwritten with hsame | ⟨m, hm, hmore⟩
    · -- nothing is written, or a message of the bridge's own
      exact ⟨own, passed, n, hsame ▸ hi, hown, hrest.1, hrest.2, htake ▸ hpassed⟩
    · refine ⟨own ++ [m], passed, n, hmore ▸ hi.left m, fun x hx => ?_, hrest.1, hrest.2,
        htake ▸ hpassed⟩
      rcases List.mem_append.mp hx with hx | hx
      · exact hown x hx
      · exact List.mem_singleton.mp hx ▸ hm
  known := by
    have hlen := hsent.length_le
    have hknown := h.known
    omega

/-- The multiplexer's loop forgets nothing that was sent. -/
lemma sent_prefix (s : SessionLoop) (j : Session.Input) :
    s.toUpstream.sent <+: (s.step j).1.toUpstream.sent := by
  rcases toUpstream_step s j with hsame | ⟨_, _, _, -, -, hmore⟩
  · exact hsame ▸ List.prefix_rfl
  · rw [hmore]
    exact List.prefix_append _ _

lemma disconnect_written (b : Bridge) (write : Write) :
    (requestAdapterDisconnect b write).toAdapter = b.toAdapter ∨
      ∃ m, Own m ∧ (requestAdapterDisconnect b write).toAdapter = b.toAdapter ++ [m] := by
  unfold requestAdapterDisconnect
  cases write with
  | ok u => exact .inr ⟨_, .inr rfl, rfl⟩
  | error e => exact .inl rfl

lemma disconnect_frame (b : Bridge) (write : Write) :
    (requestAdapterDisconnect b write).forwarded = b.forwarded := by
  unfold requestAdapterDisconnect
  cases write <;> rfl

lemma Fed.serve (h : Fed setup b) (i : Session.Input) : Fed setup (serve b i) := by
  have hframe : (MuxBridge.serve b i).forwarded = b.forwarded ∧
      (MuxBridge.serve b i).forwarding = b.forwarding := by
    unfold MuxBridge.serve
    split <;> exact ⟨rfl, rfl⟩
  refine h.next ?_ hframe.1 (fun hf => hframe.2 ▸ hf) (.inl (toAdapter_serve b i))
  rw [session_serve]
  exact sent_prefix b.session i

lemma Fed.read (h : Fed setup b) (message : Message) (terminal : ReverseRequest.Terminal)
    (spawner : ChildSession.ChildSessionSpawner) (write : Write) :
    Fed setup (MuxBridge.read setup b message terminal spawner write) := by
  unfold MuxBridge.read
  split
  · next m n hm =>
    obtain ⟨k, hk⟩ := answered_of_answer hm
    have hown : Own m := by
      cases m with
      | response response => exact .inl ⟨response, rfl⟩
      | request request => cases hk
      | event event => cases hk
    cases write with
    | ok u => exact h.next List.prefix_rfl rfl id (.inr ⟨m, hown, rfl⟩)
    | error e => exact h.next List.prefix_rfl rfl id (.inl rfl)
  · dsimp only
    split_ifs <;> exact h.next List.prefix_rfl rfl id (.inl rfl)

lemma Fed.disconnect (h : Fed setup b) (write : Write) :
    Fed setup (stopForwarding (requestAdapterDisconnect b write)) := by
  refine h.next ?_ (disconnect_frame b write) (fun hf => ?_) (disconnect_written b write)
  · show _ <+: (requestAdapterDisconnect b write).session.toUpstream.sent
    exact session_disconnect b write ▸ List.prefix_rfl
  · cases hf

lemma Fed.forward (h : Fed setup b) (hforwarding : b.forwarding) (write : Write) :
    Fed setup (MuxBridge.forward setup b write) := by
  obtain ⟨own, passed, n, hi, hown, hn, hall, hpassed⟩ := h.fed
  have hknown := h.known
  unfold MuxBridge.forward
  split
  · next v hv =>
    have hlen : b.forwarded < b.session.toUpstream.sent.length :=
      (List.getElem?_eq_some_iff.mp hv).1
    dsimp only
    split
    · -- the message is written, and is the next of those passed on
      next message hmessage =>
      obtain rfl := hall hforwarding
      refine ⟨⟨own, passed ++ [_], b.forwarded + 1, hi.right _, hown, le_refl _, fun _ => rfl, ?_⟩,
        hlen⟩
      rw [List.take_add_one, hv]
      exact List.rel_append hpassed (.cons ⟨message, hmessage, rfl⟩ .nil)
    · -- it cannot be written or is no message: nothing is passed on any more
      refine ⟨⟨own, passed, n, hi, hown, Nat.le_succ_of_le hn, fun hf => ?_, hpassed⟩, hlen⟩
      exact Bool.noConfusion hf
  · split_ifs
    · exact h
    · exact h.disconnect write

/-- **One step** of the bridge, whichever of its loops takes it. -/
theorem fed_step (h : Fed setup b) (i : MuxBridge.Input) :
    Fed setup (MuxBridge.step setup b i) := by
  match i with
  | .adapter message terminal spawner write =>
    simp only [MuxBridge.step]
    split_ifs
    · exact h.read message terminal spawner write
    · exact h
  | .serve order =>
    simp only [MuxBridge.step]
    split
    · next value rest _ _ =>
      exact Fed.serve (b := { b with toMux := rest }) ⟨h.fed, h.known⟩ (.upstream value order)
    · exact h
  | .client op =>
    simp only [MuxBridge.step]
    split_ifs
    · exact h.serve _
    · exact h
  | .dropRecv id => exact h.serve (.dropRecv id)
  | .dropEvents id => exact h.serve (.dropEvents id)
  | .forward write =>
    simp only [MuxBridge.step]
    split_ifs with hf
    · exact h.forward hf write
    · exact h
  | .shutdown write =>
    simp only [MuxBridge.step]
    split_ifs
    · exact h.disconnect write
    · exact h
  | .muxEnds => exact ⟨h.fed, h.known⟩

/-! ### A target and the adapter -/

variable {Child : Type}

/-- The process of a prepared target: what comes of the command of its manifest, all of it
resolved. -/
def Started (env : Environment)
    (spawnRspTarget : ResolvedTargetSpawn → String → UInt16 → Except String Child)
    (manifest : TargetManifest) (program : String) (process : Option Child) : Prop :=
  let ctx := TemplateContext.new env program manifest.id
  let connect := manifest.connect.getD defaultConnect
  (manifest.spawn = none ∧ process = none) ∨
    ∃ spawn command args child, manifest.spawn = some spawn ∧ process = some child ∧
      resolveString env ctx spawn.command = some command ∧
      List.Forall₂ (fun arg text => resolveString env ctx arg = some text) spawn.args args ∧
      spawnRspTarget ⟨command, args⟩ connect.host connect.port = .ok child

/-- What the adapter gets of a message that the multiplexer forwards: the message itself, or,
where it starts debugging, with arguments in which the client's come before the target's. -/
def Passed (env : Environment) (manifest : TargetManifest) (program : String) (v : Value)
    (m : Message) : Prop :=
  ∃ message, Message.ofValue v = some message ∧
    (¬ StartsDebugging message → m = message) ∧
    (StartsDebugging message → ∃ fields, m = withArguments (some (.object fields)) message ∧
      ∀ key path, follow (key :: path) (.object fields) =
        match clientGiven (argumentsOf message) key with
        | some v => follow path v
        | none => targetAt env manifest program key path)

lemma prepareRspTarget_eq_ok
    {spawnRspTarget : ResolvedTargetSpawn → String → UInt16 → Except String Child}
    {registry : TargetRegistry} {targetId program : String} {prepared : PreparedRspTarget Child}
    (h : prepareRspTarget env spawnRspTarget registry targetId program = .ok prepared) :
    ∃ manifest target, registry.get targetId = some manifest ∧
      resolve env manifest program = .ok target ∧
      prepared.attachArguments = target.attachArguments ∧
      Started env spawnRspTarget manifest program prepared.process := by
  cases hget : registry.get targetId with
  | none =>
    simp only [prepareRspTarget, hget] at h
    cases h
  | some manifest =>
    simp only [prepareRspTarget, hget, pure_bind] at h
    obtain ⟨target, htarget, h⟩ := except_bind_eq_ok.mp h
    have htarget := mapError_eq_ok.mp htarget
    obtain ⟨hhost, hport, -, hspawn⟩ := resolve_eq_ok htarget
    refine ⟨manifest, target, rfl, htarget, ?_⟩
    rcases hspawn with ⟨hnone, htnone⟩ | ⟨spawn, resolved, hs, ht, hresolved⟩
    · -- the target is there already: nothing is started
      simp only [htnone] at h
      obtain rfl := Except.ok.inj h
      exact ⟨rfl, .inl ⟨hnone, rfl⟩⟩
    · -- the target is started with its command resolved
      simp only [ht] at h
      obtain ⟨process, hprocess, h⟩ := except_bind_eq_ok.mp h
      obtain ⟨child, hchild, rfl⟩ := map_eq_ok.mp hprocess
      obtain rfl := Except.ok.inj h
      obtain ⟨hcommand, hargs⟩ := resolveSpawn_eq_ok hresolved
      have hchild := mapError_eq_ok.mp hchild
      rw [hhost, hport] at hchild
      exact ⟨rfl, .inr ⟨spawn, resolved.command, resolved.args, child, hs, rfl, hcommand, hargs,
        hchild⟩⟩

lemma passed_of_written {manifest : TargetManifest} {program : String} {fields : Fields}
    (hat : ∀ key path,
      follow (key :: path) (.object fields) = targetAt env manifest program key path)
    {v : Value} {m : Message}
    (h : Written { setup with attachDefaults := some (.object fields) } v m) :
    Passed env manifest program v m := by
  obtain ⟨message, hmessage, rfl⟩ := h
  refine ⟨message, hmessage, fun hnot => ?_, fun hstarts => ?_⟩
  · exact mergeDebugRequestArguments_of_not hnot _
  · obtain ⟨merged, hmerged, hlookup⟩ := merge_lookup (argumentsOf message) fields
    refine ⟨merged, ?_, fun key path => ?_⟩
    · show mergeDebugRequestArguments message (.object fields) = _
      rw [mergeDebugRequestArguments_of_starts hstarts, hmerged]
    · rw [← hat, follow, follow, Value.get, Value.get, hlookup]
      cases clientGiven (argumentsOf message) key <;> rfl

/-- **The attach arguments of a target** come to the adapter. A target that is prepared is the
one that was registered last under its id, and its command runs with every placeholder resolved.
Whatever the order of steps, the bridge then writes to the adapter, beside messages of its own,
the messages that the multiplexer forwards, each once and in order, and unchanged but for the
arguments of those that start debugging: these have at every key what the client gives, or else
what the target gives. -/
theorem target_reaches_adapter
    (spawnRspTarget : ResolvedTargetSpawn → String → UInt16 → Except String Child)
    {manifests : List TargetManifest}
    (hwf : ∀ manifest ∈ manifests, ∀ v ∈ manifest.attach, Plugin.WellFormed v)
    {targetId program : String} {prepared : PreparedRspTarget Child}
    (hprepared : prepareRspTarget env spawnRspTarget
      (manifests.foldl TargetRegistry.register .new) targetId program = .ok prepared)
    (setup : Setup) (inputs : List MuxBridge.Input) :
    ∃ manifest, manifests.reverse.find? (·.id = targetId) = some manifest ∧
      Started env spawnRspTarget manifest program prepared.process ∧
      let b := inputs.foldl (MuxBridge.step
        { setup with attachDefaults := some prepared.attachArguments }) MuxBridge.start
      ∃ own passed n, Interleave own passed b.toAdapter ∧ (∀ m ∈ own, Own m) ∧
        n ≤ b.forwarded ∧ (b.forwarding → n = b.forwarded) ∧
        List.Forall₂ (Passed env manifest program) (b.session.toUpstream.sent.take n) passed := by
  obtain ⟨manifest, target, hget, htarget, hargs, hstarted⟩ := prepareRspTarget_eq_ok hprepared
  rw [TargetRegistry.get_foldl_register, TargetRegistry.new, TargetRegistry.get, List.find?_nil,
    Option.or_none] at hget
  have hmem : manifest ∈ manifests := List.mem_reverse.mp (List.mem_of_find?_eq_some hget)
  obtain ⟨fields, hfields, hat⟩ := attachArguments_at (hwf manifest hmem) htarget
  refine ⟨manifest, hget, hstarted, ?_⟩
  rw [hargs, hfields]
  -- from here on the target is the attach defaults of the bridge
  have hfed := Trace.inv_foldl
    (I := Fed { setup with attachDefaults := some (.object fields) })
    (fun _ i h => fed_step h i) fed_start inputs
  obtain ⟨own, passed, n, hi, hown, hn, hall, hpassed⟩ := hfed.fed
  exact ⟨own, passed, n, hi, hown, hn, hall, hpassed.imp fun _ _ h => passed_of_written hat h⟩

/-- A program that is debugged through a server which is started for it. -/
def gdbserver : TargetManifest where
  id := "gdbserver"
  name := "GDB Server"
  version := "0.1.0"
  targetTypes := ["gdb-remote"]
  description := none
  spawn := some ⟨"gdbserver", [":1234", "$\x7bprogram.abs\x7d"]⟩
  connect := none
  attach := some (.obj [("decompiler", .string "auto")])
  init := none
  sourcePath := none

/-- The editor asks the adapter to attach. -/
def attaching : List MuxBridge.Input :=
  [.client (.attach .editor),
    .client (.clientSend ⟨1⟩ (Message.request ⟨1, "attach", none⟩).toValue), .forward (.ok ())]

theorem target_reaches_adapter_attaching :
    let env : Environment :=
      { canonicalize := fun path => some ("/" ++ path), var := fun _ => none }
    ∃ prepared : PreparedRspTarget String,
      prepareRspTarget env (fun spawn _ _ => .ok (" ".intercalate (spawn.command :: spawn.args)))
        ([gdbserver].foldl TargetRegistry.register .new) "gdbserver" "a.out" = .ok prepared ∧
      prepared.process = some "gdbserver :1234 /a.out" ∧
      ∃ own m, Interleave own [m] (attaching.foldl (MuxBridge.step
        { child := none, pluginContext := false, attachDefaults := some prepared.attachArguments,
          toText := fun _ => "" }) MuxBridge.start).toAdapter ∧
        ∃ v, Passed env gdbserver "a.out" v m := by
  intro env
  have hprepared : prepareRspTarget env
      (fun spawn _ _ => .ok (" ".intercalate (spawn.command :: spawn.args)))
      ([gdbserver].foldl TargetRegistry.register .new) "gdbserver" "a.out" = .ok _ := rfl
  have hwf : ∀ manifest ∈ [gdbserver], ∀ v ∈ manifest.attach, Plugin.WellFormed v := by
    intro manifest hmanifest v hv
    obtain rfl := List.mem_singleton.mp hmanifest
    obtain rfl := Option.some.inj hv
    refine .object (by decide) fun f hf => ?_
    exact List.mem_singleton.mp hf ▸ .string _
  obtain ⟨manifest, hfind, -, own, passed, n, hi, -, -, hall, hpassed⟩ :=
    target_reaches_adapter _ hwf hprepared ⟨none, false, none, fun _ => ""⟩ attaching
  obtain rfl : n = 1 := hall rfl
  obtain rfl : gdbserver = manifest := Option.some.inj hfind
  obtain ⟨m, rfl⟩ := List.length_eq_one_iff.mp (hpassed.length_eq.symm.trans rfl)
  obtain ⟨v, -, hv, -⟩ := List.forall₂_cons_right_iff.mp hpassed
  exact ⟨_, hprepared, rfl, own, m, hi, v, hv⟩

end DappyCore.Targets
