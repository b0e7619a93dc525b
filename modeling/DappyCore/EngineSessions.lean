import DappyCore.Engine
import DappyCore.Import
import DappyCore.Pruning

/-!
Sessions that the engine starts, each with one call of the registry of instances after another,
while other tasks make their calls and stale instances are pruned: what becomes of a session
depends on its own steps only.
-/

namespace DappyCore.Engine

open Lib Lib.Trace Instances Pruning Import

/-! ### The calls of a session -/

/-- What a session is started with: the launch, the id and the time of its instance, and the port
that it comes to listen on. -/
structure Start where
  launch : Gateway.LaunchOptions
  generated : InstanceId
  now : ℤ
  port : UInt16

/-- Handle to a debug session tracked by the engine. -/
structure SessionHandle where
  instanceId : InstanceId
  adapterId : String
  controlPort : Option UInt16

inductive EngineError
  | noAdapter
  | instance (error : InstanceError)

/-- What a session has done: the two calls of `prepare_session`, the two of `mark_running`, and
`set_control_port`. -/
inductive Stage
  | begun
  | registered (handle : SessionHandle)
  | prepared (handle : SessionHandle)
  | withPid (handle : SessionHandle)
  | running (handle : SessionHandle)
  | listening (handle : SessionHandle)
  | failed (error : EngineError)

/-- The spec that is registered for a session. -/
def specOf (start : Start) (adapterId : String) : InstanceSpec :=
  let spec := (InstanceSpec.new start.generated start.now "dap-session").withTag "adapter" adapterId
  match start.launch.program with
  | some label => spec.withLabel label
  | none => spec

variable (engine : DapEngine) (pid : UInt32)

/-- The next call of a session. A call that fails ends it. -/
def advance (start : Start) (m : InstanceManager) : Stage → InstanceManager × Stage
  | .begun =>
    match engine.route start.launch with
    | none => (m, .failed .noAdapter)
    | some route =>
      match m.register (specOf start route.adapterId) with
      | (m, .ok instanceId) => (m, .registered ⟨instanceId, route.adapterId, none⟩)
      | (m, .error e) => (m, .failed (.instance e))
  | .registered handle => call (m.setState handle.instanceId .starting) (.prepared handle)
  | .prepared handle => call (m.setPid handle.instanceId pid) (.withPid handle)
  | .withPid handle => call (m.setState handle.instanceId .running) (.running handle)
  | .running handle => call (m.setControlPort handle.instanceId start.port)
      (.listening { handle with controlPort := some start.port })
  | .listening handle => (m, .listening handle)
  | .failed e => (m, .failed e)
where
  call (result : InstanceManager × Except InstanceError InstanceHandle) (next : Stage) :
      InstanceManager × Stage :=
    match result with
    | (m, .ok _) => (m, next)
    | (m, .error e) => (m, .failed (.instance e))

/-! ### Among other tasks -/

/-- The registry, the stages of the sessions, and what the calls of `prune_stale` have still to
remove. -/
structure Tasks where
  map : InstanceManager
  stage : ℕ → Stage
  stale : List InstanceId

/-- A session makes its next call, another clone of the registry makes a call, a call of
`prune_stale` lists what is stale, or one removes an instance. -/
inductive Move
  | session (n : ℕ)
  | other (call : Call)
  | list (order : HashMap.Order InstanceId InstanceHandle)
  | remove (n : ℕ)

variable (o : Oracle) (starts : List Start)

namespace Tasks

def start (m : InstanceManager) : Tasks where
  map := m
  stage := fun _ => .begun
  stale := []

def step (s : Tasks) : Move → Tasks
  | .session n =>
    match starts[n]? with
    | some start =>
      let (map, stage) := advance engine pid start s.map (s.stage n)
      { s with map, stage := Function.update s.stage n stage }
    | none => s
  | .other call => { s with map := call.apply s.map }
  | .list order => { s with stale := s.stale ++ staleIds o order s.map }
  | .remove n =>
    match s.stale[n]? with
    | some id => { s with map := (s.map.remove id).1, stale := s.stale.eraseIdx n }
    | none => s

end Tasks

/-! ### What a session comes to -/

/-- The stage that a session comes to with its next call. -/
def next (start : Start) : Stage → Stage
  | .begun =>
    match engine.route start.launch with
    | none => .failed .noAdapter
    | some route => .registered ⟨start.generated, route.adapterId, none⟩
  | .registered handle => .prepared handle
  | .prepared handle => .withPid handle
  | .withPid handle => .running handle
  | .running handle => .listening { handle with controlPort := some start.port }
  | .listening handle => .listening handle
  | .failed e => .failed e

/-- The instance that a session has in the registry. -/
def instanceOf (start : Start) : Stage → Option InstanceHandle
  | .begun | .failed _ => none
  | .registered handle => some ⟨specOf start handle.adapterId, .pending⟩
  | .prepared handle => some ⟨specOf start handle.adapterId, .starting⟩
  | .withPid handle => some ⟨(specOf start handle.adapterId).withPid pid, .starting⟩
  | .running handle => some ⟨(specOf start handle.adapterId).withPid pid, .running⟩
  | .listening handle =>
    some ⟨((specOf start handle.adapterId).withPid pid).withControlPort start.port, .running⟩

/-- The handle of a session is for its own instance. -/
def HandleOf (start : Start) : Stage → Prop
  | .begun | .failed _ => True
  | .registered handle | .prepared handle | .withPid handle | .running handle
  | .listening handle => handle.instanceId = start.generated

variable {engine pid o starts} {start : Start} {m : InstanceManager} {s : Tasks}

@[simp] lemma id_specOf (start : Start) (adapterId : String) :
    (specOf start adapterId).id = start.generated := by
  unfold specOf
  cases start.launch.program <;> rfl

@[simp] lemma pid_specOf (start : Start) (adapterId : String) :
    (specOf start adapterId).pid = none := by
  unfold specOf
  cases start.launch.program <;> rfl

@[simp] lemma controlPort_specOf (start : Start) (adapterId : String) :
    (specOf start adapterId).controlPort = none := by
  unfold specOf
  cases start.launch.program <;> rfl

lemma setState_of_lookup {key : InstanceId} {handle : InstanceHandle}
    (h : m.lookup key = some handle) (state : InstanceState)
    (hn : handle.state.canTransitionTo state) :
    m.setState key state =
      (AList.insert key { handle with state } m, .ok { handle with state }) := by
  simp only [InstanceManager.setState, h, hn, if_true]

lemma setField_of_lookup {key : InstanceId} {handle : InstanceHandle}
    (h : m.lookup key = some handle) (change : InstanceSpec → InstanceSpec) :
    m.setField key change =
      (AList.insert key { handle with spec := change handle.spec } m,
        .ok { handle with spec := change handle.spec }) := by
  simp only [InstanceManager.setField, h]

/-- A call that changes nothing leaves the instance of the session, and the others. -/
lemma lookup_kept {key : InstanceId} {found : Option InstanceHandle} (h : m.lookup key = found)
    (id : InstanceId) : m.lookup id = if id = key then found else m.lookup id := by
  split_ifs with hid
  · rw [hid, h]
  · rfl

/-- **A call of a session** whose instance is as it left it goes through. -/
lemma advance_eq (engine : DapEngine) {stage : Stage} (hhandle : HandleOf start stage)
    (h : m.lookup start.generated = instanceOf pid start stage) :
    (advance engine pid start m stage).2 = next engine start stage ∧
      HandleOf start (next engine start stage) ∧
      ∀ id, (advance engine pid start m stage).1.lookup id =
        if id = start.generated then instanceOf pid start (next engine start stage)
        else m.lookup id := by
  cases stage with
  | begun =>
    cases hroute : engine.route start.launch with
    | none =>
      simp only [advance, next, hroute, instanceOf]
      exact ⟨trivial, trivial, lookup_kept h⟩
    | some route =>
      -- the id is free, so that the instance is registered
      have hnew : m.register (specOf start route.adapterId) =
          (AList.insert start.generated ⟨specOf start route.adapterId, .pending⟩ m,
            .ok start.generated) := by
        have hl : m.lookup (specOf start route.adapterId).id = none := id_specOf start _ ▸ h
        rw [InstanceManager.register_new hl, id_specOf]
      simp only [advance, next, hroute, hnew, instanceOf]
      exact ⟨trivial, rfl, fun id => HashMap.lookup_insert_of⟩
  | registered handle =>
    obtain ⟨_, adapterId, port⟩ := handle
    obtain rfl := hhandle
    simp only [advance, advance.call, setState_of_lookup h .starting rfl]
    exact ⟨rfl, rfl, fun id => HashMap.lookup_insert_of⟩
  | prepared handle =>
    obtain ⟨_, adapterId, port⟩ := handle
    obtain rfl := hhandle
    simp only [advance, advance.call, InstanceManager.setPid, setField_of_lookup h]
    exact ⟨rfl, rfl, fun id => HashMap.lookup_insert_of⟩
  | withPid handle =>
    obtain ⟨_, adapterId, port⟩ := handle
    obtain rfl := hhandle
    simp only [advance, advance.call, setState_of_lookup h .running rfl]
    exact ⟨rfl, rfl, fun id => HashMap.lookup_insert_of⟩
  | running handle =>
    obtain ⟨_, adapterId, port⟩ := handle
    obtain rfl := hhandle
    simp only [advance, advance.call, InstanceManager.setControlPort, setField_of_lookup h]
    exact ⟨rfl, rfl, fun id => HashMap.lookup_insert_of⟩
  | listening handle =>
    exact ⟨rfl, hhandle, lookup_kept h⟩
  | failed e =>
    exact ⟨rfl, trivial, lookup_kept h⟩

lemma id_of_instanceOf {stage : Stage} {handle : InstanceHandle}
    (h : instanceOf pid start stage = some handle) : handle.spec.id = start.generated := by
  cases stage with
  | begun | failed e => cases h
  | registered session | prepared session | withPid session | running session
  | listening session =>
    obtain rfl := Option.some.inj h
    exact id_specOf start _

/-- **A session's instance** looks alive at every stage. -/
lemma alive_of_instanceOf (hpid : o.isPidAlive pid) (hport : o.isControlPortInUse start.port)
    {stage : Stage} {handle : InstanceHandle} (h : instanceOf pid start stage = some handle) :
    handle.isAlive o := by
  cases stage with
  | begun | failed e => cases h
  | registered session | prepared session =>
    obtain rfl := Option.some.inj h
    simp [InstanceHandle.isAlive]
  | withPid session | running session =>
    obtain rfl := Option.some.inj h
    simp [InstanceHandle.isAlive, InstanceSpec.withPid, hpid]
  | listening session =>
    obtain rfl := Option.some.inj h
    simp [InstanceHandle.isAlive, InstanceSpec.withPid, InstanceSpec.withControlPort, hpid, hport]

/-! ### Runs -/

/-- What the sessions rely on: no two have one id, the process is alive, and the port that a
session listens on is in use. -/
structure Sound (pid : UInt32) (o : Oracle) (starts : List Start) : Prop where
  distinct : (starts.map (·.generated)).Nodup
  pidAlive : o.isPidAlive pid
  portsInUse : ∀ start ∈ starts, o.isControlPortInUse start.port

/-- No other task makes a call about the instance of a session. -/
def Spares (starts : List Start) : Move → Prop
  | .other call => ∀ start ∈ starts, call.target ≠ start.generated
  | .session _ | .list _ | .remove _ => True

/-- The registry has of every session what its stage says, and no call of `prune_stale` is to
remove one. -/
structure Kept (pid : UInt32) (starts : List Start) (s : Tasks) : Prop where
  keyed : s.map.Keyed
  handles : ∀ n start, starts[n]? = some start → HandleOf start (s.stage n)
  entries : ∀ n start, starts[n]? = some start →
    s.map.lookup start.generated = instanceOf pid start (s.stage n)
  spared : ∀ start ∈ starts, start.generated ∉ s.stale

lemma kept_start (hm : m.Keyed) (h : ∀ start ∈ starts, m.lookup start.generated = none) :
    Kept pid starts (.start m) where
  keyed := hm
  handles _ _ _ := trivial
  entries _ start hn := h start (List.mem_of_getElem? hn)
  spared _ _ := List.not_mem_nil

lemma Kept.session (engine : DapEngine) (h : Kept pid starts s) (hs : Sound pid o starts) {n : ℕ}
    (hn : starts[n]? = some start) :
    Kept pid starts (s.step engine pid o starts (.session n)) ∧
      (s.step engine pid o starts (.session n)).stage =
        Function.update s.stage n (next engine start (s.stage n)) := by
  obtain ⟨hstage, hhandle, hlookup⟩ := advance_eq engine (h.handles n start hn)
    (h.entries n start hn)
  simp only [Tasks.step, hn, hstage]
  refine ⟨⟨fun id handle hl => ?_, fun k other hk => ?_, fun k other hk => ?_, h.spared⟩, trivial⟩
  · rw [hlookup] at hl
    split_ifs at hl with hid
    · rw [hid, id_of_instanceOf hl]
    · exact h.keyed id handle hl
  · dsimp only
    by_cases hkn : k = n
    · subst hkn
      obtain rfl : start = other := Option.some.inj (hn.symm.trans hk)
      rw [Function.update_self]
      exact hhandle
    · rw [Function.update_of_ne hkn]
      exact h.handles k other hk
  · dsimp only
    rw [hlookup]
    by_cases hkn : k = n
    · subst hkn
      obtain rfl : start = other := Option.some.inj (hn.symm.trans hk)
      rw [if_pos rfl, Function.update_self]
    · -- another session has another id
      have hne : other.generated ≠ start.generated := by
        intro he
        have hk' : (starts.map (·.generated))[k]? = some other.generated := by
          rw [List.getElem?_map, hk]; rfl
        have hn' : (starts.map (·.generated))[n]? = some other.generated := by
          rw [List.getElem?_map, hn, he]; rfl
        have hlt := (List.getElem?_eq_some_iff.mp hk').1
        exact hkn ((List.getElem?_inj hlt hs.distinct).mp (hk'.trans hn'.symm))
      rw [if_neg hne, Function.update_of_ne hkn]
      exact h.entries k other hk

lemma Kept.other (h : Kept pid starts s) {call : Call}
    (hcall : ∀ start ∈ starts, call.target ≠ start.generated) :
    Kept pid starts (s.step engine pid o starts (.other call)) where
  keyed := Call.keyed_apply h.keyed call
  handles := h.handles
  entries n start hn := by
    show (call.apply s.map).lookup start.generated = _
    rw [Call.lookup_apply, if_neg (Ne.symm (hcall start (List.mem_of_getElem? hn)))]
    exact h.entries n start hn
  spared := h.spared

/-- What is listed as stale is none of the sessions' instances. -/
lemma Kept.list (h : Kept pid starts s) (hs : Sound pid o starts)
    (order : HashMap.Order InstanceId InstanceHandle) :
    Kept pid starts (s.step engine pid o starts (.list order)) where
  keyed := h.keyed
  handles := h.handles
  entries := h.entries
  spared start hstart hstale := by
    rcases List.mem_append.mp hstale with hstale | hstale
    · exact h.spared start hstart hstale
    · obtain ⟨n, hn⟩ := List.mem_iff_getElem?.mp hstart
      have hdead := dead_of_mem_staleIds h.keyed hstale
      obtain ⟨handle, hmem, hid⟩ := List.mem_map.mp hstale
      obtain ⟨hlist, hnot⟩ := List.mem_filter.mp hmem
      obtain ⟨⟨key, handle'⟩, hvisit, rfl⟩ := List.mem_map.mp (List.mem_filter.mp hlist).1
      have hl : s.map.lookup key = some handle' := order.mem_visit.mp hvisit
      have hkey : key = start.generated := (h.keyed key handle' hl).symm.trans hid
      rw [hkey] at hl
      refine hdead ⟨handle', hl, ?_⟩
      exact alive_of_instanceOf hs.pidAlive (hs.portsInUse start hstart)
        ((h.entries n start hn).symm.trans hl)

lemma Kept.remove (h : Kept pid starts s) (k : ℕ) :
    Kept pid starts (s.step engine pid o starts (.remove k)) := by
  simp only [Tasks.step]
  cases hk : s.stale[k]? with
  | none => exact h
  | some id =>
    refine ⟨fun id' handle hl => ?_, h.handles, fun n start hn => ?_, fun start hstart hmem => ?_⟩
    · rw [InstanceManager.lookup_remove] at hl
      split_ifs at hl
      exact h.keyed id' handle hl
    · have hne : start.generated ≠ id := fun he =>
        h.spared start (List.mem_of_getElem? hn) (he ▸ List.mem_of_getElem? hk)
      rw [InstanceManager.lookup_remove, if_neg hne]
      exact h.entries n start hn
    · exact h.spared start hstart (List.mem_of_mem_eraseIdx hmem)

/-- A call of this session. -/
def Move.isOf (n : ℕ) : Move → Bool
  | .session k => k = n
  | .other _ | .list _ | .remove _ => false

/-- The stage that a session comes to with so many calls. -/
def stageAfter (engine : DapEngine) (start : Start) : ℕ → Stage
  | 0 => .begun
  | calls + 1 => next engine start (stageAfter engine start calls)

/-- **A run** brings each session to the stage that the number of its own calls says. -/
lemma kept_run (engine : DapEngine) (hs : Sound pid o starts) (hm : m.Keyed)
    (hfree : ∀ start ∈ starts, m.lookup start.generated = none) (moves : List Move)
    (hspares : ∀ move ∈ moves, Spares starts move) :
    Kept pid starts (moves.foldl (Tasks.step engine pid o starts) (.start m)) ∧
      ∀ n start, starts[n]? = some start →
        (moves.foldl (Tasks.step engine pid o starts) (.start m)).stage n =
          stageAfter engine start (moves.countP (Move.isOf n)) := by
  induction moves using List.reverseRecOn with
  | nil => exact ⟨kept_start hm hfree, fun _ _ _ => rfl⟩
  | append_singleton moves move ih =>
    obtain ⟨hkept, hstage⟩ := ih fun i hi => hspares i (List.mem_append_left _ hi)
    have hmove := hspares move (by simp)
    rw [List.foldl_append, List.foldl_cons, List.foldl_nil]
    simp only [List.countP_append, List.countP_singleton]
    cases move with
    | session k =>
      cases hk : starts[k]? with
      | none =>
        simp only [Tasks.step, hk]
        refine ⟨hkept, fun n start hn => ?_⟩
        -- there is no such session
        have hne : k ≠ n := fun he => by simp [he, hn] at hk
        simp [Move.isOf, hne, hstage n start hn]
      | some other =>
        obtain ⟨hkept', hstage'⟩ := hkept.session engine hs hk
        refine ⟨hkept', fun n start hn => ?_⟩
        rw [hstage']
        by_cases hne : n = k
        · subst hne
          obtain rfl : other = start := Option.some.inj (hk.symm.trans hn)
          simp [Move.isOf, hstage n other hn, stageAfter]
        · rw [Function.update_of_ne hne]
          simp [Move.isOf, Ne.symm hne, hstage n start hn]
    | other call => exact ⟨hkept.other hmove, fun n start hn => hstage n start hn⟩
    | list order => exact ⟨hkept.list hs order, fun n start hn => hstage n start hn⟩
    | remove k =>
      refine ⟨hkept.remove k, fun n start hn => ?_⟩
      -- a removal is no call of any session
      have hsame : ∀ s : Tasks, (s.step engine pid o starts (.remove k)).stage = s.stage := by
        intro s
        simp only [Tasks.step]
        cases s.stale[k]? <;> rfl
      rw [hsame]
      exact hstage n start hn

/-- The handle and the record of a session that was routed to an adapter. -/
def handleOf (start : Start) (adapterId : String) : SessionHandle :=
  ⟨start.generated, adapterId, some start.port⟩

def recordOf (pid : UInt32) (start : Start) (adapterId : String) : SessionRecord where
  instanceId := start.generated.value
  pid := pid
  controlPort := start.port
  adapterId := adapterId
  program := start.launch.program
  scope := none
  parentId := none
  startedAtUnix := start.now

lemma stageAfter_listening {route : Loader.RouteMatch}
    (hroute : engine.route start.launch = some route) (calls : ℕ) :
    stageAfter engine start (calls + 5) = .listening (handleOf start route.adapterId) := by
  induction calls with
  | zero => simp [stageAfter, next, hroute, handleOf]
  | succ calls ih =>
    rw [Nat.succ_add, stageAfter, ih]
    rfl

lemma record_of_listening (adapterId : String) :
    (instanceOf pid start (.listening (handleOf start adapterId))).bind sessionRecordFromHandle =
      some (recordOf pid start adapterId) := by
  have htag : (specOf start adapterId).tags.lookup "adapter" = some adapterId := by
    unfold specOf
    cases start.launch.program <;> exact AList.lookup_insert _
  have htag' : (((specOf start adapterId).withPid pid).withControlPort start.port).tags.lookup
      "adapter" = some adapterId := htag
  simp only [instanceOf, handleOf, Option.bind_some, sessionRecordFromHandle, htag']
  unfold specOf
  cases hprogram : start.launch.program <;> simp [recordOf, hprogram, InstanceSpec.new,
    InstanceSpec.withTag, InstanceSpec.withLabel, InstanceSpec.withPid,
    InstanceSpec.withControlPort]

/-- **Sessions** do not disturb each other, and nothing else disturbs them. Whatever the order in
which sessions and other tasks make their calls and stale instances are pruned, no call of a
session fails and none of their instances is removed: a session comes to the stage that the number
of its own calls says, its instance is what that stage says, and after its five calls it is
exported as the record of its own launch, adapter, process and port. -/
theorem sessions_undisturbed (engine : DapEngine) (hs : Sound pid o starts) (hm : m.Keyed)
    (hfree : ∀ start ∈ starts, m.lookup start.generated = none) (moves : List Move)
    (hspares : ∀ move ∈ moves, Spares starts move) {n : ℕ} (hn : starts[n]? = some start) :
    let s := moves.foldl (Tasks.step engine pid o starts) (.start m)
    let calls := moves.countP (Move.isOf n)
    s.stage n = stageAfter engine start calls ∧
      s.map.lookup start.generated = instanceOf pid start (stageAfter engine start calls) ∧
      (5 ≤ calls → ∀ route ∈ engine.route start.launch,
        s.stage n = .listening (handleOf start route.adapterId) ∧
          (s.map.lookup start.generated).bind sessionRecordFromHandle =
            some (recordOf pid start route.adapterId)) := by
  obtain ⟨hkept, hstage⟩ := kept_run engine hs hm hfree moves hspares
  have hentry := hkept.entries n start hn
  have hown := hstage n start hn
  rw [hown] at hentry
  refine ⟨hown, hentry, fun hcalls route hroute => ?_⟩
  obtain ⟨more, hmore⟩ := Nat.exists_eq_add_of_le' hcalls
  rw [hmore, stageAfter_listening hroute] at hentry hown
  exact ⟨hown, by rw [hentry, record_of_listening]⟩

/-- An engine with one plugin. -/
def pythonEngine : DapEngine :=
  { DapEngine.new with
    registry := .register .new
      { id := "python", name := "Python", version := "0.1.0", languages := ["python"]
        launchTypes := ["python"], fileExtensions := ["py"], initializeSpec := none
        launch := none, init := none
        adapter := { transport := .stdio, command := "python3", args := [] }
        attachment := none, sourcePath := none } }

/-- Two launches of one program. -/
def twoStarts : List Start :=
  [⟨⟨some "main.py", some "python", .null⟩, ⟨"first"⟩, 1, 4001⟩,
    ⟨⟨some "main.py", some "python", .null⟩, ⟨"second"⟩, 2, 4002⟩]

/-- Both start while an instance of another task, whose process is gone, is pruned. -/
def twoStarting : List Move :=
  [.session 0, .other (.register ((InstanceSpec.new ⟨"other"⟩ 0 "dap-session").withPid 7)),
    .session 1, .session 0, .list .listed, .session 0, .session 1, .session 0, .remove 0,
    .session 0, .list .listed, .session 1]

theorem sessions_undisturbed_twoStarting :
    ((twoStarting.foldl (Tasks.step pythonEngine 100 ⟨fun pid => pid = 100, fun _ => true⟩
        twoStarts) (.start ∅)).map.lookup ⟨"first"⟩).bind sessionRecordFromHandle =
      some ⟨"first", 100, 4001, "python", some "main.py", none, none, 1⟩ := by
  have hsound : Sound 100 ⟨fun pid => pid = 100, fun _ => true⟩ twoStarts :=
    ⟨by decide, rfl, fun _ _ => rfl⟩
  have hkeyed : InstanceManager.Keyed (∅ : InstanceManager) := by
    intro id handle h
    rw [AList.lookup_empty] at h
    cases h
  have hspares : ∀ move ∈ twoStarting, Spares twoStarts move := by
    intro move hmove
    cases move with
    | other call =>
      have hcall : call.target = ⟨"other"⟩ := by
        simp only [twoStarting, List.mem_cons, reduceCtorEq, false_or, or_false,
          List.not_mem_nil, Move.other.injEq] at hmove
        rw [hmove]
        rfl
      intro start hstart he
      rw [hcall] at he
      simp only [twoStarts, List.mem_cons, List.not_mem_nil, or_false] at hstart
      rcases hstart with rfl | rfl
      · exact absurd he (by decide)
      · exact absurd he (by decide)
    | session n | list order | remove n => trivial
  obtain ⟨-, -, hrecord⟩ := sessions_undisturbed pythonEngine hsound hkeyed
    (fun _ _ => AList.lookup_empty _) twoStarting hspares (n := 0) rfl
  exact (hrecord (by decide) _ rfl).2

end DappyCore.Engine
