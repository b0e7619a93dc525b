import DappyCore.Lib.HashMap
import Mathlib.Data.Int.Notation

/-!
The registry of managed instances: lifecycle states, what is known of an instance, and the
operations on the map of instances. Each holds the map's lock throughout, so each is one
function from the map before to the map after.
-/

namespace DappyCore.Instances

open Lib

/-- Lifecycle state of a managed instance. -/
inductive InstanceState | pending | starting | running | stopping | stopped | failed
  deriving DecidableEq

namespace InstanceState

def canTransitionTo (s next : InstanceState) : Bool :=
  match s, next with
  | pending, starting
  | starting, running
  | starting, failed
  | running, stopping
  | running, failed
  | stopping, stopped
  | stopping, failed
  | stopped, starting
  | failed, starting => true
  | _, _ => false

def label : InstanceState → String
  | pending => "pending"
  | starting => "starting"
  | running => "running"
  | stopping => "stopping"
  | stopped => "stopped"
  | failed => "failed"

/-- There is one way to start running. -/
lemma canTransitionTo_running {s : InstanceState} : s.canTransitionTo running ↔ s = starting := by
  cases s <;> simp [canTransitionTo]

end InstanceState

/-- Opaque identifier for a managed instance. -/
structure InstanceId where
  value : String
  deriving DecidableEq

/-- Metadata supplied when registering a new instance. -/
structure InstanceSpec where
  id : InstanceId
  kind : String
  label : Option String
  scope : Option String
  controlPort : Option UInt16
  parentId : Option InstanceId
  pid : Option UInt32
  tags : HashMap String String
  createdAtUnix : ℤ

structure InstanceHandle where
  spec : InstanceSpec
  state : InstanceState

/-- What the system says of processes and ports. -/
structure Oracle where
  isPidAlive : UInt32 → Bool
  isControlPortInUse : UInt16 → Bool

/-- Whether the owning process and control port (when set) still look alive. -/
def InstanceHandle.isAlive (o : Oracle) (handle : InstanceHandle) : Bool :=
  match handle.state with
  | .stopped | .failed => false
  | _ => handle.spec.pid.all o.isPidAlive && handle.spec.controlPort.all o.isControlPortInUse

inductive InstanceError
  | notFound (id : String)
  | alreadyExists (id : String)
  | invalidTransition (source target : String)
  | other (text : String)

namespace InstanceSpec

/-- A new spec, with the id that is generated for it and the time of day. -/
def new (generated : InstanceId) (now : ℤ) (kind : String) : InstanceSpec where
  id := generated
  kind := kind
  label := none
  scope := none
  controlPort := none
  parentId := none
  pid := none
  tags := ∅
  createdAtUnix := now

def withId (spec : InstanceSpec) (id : InstanceId) : InstanceSpec := { spec with id }
def withLabel (spec : InstanceSpec) (label : String) : InstanceSpec := { spec with label }
def withScope (spec : InstanceSpec) (scope : String) : InstanceSpec := { spec with scope }
def withControlPort (spec : InstanceSpec) (port : UInt16) : InstanceSpec :=
  { spec with controlPort := port }
def withParentId (spec : InstanceSpec) (parent : InstanceId) : InstanceSpec :=
  { spec with parentId := parent }
def withPid (spec : InstanceSpec) (pid : UInt32) : InstanceSpec := { spec with pid }
def withTag (spec : InstanceSpec) (key value : String) : InstanceSpec :=
  { spec with tags := spec.tags.insert key value }

end InstanceSpec

/-- The registry: the map that the manager's lock guards. -/
abbrev InstanceManager := HashMap InstanceId InstanceHandle

namespace InstanceManager

/-- Register a new instance in `Pending` state. -/
def register (m : InstanceManager) (spec : InstanceSpec) :
    InstanceManager × Except InstanceError InstanceId :=
  match m.lookup spec.id with
  | some _ => (m, .error (.alreadyExists spec.id.value))
  | none => (AList.insert spec.id ⟨spec, .pending⟩ m, .ok spec.id)

def get (m : InstanceManager) (id : InstanceId) : Except InstanceError InstanceHandle :=
  match m.lookup id with
  | some handle => .ok handle
  | none => .error (.notFound id.value)

def setState (m : InstanceManager) (id : InstanceId) (next : InstanceState) :
    InstanceManager × Except InstanceError InstanceHandle :=
  match m.lookup id with
  | none => (m, .error (.notFound id.value))
  | some handle =>
    if handle.state.canTransitionTo next then
      (AList.insert id { handle with state := next } m, .ok { handle with state := next })
    else (m, .error (.invalidTransition handle.state.label next.label))

/-- The handles in the order in which the map is walked, optionally filtered by scope. -/
def list (m : InstanceManager) (order : HashMap.Order InstanceId InstanceHandle)
    (scope : Option String) : List InstanceHandle :=
  ((order.visit m).map (·.2)).filter fun handle =>
    match scope with
    | some s => handle.spec.scope = some s
    | none => true

def remove (m : InstanceManager) (id : InstanceId) :
    InstanceManager × Except InstanceError InstanceHandle :=
  match m.lookup id with
  | some handle => (m.erase id, .ok handle)
  | none => (m, .error (.notFound id.value))

/-- `map.get_mut(id)`, and a field of the spec set. -/
def setField (m : InstanceManager) (id : InstanceId) (change : InstanceSpec → InstanceSpec) :
    InstanceManager × Except InstanceError InstanceHandle :=
  match m.lookup id with
  | none => (m, .error (.notFound id.value))
  | some handle =>
    (AList.insert id { handle with spec := change handle.spec } m,
      .ok { handle with spec := change handle.spec })

def setControlPort (m : InstanceManager) (id : InstanceId) (port : UInt16) :
    InstanceManager × Except InstanceError InstanceHandle :=
  m.setField id (·.withControlPort port)

def setPid (m : InstanceManager) (id : InstanceId) (pid : UInt32) :
    InstanceManager × Except InstanceError InstanceHandle :=
  m.setField id (·.withPid pid)

variable {m : InstanceManager}

lemma register_new {spec : InstanceSpec} (h : m.lookup spec.id = none) :
    register m spec = (AList.insert spec.id ⟨spec, .pending⟩ m, .ok spec.id) := by
  simp [register, h]

lemma register_taken {spec : InstanceSpec} {handle : InstanceHandle}
    (h : m.lookup spec.id = some handle) :
    register m spec = (m, .error (.alreadyExists spec.id.value)) := by
  simp [register, h]

lemma setState_rejected {id : InstanceId} {handle : InstanceHandle} {next : InstanceState}
    (h : m.lookup id = some handle) (hn : ¬ handle.state.canTransitionTo next) :
    setState m id next = (m, .error (.invalidTransition handle.state.label next.label)) := by
  simp [setState, h, hn]

/-- **A registered instance never starts running at once.** -/
theorem running_rejected {spec : InstanceSpec} (h : m.lookup spec.id = none) :
    setState (register m spec).1 spec.id .running =
      ((register m spec).1, .error (.invalidTransition "pending" "running")) := by
  have hl : (register m spec).1.lookup spec.id = some ⟨spec, .pending⟩ := by
    rw [register_new h, AList.lookup_insert]
  have hn : ¬ InstanceState.pending.canTransitionTo .running := by
    rw [InstanceState.canTransitionTo_running]
    exact InstanceState.noConfusion
  exact setState_rejected hl hn

/-! ### What an operation does to one entry -/

variable {id id' : InstanceId}

lemma lookup_register (spec : InstanceSpec) :
    (m.register spec).1.lookup id = if id = spec.id then
      some ((m.lookup id).getD ⟨spec, .pending⟩) else m.lookup id := by
  unfold register
  cases h : m.lookup spec.id with
  | some handle =>
    split_ifs with e
    · rw [e, h]
      rfl
    · rfl
  | none =>
    rw [HashMap.lookup_insert_of]
    split_ifs with e
    · rw [e, h]
      rfl
    · rfl

/-- To change an entry that is not there changes nothing. -/
lemma ite_map_of_none {f : InstanceHandle → InstanceHandle} (h : m.lookup id' = none) :
    (if id = id' then (m.lookup id).map f else m.lookup id) = m.lookup id := by
  split_ifs with e
  · rw [e, h]
    rfl
  · rfl

lemma lookup_setState (next : InstanceState) :
    (m.setState id' next).1.lookup id = if id = id' then
      (m.lookup id).map fun handle =>
        if handle.state.canTransitionTo next then { handle with state := next } else handle
      else m.lookup id := by
  unfold setState
  cases h : m.lookup id' with
  | none => exact (ite_map_of_none h).symm
  | some handle =>
    dsimp only
    by_cases hn : handle.state.canTransitionTo next
    · rw [if_pos hn, HashMap.lookup_insert_of]
      split_ifs with e
      · rw [e, h, Option.map_some, if_pos hn]
      · rfl
    · rw [if_neg hn]
      split_ifs with e
      · rw [e, h, Option.map_some, if_neg hn]
      · rfl

lemma lookup_setField (change : InstanceSpec → InstanceSpec) :
    (m.setField id' change).1.lookup id = if id = id' then
      (m.lookup id).map fun handle => { handle with spec := change handle.spec }
      else m.lookup id := by
  unfold setField
  cases h : m.lookup id' with
  | none => exact (ite_map_of_none h).symm
  | some handle =>
    rw [HashMap.lookup_insert_of]
    split_ifs with e
    · rw [e, h]
      rfl
    · rfl

lemma lookup_remove :
    (m.remove id').1.lookup id = if id = id' then none else m.lookup id := by
  unfold remove
  cases h : m.lookup id' with
  | some handle => rw [HashMap.lookup_erase_of]
  | none =>
    split_ifs with e
    · rw [e, h]
    · rfl

/-- Every handle is under its own id. -/
def Keyed (m : InstanceManager) : Prop :=
  ∀ id handle, m.lookup id = some handle → handle.spec.id = id

end InstanceManager

/-! ### The calls of other tasks -/

/-- A call that another clone of the manager may make. -/
inductive Call
  | register (spec : InstanceSpec)
  | setState (id : InstanceId) (next : InstanceState)
  | setPid (id : InstanceId) (pid : UInt32)
  | setControlPort (id : InstanceId) (port : UInt16)
  | remove (id : InstanceId)

namespace Call

/-- The instance it is about. -/
def target : Call → InstanceId
  | register spec => spec.id
  | setState id _ | setPid id _ | setControlPort id _ | remove id => id

/-- The map it leaves. -/
def apply (m : InstanceManager) : Call → InstanceManager
  | register spec => (m.register spec).1
  | setState id next => (m.setState id next).1
  | setPid id pid => (m.setPid id pid).1
  | setControlPort id port => (m.setControlPort id port).1
  | remove id => (m.remove id).1

/-- What it makes of the entry of its instance. -/
def effect : Call → Option InstanceHandle → Option InstanceHandle
  | register spec, entry => some (entry.getD ⟨spec, .pending⟩)
  | setState _ next, entry => entry.map fun handle =>
    if handle.state.canTransitionTo next then { handle with state := next } else handle
  | setPid _ pid, entry => entry.map fun handle => { handle with spec := handle.spec.withPid pid }
  | setControlPort _ port, entry => entry.map fun handle =>
    { handle with spec := handle.spec.withControlPort port }
  | remove _, _ => none

/-- **One call** changes the entry of its instance and no other. -/
theorem lookup_apply (m : InstanceManager) (call : Call) (id : InstanceId) :
    (call.apply m).lookup id =
      if id = call.target then call.effect (m.lookup id) else m.lookup id := by
  cases call with
  | register spec => exact InstanceManager.lookup_register spec
  | setState _ next => exact InstanceManager.lookup_setState next
  | setPid _ pid => exact InstanceManager.lookup_setField _
  | setControlPort _ port => exact InstanceManager.lookup_setField _
  | remove _ => exact InstanceManager.lookup_remove

lemma keyed_apply {m : InstanceManager} (h : m.Keyed) (call : Call) : (call.apply m).Keyed := by
  intro id handle hl
  rw [lookup_apply] at hl
  split_ifs at hl with e
  · cases call with
    | register spec =>
      simp only [effect, Option.some.injEq] at hl
      cases hm : m.lookup id with
      | none =>
        rw [hm, Option.getD_none] at hl
        rw [← hl, e]
        rfl
      | some old =>
        rw [hm, Option.getD_some] at hl
        exact hl ▸ h id old hm
    | remove _ => cases hl
    | setState _ next =>
      obtain ⟨old, hm, rfl⟩ := Option.map_eq_some_iff.mp hl
      split_ifs <;> exact h id old hm
    | setPid _ pid =>
      obtain ⟨old, hm, rfl⟩ := Option.map_eq_some_iff.mp hl
      exact h id old hm
    | setControlPort _ port =>
      obtain ⟨old, hm, rfl⟩ := Option.map_eq_some_iff.mp hl
      exact h id old hm
  · exact h id handle hl

end Call

end DappyCore.Instances
