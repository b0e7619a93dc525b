import DappyCore.Lib.HashMap
import DappyCore.Json

/-!
The breakpoints of a session as the multiplexer tracks them, from `setBreakpoints` requests,
their responses, and the adapter's `breakpoint` events.
-/

namespace DappyCore.Breakpoints

open Lib Json

structure SourceBreakpointSpec where
  line : ℤ
  condition : Option String
  hitCondition : Option String
  logMessage : Option String
  deriving DecidableEq

structure ExceptionBreakpointSpec where
  filter : String
  condition : Option String
  deriving DecidableEq

structure PendingSetBreakpoints where
  sourcePath : String
  specs : List SourceBreakpointSpec
  deriving DecidableEq

/-- Editor and adapter breakpoint state for late-joining control clients. An id is bound to
a path and a position in its list. -/
structure BreakpointTracker where
  sourceBreakpoints : HashMap String (List SourceBreakpointSpec)
  exceptionBreakpoints : List ExceptionBreakpointSpec
  pendingSetBreakpoints : HashMap ℤ PendingSetBreakpoints
  breakpointIds : HashMap ℤ (String × ℕ)

/-- `value.get(key).and_then(Value::as_str).map(str::to_string)`. -/
def strField (value : Value) (key : String) : Option String := (value.get key).bind Value.asStr

/-- `value.get(key).and_then(Value::as_i64)`. -/
def intField (value : Value) (key : String) : Option ℤ := (value.get key).bind Value.asI64

/-- `value.get("source").and_then(|s| s.get("path")).and_then(Value::as_str)`. -/
def sourcePath (value : Value) : Option String :=
  ((value.get "source").bind fun source => source.get "path").bind Value.asStr

def parseSourceBreakpoint (value : Value) : Option SourceBreakpointSpec :=
  (intField value "line").map fun line =>
    { line
      condition := strField value "condition"
      hitCondition := strField value "hitCondition"
      logMessage := strField value "logMessage" }

/-- What one entry of the response makes of the request's entry at the same position. -/
def mergeBreakpoint (bp : Value) (request : Option SourceBreakpointSpec) :
    Option SourceBreakpointSpec :=
  if (bp.get "verified").bind Value.asBool = some false then none
  else
    ((intField bp "line").or (request.map (·.line))).map fun line =>
      { line
        condition := (strField bp "condition").or (request.bind (·.condition))
        hitCondition := (strField bp "hitCondition").or (request.bind (·.hitCondition))
        logMessage := (strField bp "logMessage").or (request.bind (·.logMessage)) }

def mergeBreakpoints (response : List Value) (requestSpecs : List SourceBreakpointSpec) :
    List SourceBreakpointSpec :=
  if response.isEmpty then requestSpecs
  else response.zipIdx.filterMap fun (bp, index) => mergeBreakpoint bp requestSpecs[index]?

def bpSourcePath (bp : Value) : String := (sourcePath bp).getD ""

/-- `arguments.source.path` of a `setBreakpoints` request. -/
def requestSourcePath (message : Value) : String :=
  ((((message.get "arguments").bind Value.asObject).bind (lookupField "source")).bind
    fun source => (source.get "path").bind Value.asStr).getD ""

/-- The entries of `arguments.breakpoints` that parse. -/
def requestSpecs (message : Value) : List SourceBreakpointSpec :=
  ((((message.get "arguments").bind Value.asObject).bind (lookupField "breakpoints")).bind
    Value.asArray).elim [] fun items => items.filterMap parseSourceBreakpoint

/-- `body.breakpoints` of a response. -/
def responseBreakpoints (message : Value) : Option (List Value) :=
  ((message.get "body").bind fun body => body.get "breakpoints").bind Value.asArray

/-- The path of the first response breakpoint if it has one, else the requested path. -/
def resolvedPath (items : Option (List Value)) (requested : String) : String :=
  (((items.bind List.head?).bind sourcePath).filter (· ≠ "")).getD requested

/-- What a successful response leaves of the requested specs. -/
def resolvedSpecs (items : Option (List Value)) (specs : List SourceBreakpointSpec) :
    List SourceBreakpointSpec :=
  items.elim specs fun items => mergeBreakpoints items specs

/-- The request a response answers; here `request_seq` goes before `requestSeq`. -/
def answeredSeq (message : Value) : ℤ :=
  (((message.get "request_seq").or (message.get "requestSeq")).bind Value.asI64).getD 0

def isSuccess (message : Value) : Bool := (message.get "success").bind Value.asBool = some true

namespace BreakpointTracker

def empty : BreakpointTracker := ⟨∅, [], ∅, ∅⟩

def trackSetBreakpointsRequest (t : BreakpointTracker) (backendSeq : ℤ) (message : Value) :
    BreakpointTracker :=
  { t with
    pendingSetBreakpoints := t.pendingSetBreakpoints.insert backendSeq
      ⟨requestSourcePath message, requestSpecs message⟩ }

def rebuildSourceBreakpoints (t : BreakpointTracker) (path : String)
    (specs : List SourceBreakpointSpec) : BreakpointTracker :=
  { t with
    breakpointIds := t.breakpointIds.retain fun _ stored => stored.1 ≠ path
    sourceBreakpoints :=
      if specs.isEmpty then t.sourceBreakpoints.erase path
      else t.sourceBreakpoints.insert path specs }

def observeSetBreakpointsResponse (t : BreakpointTracker) (message : Value) :
    BreakpointTracker :=
  if ¬ isSuccess message then t
  else
    match t.pendingSetBreakpoints.lookup (answeredSeq message) with
    | none => t
    | some pending =>
      let items := responseBreakpoints message
      { t with
        pendingSetBreakpoints := t.pendingSetBreakpoints.erase (answeredSeq message) }
        |>.rebuildSourceBreakpoints (resolvedPath items pending.sourcePath)
          (resolvedSpecs items pending.specs)

/-- `None` where the source returns without storing anything. -/
def newSpec (bp : Value) : Option SourceBreakpointSpec :=
  if bpSourcePath bp = "" then none
  else
    ((intField bp "line").filter (0 ≤ ·)).map fun line =>
      { line
        condition := strField bp "condition"
        hitCondition := strField bp "hitCondition"
        logMessage := strField bp "logMessage" }

def applyNewBreakpoint (t : BreakpointTracker) (bp : Value) : BreakpointTracker :=
  match newSpec bp with
  | none => t
  | some spec =>
    let path := bpSourcePath bp
    let entries := (t.sourceBreakpoints.lookup path).getD []
    let id := intField bp "id"
    -- the position is that of the id, the list that of the event's own path
    match (id.bind fun bpId => t.breakpointIds.lookup bpId).filter
        (fun stored => stored.2 < entries.length) with
    | some (_, index) =>
      { t with sourceBreakpoints := t.sourceBreakpoints.insert path (entries.set index spec) }
    | none =>
      { t with
        sourceBreakpoints := t.sourceBreakpoints.insert path (entries ++ [spec])
        breakpointIds := id.elim t.breakpointIds fun bpId =>
          t.breakpointIds.insert bpId (path, entries.length) }

/-- The fields a `changed` event carries, written over those of the entry. -/
def changeSpec (bp : Value) (spec : SourceBreakpointSpec) : SourceBreakpointSpec :=
  { line := (intField bp "line").getD spec.line
    condition := if (bp.get "condition").isSome then strField bp "condition" else spec.condition
    hitCondition :=
      if (bp.get "hitCondition").isSome then strField bp "hitCondition" else spec.hitCondition
    logMessage :=
      if (bp.get "logMessage").isSome then strField bp "logMessage" else spec.logMessage }

/-- The list and position an id is bound to, if the list is there and long enough. -/
def boundEntry (t : BreakpointTracker) (id : Option ℤ) :
    Option (String × ℕ × List SourceBreakpointSpec) :=
  (id.bind fun bpId => t.breakpointIds.lookup bpId).bind fun (path, index) =>
    ((t.sourceBreakpoints.lookup path).filter (index < ·.length)).map fun entries =>
      (path, index, entries)

def applyChangedBreakpoint (t : BreakpointTracker) (bp : Value) : BreakpointTracker :=
  match t.boundEntry (intField bp "id") with
  | some (path, index, entries) =>
    { t with
      sourceBreakpoints := t.sourceBreakpoints.insert path (entries.modify index (changeSpec bp)) }
  | none => t.applyNewBreakpoint bp

def applyRemovedBreakpoint (t : BreakpointTracker) (bp : Value) : BreakpointTracker :=
  match intField bp "id" with
  | none => t
  | some bpId =>
    match t.breakpointIds.lookup bpId with
    | none => t
    | some (path, index) =>
      { t with
        sourceBreakpoints :=
          match t.sourceBreakpoints.lookup path with
          | none => t.sourceBreakpoints
          | some entries =>
            let rest := if index < entries.length then entries.eraseIdx index else entries
            if rest.isEmpty then t.sourceBreakpoints.erase path
            else t.sourceBreakpoints.insert path rest
        breakpointIds := HashMap.mapValues
          (fun stored =>
            if stored.1 = path ∧ index < stored.2 then (stored.1, stored.2 - 1) else stored)
          (t.breakpointIds.erase bpId) }

def observeBreakpointEvent (t : BreakpointTracker) (message : Value) : BreakpointTracker :=
  let body := (message.get "body").bind Value.asObject
  let reason := (body.bind (lookupField "reason")).bind Value.asStr
  match body.bind (lookupField "breakpoint") with
  | none => t
  | some bp =>
    match reason with
    | some "new" => t.applyNewBreakpoint bp
    | some "changed" => t.applyChangedBreakpoint bp
    | some "removed" => t.applyRemovedBreakpoint bp
    | _ => t

def trackSetExceptionBreakpointsRequest (t : BreakpointTracker) (message : Value) :
    BreakpointTracker :=
  let arguments := (message.get "arguments").bind Value.asObject
  let filters := ((arguments.bind (lookupField "filters")).bind Value.asArray).elim []
    fun items => items.filterMap Value.asStr
  let filterOptions := (arguments.bind (lookupField "filterOptions")).bind Value.asArray
  { t with
    exceptionBreakpoints := filters.map fun filter =>
      { filter
        condition := filterOptions.bind fun options => options.findSome? fun option =>
          if strField option "filterId" = some filter then strField option "condition"
          else none } }

def specJson (spec : SourceBreakpointSpec) : Value :=
  .obj [("line", .int spec.line), ("condition", .ofOption (spec.condition.map .string)),
    ("hit_condition", .ofOption (spec.hitCondition.map .string)),
    ("log_message", .ofOption (spec.logMessage.map .string))]

def exceptionJson (entry : ExceptionBreakpointSpec) : Value :=
  .obj [("filter", .string entry.filter),
    ("condition", .ofOption (entry.condition.map .string))]

def snapshot (t : BreakpointTracker) : Value :=
  .obj [
    ("breakpoints", .obj (t.sourceBreakpoints.entries.map fun e =>
      (e.1, .array (e.2.map specJson)))),
    ("exception_breakpoints", .array (t.exceptionBreakpoints.map exceptionJson))]

/-- The snapshot shows the entries of every path that has any. -/
theorem snapshot_breakpoints (t : BreakpointTracker) (path : String) :
    (t.snapshot.get "breakpoints").bind (·.get path) =
      (t.sourceBreakpoints.lookup path).map fun specs => .array (specs.map specJson) := by
  have hget : t.snapshot.get "breakpoints" = some (.obj (t.sourceBreakpoints.entries.map fun e =>
      (e.1, .array (e.2.map specJson)))) := by
    simp [snapshot, Value.obj, Value.get, lookup_insertField]
  have hnd : ((t.sourceBreakpoints.entries.map fun e =>
      ((e.1, .array (e.2.map specJson)) : String × Value)).map (·.1)).Nodup := by
    have h := t.sourceBreakpoints.nodupKeys
    simpa [List.NodupKeys, List.keys, Function.comp_def] using h
  rw [hget, Option.bind_some, Value.get_obj hnd, AList.lookup]
  generalize t.sourceBreakpoints.entries = entries
  induction entries with
  | nil => rfl
  | cons e rest ih =>
    obtain ⟨k, specs⟩ := e
    by_cases h : k = path
    · subst h
      simp [lookupField]
    · have h' : path ≠ k := fun e => h e.symm
      rw [List.dlookup_cons_ne _ _ h']
      simpa [lookupField, h] using ih

end BreakpointTracker

end DappyCore.Breakpoints
