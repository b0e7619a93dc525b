import DappyCore.BreakpointTable
import DappyCore.Cache
import DappyCore.TypedRequests

/-!
The breakpoints that a control client sets, against those that the snapshot shows: the client
writes them into a request, the tracker reads them out of it, and puts them together with the
adapter's answer.
-/

namespace DappyCore.BreakpointRoundTrip

open Lib Lib.Effect Json Protocol Transport MuxMessage Breakpoints BreakpointTracker Cache Control

/-! ### What is sent -/

/-- The messages that a call of the client writes. -/
def sentBy {α : Type} (call : Client α) (client : ControlClient) : List Message :=
  (stateOf (call client)).written.drop client.written.length

lemma written_responseBody (message : Message) (client : ControlClient) :
    (stateOf (responseBody message client)).written = client.written := by
  cases message <;> rfl

lemma written_awaited {fits : Message → Bool} {stop : Ended ProtocolError → Stop}
    (client : ControlClient) :
    (stateOf ((skipUntil fits stop >>= fun message => responseBody message.1) client)).written =
      client.written := by
  unfold skipUntil waitOn
  rw [bind_assoc, bind_of_ok (onInbox_apply ..)]
  cases (Inbox.skip fits client.inbox).1 with
  | error e => rfl
  | ok message => exact written_responseBody message.1 _

/-- **A typed request** writes the one request that it is. -/
theorem sentBy_requestBody (command : String) (arguments : Option Value)
    (client : ControlClient) :
    sentBy (requestBody command arguments) client =
      match client.accepts client.seq with
      | .ok () => [.request { seq := client.seq, command, arguments }]
      | .error _ => [] := by
  unfold sentBy requestBody dapRequest
  rw [bind_assoc]
  cases ha : client.accepts client.seq with
  | error e =>
    rw [bind_of_error (sendDapRequest_error ha command arguments)]
    simp
  | ok _ =>
    rw [bind_of_ok (sendDapRequest_ok ha command arguments), written_awaited]
    simp [ControlClient.sent]

/-! ### What the cache sees -/

/-- The messages of a session that the cache is shown. -/
inductive Seen
  | clientRequest (backendSeq : ℤ) (message : Value)
  | response (message : Value)
  | event (message : Value)

def see (cache : LateJoinCache) : Seen → LateJoinCache
  | .clientRequest backendSeq message => cache.observeClientRequest backendSeq message
  | .response message => cache.observeResponse message
  | .event message => cache.observe message

/-- What the tracker takes of it. -/
def inputOf : Seen → Option Input
  | .clientRequest backendSeq message =>
    match command message with
    | some "setBreakpoints" => some (.setRequest backendSeq message)
    | some "setExceptionBreakpoints" => some (.exceptionRequest message)
    | _ => none
  | .response message => if messageKind message = .response then some (.response message) else none
  | .event message =>
    if messageKind message = .event ∧ eventName message = some "breakpoint" then
      some (.event message)
    else none

lemma breakpoints_see (cache : LateJoinCache) (seen : Seen) :
    (see cache seen).breakpoints =
      (inputOf seen).elim cache.breakpoints cache.breakpoints.step := by
  cases seen with
  | clientRequest backendSeq message =>
    simp only [see, LateJoinCache.observeClientRequest, inputOf]
    split <;> simp_all [step]
  | response message =>
    simp only [see, LateJoinCache.observeResponse, inputOf]
    by_cases hk : messageKind message = .response
    · simp [hk, step]
    · simp [hk]
  | event message =>
    simp only [see, LateJoinCache.observe, inputOf]
    by_cases hk : messageKind message = .event
    · -- of the events the tracker is shown those about breakpoints
      simp only [hk, ne_eq, not_true_eq_false, if_false, true_and]
      split
      · simp_all
      · simp_all
      · simp_all [step]
      · simp_all
    · simp [hk]

/-- It is about the request under the sequence number. -/
def Concerns (backendSeq : ℤ) : Seen → Prop
  | .clientRequest seq _ => seq = backendSeq
  | .response message => answeredSeq message = backendSeq
  | .event _ => False

/-- What is not about a request leaves it waiting. -/
lemma pending_see {cache : LateJoinCache} {seen : Seen} {backendSeq : ℤ}
    (h : ¬ Concerns backendSeq seen) :
    (see cache seen).breakpoints.pendingSetBreakpoints.lookup backendSeq =
      cache.breakpoints.pendingSetBreakpoints.lookup backendSeq := by
  rw [breakpoints_see]
  cases seen with
  | clientRequest seq message =>
    have hne : ¬ backendSeq = seq := fun e => h e.symm
    simp only [inputOf]
    split <;> simp [pending_step, hne]
  | response message =>
    have hne : ¬ backendSeq = answeredSeq message := fun e => h e.symm
    simp only [inputOf]
    split_ifs <;> simp [pending_step, hne]
  | event message =>
    simp only [inputOf]
    split_ifs <;> simp [pending_step]

lemma pending_foldl {between : List Seen} {backendSeq : ℤ}
    (h : ∀ seen ∈ between, ¬ Concerns backendSeq seen) (cache : LateJoinCache) :
    (between.foldl see cache).breakpoints.pendingSetBreakpoints.lookup backendSeq =
      cache.breakpoints.pendingSetBreakpoints.lookup backendSeq := by
  induction between generalizing cache with
  | nil => rfl
  | cons seen between ih =>
    obtain ⟨hseen, hrest⟩ := List.forall_mem_cons.mp h
    rw [List.foldl_cons, ih hrest, pending_see hseen]

/-! ### Source breakpoints -/

/-- A breakpoint as the snapshot is to show it. -/
def shown (bp : Control.SourceBreakpointSpec) : Value :=
  .obj [("line", .int bp.line), ("condition", .ofOption (bp.condition.map .string)),
    ("hit_condition", .ofOption (bp.hitCondition.map .string)),
    ("log_message", .ofOption (bp.logMessage.map .string))]

/-- The adapter's answer for a breakpoint that it sets where it was asked to. -/
def verifiedAt (bp : Control.SourceBreakpointSpec) : Value :=
  .obj [("verified", .bool true), ("line", .int bp.line)]

/-- What the tracker makes of a breakpoint of the client. -/
def tracked (bp : Control.SourceBreakpointSpec) : Breakpoints.SourceBreakpointSpec :=
  ⟨bp.line, bp.condition, bp.hitCondition, bp.logMessage⟩

/-- **One breakpoint** is read as it was written. -/
theorem parse_toValue (bp : Control.SourceBreakpointSpec) :
    parseSourceBreakpoint bp.toValue = some (tracked bp) := by
  rcases bp with ⟨line, condition, hitCondition, logMessage⟩
  cases condition <;> cases hitCondition <;> cases logMessage <;>
    simp [Control.SourceBreakpointSpec.toValue, withSome, parseSourceBreakpoint, intField, strField,
      Value.obj, Value.set, Value.get, lookup_insertField, lookupField, Value.asI64, Value.asStr,
      tracked]

/-- The answer adds nothing to what was asked for. -/
lemma merge_verifiedAt (bp : Control.SourceBreakpointSpec) :
    mergeBreakpoint (verifiedAt bp) (some (tracked bp)) = some (tracked bp) := by
  simp [mergeBreakpoint, verifiedAt, tracked, intField, strField, Value.obj, Value.get,
    lookup_insertField, lookupField, Value.asI64, Value.asBool]

lemma mergeBreakpoints_verifiedAt (bps : List Control.SourceBreakpointSpec) :
    mergeBreakpoints (bps.map verifiedAt) (bps.map tracked) = bps.map tracked := by
  unfold mergeBreakpoints
  split_ifs with h
  · rfl
  · have hall : (bps.map verifiedAt).zipIdx.map
        (fun entry => mergeBreakpoint entry.1 (bps.map tracked)[entry.2]?) =
          (bps.map tracked).map some := by
      refine List.ext_getElem (by simp) fun i hi hi' => ?_
      have hlt : i < bps.length := by simpa using hi'
      simp [hlt, merge_verifiedAt]
    calc _ = ((bps.map verifiedAt).zipIdx.map fun entry =>
          mergeBreakpoint entry.1 (bps.map tracked)[entry.2]?).filterMap id := by
          rw [List.filterMap_map]
          rfl
      _ = bps.map tracked := by
          rw [hall]
          simp [List.filterMap_map]

lemma arguments_sent (seq backendSeq : ℤ) (name : String) (arguments : Value) :
    (setSeq (Message.request { seq, command := name, arguments := some arguments }).toValue
      backendSeq).get "arguments" = some arguments := by
  rw [get_setSeq_of_ne (by decide)]
  simp [Message.toValue, Value.obj, Value.get, lookup_insertField, Value.ofOption]

lemma command_sent (seq backendSeq : ℤ) (name : String) (arguments : Option Value) :
    command (setSeq (Message.request { seq, command := name, arguments }).toValue backendSeq) =
      some name := by
  rw [command_setSeq]
  simp [command, Message.toValue, Value.obj, Value.get, lookup_insertField, Value.asStr]

/-- The arguments of `set_breakpoints`. -/
def setArguments (source : String) (bps : List Control.SourceBreakpointSpec) : Value :=
  .obj [("source", .obj [("path", .string source)]),
    ("breakpoints", .array (bps.map Control.SourceBreakpointSpec.toValue))]

lemma requestSourcePath_of_arguments {message : Value} {source : String}
    {bps : List Control.SourceBreakpointSpec}
    (h : message.get "arguments" = some (setArguments source bps)) :
    requestSourcePath message = source := by
  unfold requestSourcePath
  rw [h]
  simp [setArguments, Value.obj, Value.asObject, Value.get, lookup_insertField, Value.asStr]

lemma requestSpecs_of_arguments {message : Value} {source : String}
    {bps : List Control.SourceBreakpointSpec}
    (h : message.get "arguments" = some (setArguments source bps)) :
    requestSpecs message = bps.map tracked := by
  unfold requestSpecs
  rw [h]
  simp [setArguments, Value.obj, Value.asObject, lookup_insertField, Value.asArray,
    List.filterMap_map, parse_toValue]

lemma resolvedPath_verifiedAt (bps : List Control.SourceBreakpointSpec) (source : String) :
    resolvedPath (some (bps.map verifiedAt)) source = source := by
  cases bps with
  | nil => rfl
  | cons bp bps =>
    simp [resolvedPath, sourcePath, verifiedAt, Value.obj, Value.get, lookup_insertField,
      lookupField]

/-- **A set of breakpoints**, once it is answered, is what the tracker has for the path. -/
theorem lookup_answered {t : BreakpointTracker} {backendSeq : ℤ} {source : String}
    {bps : List Control.SourceBreakpointSpec} {answer : Value}
    (hp : t.pendingSetBreakpoints.lookup backendSeq = some ⟨source, bps.map tracked⟩)
    (hs : isSuccess answer) (hseq : answeredSeq answer = backendSeq)
    (hbps : responseBreakpoints answer = some (bps.map verifiedAt)) :
    (t.observeSetBreakpointsResponse answer).sourceBreakpoints.lookup source =
      if bps = [] then none else some (bps.map tracked) := by
  have hstores : t.stores answer = some (source, bps.map tracked) := by
    unfold stores
    rw [if_pos hs, hseq, hp, Option.map_some, hbps, resolvedPath_verifiedAt, resolvedSpecs,
      Option.elim_some, mergeBreakpoints_verifiedAt]
  obtain ⟨-, -, hmap⟩ := observe_of_stores hstores
  rw [hmap]
  simp only [rebuildSourceBreakpoints, List.isEmpty_iff, List.map_eq_nil_iff]
  split_ifs
  · exact AList.lookup_erase _ _
  · exact AList.lookup_insert _

/-! ### Exception breakpoints -/

/-- An exception breakpoint as the snapshot is to show it. -/
def shownException (bp : Control.ExceptionBreakpointSpec) : Value :=
  .obj [("filter", .string bp.filter), ("condition", .ofOption (bp.condition.map .string))]

/-- The condition that the tracker reads for a filter. -/
def conditionFor (filter : String) (options : List Value) : Option String :=
  options.findSome? fun option =>
    if strField option "filterId" = some filter then strField option "condition" else none

lemma conditionFor_of_notMem {filter : String} {bps : List Control.ExceptionBreakpointSpec}
    (h : filter ∉ bps.map (·.filter)) : conditionFor filter (filterOptions bps) = none := by
  rw [conditionFor, List.findSome?_eq_none_iff]
  intro option hoption
  obtain ⟨bp, hbp, hsome⟩ := List.mem_filterMap.mp hoption
  obtain ⟨condition, -, rfl⟩ := Option.map_eq_some_iff.mp hsome
  have hne : bp.filter ≠ filter := fun e => h (e ▸ List.mem_map_of_mem hbp)
  simp [strField, Value.obj, Value.get, lookup_insertField, Value.asStr, hne]

/-- **One condition** is found under its own filter, where no two have one filter. -/
theorem conditionFor_filterOptions {bps : List Control.ExceptionBreakpointSpec}
    (hnd : (bps.map (·.filter)).Nodup) {bp : Control.ExceptionBreakpointSpec} (h : bp ∈ bps) :
    conditionFor bp.filter (filterOptions bps) = bp.condition := by
  induction bps with
  | nil => cases h
  | cons first rest ih =>
    obtain ⟨hfirst, hrest⟩ : first.filter ∉ rest.map (·.filter) ∧ (rest.map (·.filter)).Nodup :=
      List.nodup_cons.mp hnd
    rcases List.mem_cons.mp h with rfl | h
    · cases hc : bp.condition with
      | none =>
        -- its own filter has no option, and no later one has its name
        have hskip : filterOptions (bp :: rest) = filterOptions rest := by simp [filterOptions, hc]
        rw [hskip, conditionFor_of_notMem hfirst]
      | some condition =>
        simp [conditionFor, filterOptions, hc, strField, Value.obj, Value.get, lookup_insertField,
          Value.asStr]
    · -- the first is another filter's
      have hne : first.filter ≠ bp.filter := by
        intro e
        rw [e] at hfirst
        exact hfirst (List.mem_map_of_mem h)
      cases hc : first.condition with
      | none =>
        have hskip : filterOptions (first :: rest) = filterOptions rest := by
          simp [filterOptions, hc]
        rw [hskip]
        exact ih hrest h
      | some condition =>
        have hskip : conditionFor bp.filter (filterOptions (first :: rest)) =
            conditionFor bp.filter (filterOptions rest) := by
          simp [conditionFor, filterOptions, hc, strField, Value.obj, Value.get,
            lookup_insertField, Value.asStr, hne]
        rw [hskip]
        exact ih hrest h

/-- The arguments of `set_exception_breakpoints`, with filter options supported. -/
def exceptionArguments (bps : List Control.ExceptionBreakpointSpec) : Value :=
  if true ∧ filterOptions bps ≠ [] then
    (Value.obj [("filters", .array (bps.map fun bp => .string bp.filter))]).set "filterOptions"
      (.array (filterOptions bps))
  else .obj [("filters", .array (bps.map fun bp => .string bp.filter))]

lemma filters_exceptionArguments (bps : List Control.ExceptionBreakpointSpec) :
    ((exceptionArguments bps).asObject.bind (lookupField "filters")).bind Value.asArray =
      some (bps.map fun bp => .string bp.filter) := by
  unfold exceptionArguments
  split_ifs <;> simp [Value.obj, Value.set, Value.asObject, lookup_insertField, Value.asArray]

lemma options_exceptionArguments (bps : List Control.ExceptionBreakpointSpec) :
    ((exceptionArguments bps).asObject.bind (lookupField "filterOptions")).bind Value.asArray =
      if filterOptions bps = [] then none else some (filterOptions bps) := by
  unfold exceptionArguments
  by_cases hnil : filterOptions bps = []
  · simp [hnil, Value.obj, Value.asObject, lookup_insertField, lookupField]
  · simp [hnil, Value.obj, Value.set, Value.asObject, lookup_insertField, Value.asArray]

/-- **Exception breakpoints** are read as they were written. -/
theorem exceptions_of_arguments {t : BreakpointTracker} {message : Value}
    {bps : List Control.ExceptionBreakpointSpec} (hnd : (bps.map (·.filter)).Nodup)
    (h : message.get "arguments" = some (exceptionArguments bps)) :
    (t.trackSetExceptionBreakpointsRequest message).exceptionBreakpoints =
      bps.map fun bp => ⟨bp.filter, bp.condition⟩ := by
  have hfilters : (bps.map fun bp => Value.string bp.filter).filterMap Value.asStr =
      bps.map (·.filter) := by
    simp [List.filterMap_map, Function.comp_def, Value.asStr]
  unfold trackSetExceptionBreakpointsRequest
  simp only [h, Option.bind_some, filters_exceptionArguments, options_exceptionArguments,
    Option.elim_some, hfilters, List.map_map]
  refine List.map_congr_left fun bp hbp => ?_
  have hcondition := conditionFor_filterOptions hnd hbp
  split_ifs with hnil
  · rw [hnil] at hcondition
    rw [← hcondition]
    simp [conditionFor]
  · rw [← hcondition]
    rfl

lemma snapshot_exceptions (t : BreakpointTracker) :
    t.snapshot.get "exception_breakpoints" =
      some (.array (t.exceptionBreakpoints.map exceptionJson)) := by
  simp [snapshot, Value.obj, Value.get, lookup_insertField]

/-! ### The round trip -/

lemma eq_request {command : String} {arguments : Option Value} {client : ControlClient}
    {request : Message} (h : sentBy (requestBody command arguments) client = [request]) :
    request = .request { seq := client.seq, command, arguments } := by
  rw [sentBy_requestBody] at h
  split at h
  · exact (List.cons.inj h).1.symm
  · cases h

/-- A request of a control client as it is sent upstream. -/
def forwarded (request : Message) (backendSeq : ℤ) : Seen :=
  .clientRequest backendSeq (setSeq request.toValue backendSeq)

/-- The request waits with what the client set. -/
lemma pending_sent {client : ControlClient} {source : String}
    {bps : List Control.SourceBreakpointSpec} {request : Message}
    (h : sentBy (setBreakpoints source bps) client = [request]) (cache : LateJoinCache)
    (backendSeq : ℤ) :
    (see cache (forwarded request backendSeq)).breakpoints.pendingSetBreakpoints.lookup
      backendSeq = some ⟨source, bps.map tracked⟩ := by
  have hrequest : request = .request
      ⟨client.seq, "setBreakpoints", some (setArguments source bps)⟩ := eq_request h
  have harguments := arguments_sent client.seq backendSeq "setBreakpoints" (setArguments source bps)
  rw [hrequest, breakpoints_see]
  simp only [forwarded, inputOf, command_sent, Option.elim_some, pending_step, if_true,
    requestSourcePath_of_arguments harguments, requestSpecs_of_arguments harguments]

/-- **What a client sets is what the snapshot shows.** Between the request and its answer the
cache may see anything that is not about that request. -/
theorem snapshot_shows_what_is_set (cache : LateJoinCache) (client : ControlClient)
    (backendSeq : ℤ) (request : Message) :
    (∀ (source : String) (bps : List Control.SourceBreakpointSpec) (between : List Seen)
        (answer : Value),
      sentBy (setBreakpoints source bps) client = [request] →
      (∀ seen ∈ between, ¬ Concerns backendSeq seen) →
      messageKind answer = .response → isSuccess answer → answeredSeq answer = backendSeq →
      responseBreakpoints answer = some (bps.map verifiedAt) →
      let after :=
        (forwarded request backendSeq :: between ++ [Seen.response answer]).foldl see cache
      (after.breakpointSnapshot.get "breakpoints").bind (·.get source) =
        if bps = [] then none else some (.array (bps.map shown))) ∧
      ∀ bps : List Control.ExceptionBreakpointSpec, (bps.map (·.filter)).Nodup →
        sentBy (setExceptionBreakpoints bps true) client = [request] →
        (see cache (forwarded request backendSeq)).breakpointSnapshot.get
          "exception_breakpoints" = some (.array (bps.map shownException)) := by
  constructor
  · -- the request waits until its answer comes, which stores what it asked for
    intro source bps between answer hsent hbetween hkind hsuccess hseq hanswer
    have hinput : inputOf (.response answer) = some (.response answer) := if_pos hkind
    have hpending := pending_foldl hbetween (see cache (forwarded request backendSeq))
    rw [pending_sent hsent] at hpending
    dsimp only
    rw [List.foldl_append, List.foldl_cons, List.foldl_cons, List.foldl_nil,
      LateJoinCache.breakpointSnapshot, snapshot_breakpoints, breakpoints_see, hinput,
      Option.elim_some, step, lookup_answered hpending hsuccess hseq hanswer]
    split_ifs
    · rfl
    · rw [Option.map_some, List.map_map]
      rfl
  · -- filters are taken when they are asked for
    intro bps hnd hsent
    have hrequest : request = .request
        ⟨client.seq, "setExceptionBreakpoints", some (exceptionArguments bps)⟩ := eq_request hsent
    have harguments := arguments_sent client.seq backendSeq "setExceptionBreakpoints"
      (exceptionArguments bps)
    rw [LateJoinCache.breakpointSnapshot, snapshot_exceptions, hrequest, breakpoints_see]
    simp only [forwarded, inputOf, command_sent, Option.elim_some, step]
    rw [exceptions_of_arguments hnd harguments, List.map_map]
    rfl

/-- A client whose every request is taken. -/
def attached : ControlClient := fromDuplex [] fun _ => .ok ()

def guarded : Control.SourceBreakpointSpec := ⟨3, some "x > 1", none, none⟩

def counted : Control.SourceBreakpointSpec := ⟨8, none, some "> 2", some "x is too large"⟩

def raised : Control.ExceptionBreakpointSpec := ⟨"raised", some "ValueError"⟩

def uncaught : Control.ExceptionBreakpointSpec := ⟨"uncaught", none⟩

/-- The adapter says that the program goes on, and answers an earlier request. -/
def traffic : List Seen :=
  [.event (.obj [("type", .string "event"), ("event", .string "continued")]),
    .response (.obj [("type", .string "response"), ("request_seq", .int 6),
      ("success", .bool true)])]

lemma not_concerns_traffic : ∀ seen ∈ traffic, ¬ Concerns 7 seen :=
  List.forall_mem_cons.mpr ⟨id, List.forall_mem_singleton.mpr (by decide : (6 : ℤ) ≠ 7)⟩

def answered : Value :=
  .obj [("type", .string "response"), ("request_seq", .int 7), ("success", .bool true),
    ("body", .obj [("breakpoints", .array [verifiedAt guarded, verifiedAt counted])])]

theorem snapshot_shows_conditions :
    (let request :=
        Message.request ⟨1, "setBreakpoints", some (setArguments "main.py" [guarded, counted])⟩
      let after := (forwarded request 7 :: traffic ++ [Seen.response answered]).foldl see .empty
      (after.breakpointSnapshot.get "breakpoints").bind (·.get "main.py") =
        some (.array [shown guarded, shown counted])) ∧
      (let request := Message.request
          ⟨1, "setExceptionBreakpoints", some (exceptionArguments [raised, uncaught])⟩
      (see .empty (forwarded request 7)).breakpointSnapshot.get "exception_breakpoints" =
        some (.array [shownException raised, shownException uncaught])) :=
  ⟨(snapshot_shows_what_is_set .empty attached 7 _).1 "main.py" [guarded, counted] traffic answered
      rfl not_concerns_traffic rfl rfl rfl rfl,
    (snapshot_shows_what_is_set .empty attached 7 _).2 [raised, uncaught] (by decide) rfl⟩

end DappyCore.BreakpointRoundTrip
