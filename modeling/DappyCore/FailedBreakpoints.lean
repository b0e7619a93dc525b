import DappyCore.BreakpointTable
import DappyCore.Lib.Register

/-!
Breakpoint requests that the adapter turns down: what they leave in the tracker.
-/

namespace DappyCore.FailedBreakpoints

open Lib Json Breakpoints BreakpointTracker

/-- A request that the tracker takes note of. -/
inductive Request
  | setBreakpoints (backendSeq : ℤ) (message : Value)
  | setExceptionBreakpoints (message : Value)

def Request.input : Request → Input
  | .setBreakpoints backendSeq message => .setRequest backendSeq message
  | .setExceptionBreakpoints message => .exceptionRequest message

/-- Two trackers with the same snapshot, the same table of ids and the same requests waiting. -/
structure Same (t t' : BreakpointTracker) : Prop where
  source : ∀ path, t'.sourceBreakpoints.lookup path = t.sourceBreakpoints.lookup path
  exceptions : t'.exceptionBreakpoints = t.exceptionBreakpoints
  pending : ∀ seq, t'.pendingSetBreakpoints.lookup seq = t.pendingSetBreakpoints.lookup seq
  ids : ∀ id, t'.breakpointIds.lookup id = t.breakpointIds.lookup id

/-- The tracker after the request and its response is as it was before the request. -/
def Unchanged (t : BreakpointTracker) (request : Request) (response : Value) : Prop :=
  Same t ((t.step request.input).step (.response response))

/-- The strings of `arguments.filters`. -/
def askedFilters (message : Value) : List String :=
  match ((message.get "arguments").bind fun arguments => arguments.get "filters") with
  | some (.array items) => items.filterMap Value.asStr
  | _ => []

/-- The condition for a filter: the first that an entry of `arguments.filterOptions` gives with
this `filterId`. -/
def askedCondition (message : Value) (filter : String) : Option String :=
  match ((message.get "arguments").bind fun arguments => arguments.get "filterOptions") with
  | some (.array options) =>
    ((options.filter fun option => strField option "filterId" = some filter).filterMap
      fun option => strField option "condition").head?
  | _ => none

/-- Two requests for the same filters, each with the same condition. -/
structure AsksSame (message message' : Value) : Prop where
  filters : askedFilters message = askedFilters message'
  conditions : ∀ filter ∈ askedFilters message,
    askedCondition message filter = askedCondition message' filter

/-- The messages that put a request under a number or take it away. -/
def touches (seq : ℤ) : Input → Bool
  | .setRequest backendSeq _ => backendSeq = seq
  | .response message => isSuccess message ∧ answeredSeq message = seq
  | _ => false

def isExceptionRequest : Input → Bool
  | .exceptionRequest _ => true
  | _ => false

/-- The request asks for what the run asked for last: under the same number, not yet granted, for
the same lines of the same path; or for the same exception breakpoints, or none where the run never
asked for any. -/
def Repeats (run : List Input) : Request → Prop
  | .setBreakpoints backendSeq message => ∃ before,
      lastOf (touches backendSeq) run = some (.setRequest backendSeq before) ∧
        requestSourcePath before = requestSourcePath message ∧
        requestSpecs before = requestSpecs message
  | .setExceptionBreakpoints message =>
    match lastOf isExceptionRequest run with
    | some (.exceptionRequest before) => AsksSame message before
    | _ => askedFilters message = []

/-- A `setBreakpoints` request was sent under the number, and no response to it has come. -/
def Unanswered (run : List Input) (seq : ℤ) : Prop :=
  ∃ pre message post, run = pre ++ .setRequest seq message :: post ∧
    ∀ answer, .response answer ∈ post → answeredSeq answer ≠ seq

/-- In every state of the run, what waits has not been answered. -/
def OnlyUnansweredWait (run : List Input) : Prop :=
  ∀ pre, pre <+: run → ∀ seq, (after pre).pendingSetBreakpoints.lookup seq ≠ none →
    Unanswered pre seq

/-- No `setBreakpoints` request of the run is answered with a failure. -/
def NoneFails (run : List Input) : Prop :=
  ∀ pre answer post, run = pre ++ .response answer :: post → isSuccess answer = false →
    ¬ Unanswered pre (answeredSeq answer)

variable {t : BreakpointTracker} {run : List Input} {seq : ℤ}

/-! ### What was asked for -/

/-- The exception breakpoints a request asks for. -/
def asked (message : Value) : List ExceptionBreakpointSpec :=
  (askedFilters message).map fun filter => ⟨filter, askedCondition message filter⟩

lemma head?_conditions (filter : String) (options : List Value) :
    ((options.filter fun option => strField option "filterId" = some filter)
      |>.filterMap fun option => strField option "condition").head? =
      options.findSome? fun option =>
        if strField option "filterId" = some filter then strField option "condition"
        else none := by
  induction options with
  | nil => rfl
  | cons option options ih =>
    rw [List.findSome?_cons, ← ih]
    by_cases h : strField option "filterId" = some filter
    · rw [List.filter_cons, if_pos (decide_eq_true h), List.filterMap_cons, if_pos h]
      cases strField option "condition" <;> rfl
    · rw [List.filter_cons, if_neg (by simpa using h), if_neg h]

lemma lookup_arguments (message : Value) (key : String) :
    (((message.get "arguments").bind Value.asObject).bind (lookupField key)).bind Value.asArray =
      ((message.get "arguments").bind fun arguments => arguments.get key).bind Value.asArray := by
  cases message.get "arguments" with
  | none => rfl
  | some arguments => cases arguments <;> rfl

/-- What a message leaves of exception breakpoints, and under a number. -/
def exceptionsOf : Input → List ExceptionBreakpointSpec
  | .exceptionRequest message => asked message
  | _ => []

def waitingOf : Input → Option PendingSetBreakpoints
  | .setRequest _ message => some ⟨requestSourcePath message, requestSpecs message⟩
  | _ => none

/-- **A request is taken at its word.** -/
lemma exceptions_request (t : BreakpointTracker) (message : Value) :
    (t.step (.exceptionRequest message)).exceptionBreakpoints = asked message := by
  have hfilters : (((message.get "arguments").bind fun arguments =>
      arguments.get "filters").bind Value.asArray).elim [] (·.filterMap Value.asStr) =
        askedFilters message := by
    unfold askedFilters
    cases (message.get "arguments").bind fun arguments => arguments.get "filters" with
    | none => rfl
    | some filters => cases filters <;> rfl
  have hcondition : ∀ filter, (((message.get "arguments").bind fun arguments =>
      arguments.get "filterOptions").bind Value.asArray).bind (fun options =>
        options.findSome? fun option =>
          if strField option "filterId" = some filter then strField option "condition"
          else none) = askedCondition message filter := by
    intro filter
    unfold askedCondition
    cases (message.get "arguments").bind fun arguments => arguments.get "filterOptions" with
    | none => rfl
    | some options =>
      cases options with
      | array options => exact (head?_conditions filter options).symm
      | _ => rfl
  simp only [step, trackSetExceptionBreakpointsRequest, lookup_arguments, hfilters, hcondition]
  rfl

lemma exceptions_new (t : BreakpointTracker) (bp : Value) :
    (t.applyNewBreakpoint bp).exceptionBreakpoints = t.exceptionBreakpoints := by
  unfold applyNewBreakpoint
  split
  · rfl
  · dsimp only
    split <;> rfl

lemma exceptions_event (t : BreakpointTracker) (message : Value) :
    (t.observeBreakpointEvent message).exceptionBreakpoints = t.exceptionBreakpoints := by
  rw [observeEvent_eq]
  split
  · exact exceptions_new t _
  · unfold applyChangedBreakpoint
    split
    · rfl
    · exact exceptions_new t _
  · unfold applyRemovedBreakpoint
    split
    · rfl
    · split <;> rfl
  · rfl

lemma exceptions_step {i : Input} (h : isExceptionRequest i) (t : BreakpointTracker) :
    (t.step i).exceptionBreakpoints = exceptionsOf i := by
  cases i with
  | exceptionRequest message => exact exceptions_request t message
  | _ => cases h

lemma exceptions_step_of_not {i : Input} (h : ¬ isExceptionRequest i) (t : BreakpointTracker) :
    (t.step i).exceptionBreakpoints = t.exceptionBreakpoints := by
  cases i with
  | setRequest backendSeq message => rfl
  | exceptionRequest message => exact absurd rfl h
  | response message =>
    simp only [step]
    unfold observeSetBreakpointsResponse
    split
    · rfl
    · split <;> rfl
  | event message => exact exceptions_event t message

lemma pending_step_of {seq : ℤ} {i : Input} (h : touches seq i) (t : BreakpointTracker) :
    (t.step i).pendingSetBreakpoints.lookup seq = waitingOf i := by
  rw [pending_step]
  cases i with
  | setRequest backendSeq message => exact if_pos (of_decide_eq_true h).symm
  | response message =>
    obtain ⟨hs, he⟩ := of_decide_eq_true h
    exact if_pos ⟨hs, he.symm⟩
  | _ => cases h

lemma pending_step_of_not {seq : ℤ} {i : Input} (h : ¬ touches seq i) (t : BreakpointTracker) :
    (t.step i).pendingSetBreakpoints.lookup seq = t.pendingSetBreakpoints.lookup seq := by
  rw [pending_step]
  cases i with
  | setRequest backendSeq message => exact if_neg fun e => h (decide_eq_true e.symm)
  | response message => exact if_neg fun e => h (decide_eq_true ⟨e.1, e.2.symm⟩)
  | _ => rfl

/-- The exception breakpoints are those of the last request for any. -/
theorem exceptions_after (run : List Input) : (after run).exceptionBreakpoints =
    (lastOf isExceptionRequest run).elim [] exceptionsOf :=
  foldl_lastOf (f := step) (g := exceptionBreakpoints) (fun t _ h => exceptions_step h t)
    (fun t _ h => exceptions_step_of_not h t) .empty run

/-- Under a number waits what was last put there. -/
theorem pending_after (run : List Input) (seq : ℤ) :
    (after run).pendingSetBreakpoints.lookup seq =
      (lastOf (touches seq) run).elim none waitingOf :=
  foldl_lastOf (f := step) (g := fun t => t.pendingSetBreakpoints.lookup seq)
    (fun t _ h => pending_step_of h t) (fun t _ h => pending_step_of_not h t) .empty run

lemma asked_eq_iff (message message' : Value) :
    asked message = asked message' ↔ AsksSame message message' := by
  constructor
  · intro h
    have hfilters : askedFilters message = askedFilters message' := by
      simpa [asked, Function.comp_def] using congrArg (List.map ExceptionBreakpointSpec.filter) h
    refine ⟨hfilters, fun filter hmem => ?_⟩
    rw [asked, asked, ← hfilters] at h
    exact (ExceptionBreakpointSpec.mk.inj (List.map_inj_left.mp h filter hmem)).2
  · rintro ⟨hfilters, hconditions⟩
    rw [asked, asked, ← hfilters]
    exact List.map_congr_left fun filter hmem => by rw [hconditions filter hmem]

/-! ### One request -/

lemma pending_setRequest (backendSeq : ℤ) (message : Value) :
    (t.step (.setRequest backendSeq message)).pendingSetBreakpoints.lookup seq =
      if seq = backendSeq then some ⟨requestSourcePath message, requestSpecs message⟩
      else t.pendingSetBreakpoints.lookup seq :=
  pending_step t (.setRequest backendSeq message) seq

lemma pending_response (answer : Value) :
    (t.step (.response answer)).pendingSetBreakpoints.lookup seq =
      if isSuccess answer ∧ seq = answeredSeq answer then none
      else t.pendingSetBreakpoints.lookup seq :=
  pending_step t (.response answer) seq

/-- **A failure** is not taken note of. -/
lemma step_failure {response : Value} (h : isSuccess response = false) :
    t.step (.response response) = t := by
  simp [step, observeSetBreakpointsResponse, h]

lemma repeats_set_iff {backendSeq : ℤ} {message : Value} :
    Repeats run (.setBreakpoints backendSeq message) ↔
      (after run).pendingSetBreakpoints.lookup backendSeq =
        some ⟨requestSourcePath message, requestSpecs message⟩ := by
  rw [pending_after, Repeats]
  constructor
  · rintro ⟨before, hlast, hpath, hspecs⟩
    rw [hlast, Option.elim_some, waitingOf, hpath, hspecs]
  · intro hwaits
    obtain ⟨i, hlast, hi⟩ : ∃ i, lastOf (touches backendSeq) run = some i ∧
        waitingOf i = some ⟨requestSourcePath message, requestSpecs message⟩ := by
      cases hlast : lastOf (touches backendSeq) run with
      | none => simp [hlast] at hwaits
      | some i => exact ⟨i, rfl, by simpa [hlast] using hwaits⟩
    have htouches := (lastOf_mem hlast).2
    cases i with
    | setRequest n before =>
      obtain rfl : n = backendSeq := of_decide_eq_true htouches
      obtain ⟨hpath, hspecs⟩ := PendingSetBreakpoints.mk.inj (Option.some.inj hi)
      exact ⟨before, hlast, hpath, hspecs⟩
    | _ => cases hi

lemma repeats_exceptions_iff {message : Value} :
    Repeats run (.setExceptionBreakpoints message) ↔
      asked message = (after run).exceptionBreakpoints := by
  have hnone : asked message = [] ↔ askedFilters message = [] := List.map_eq_nil_iff
  rw [exceptions_after, Repeats]
  cases hlast : lastOf isExceptionRequest run with
  | none => exact hnone.symm
  | some i =>
    cases i with
    | exceptionRequest before => exact (asked_eq_iff message before).symm
    | _ => exact hnone.symm

/-- **A failed request** changes nothing exactly where it asks for what was asked for before. -/
theorem unchanged_iff {request : Request} {response : Value} (h : isSuccess response = false) :
    Unchanged (after run) request response ↔ Repeats run request := by
  rw [Unchanged, step_failure h]
  cases request with
  | setBreakpoints backendSeq message =>
    rw [repeats_set_iff]
    constructor
    · intro hsame
      have hpending := hsame.pending backendSeq
      rw [Request.input, pending_setRequest, if_pos rfl] at hpending
      exact hpending.symm
    · intro hrepeats
      refine ⟨fun _ => rfl, rfl, fun seq => ?_, fun _ => rfl⟩
      rw [Request.input, pending_setRequest]
      split_ifs with e
      · rw [e, hrepeats]
      · rfl
  | setExceptionBreakpoints message =>
    rw [repeats_exceptions_iff]
    constructor
    · intro hsame
      exact (exceptions_request _ message).symm.trans hsame.exceptions
    · intro hrepeats
      exact ⟨fun _ => rfl, (exceptions_request _ message).trans hrepeats, fun _ => rfl,
        fun _ => rfl⟩

/-! ### Runs -/

lemma after_concat (run : List Input) (i : Input) : after (run ++ [i]) = (after run).step i := by
  simp [after, List.foldl_append]

/-- What has not been answered waits. -/
lemma pending_of_unanswered (h : Unanswered run seq) :
    (after run).pendingSetBreakpoints.lookup seq ≠ none := by
  obtain ⟨pre, message, post, rfl, hpost⟩ := h
  induction post using List.reverseRecOn with
  | nil =>
    rw [after_concat, pending_setRequest, if_pos rfl]
    exact Option.some_ne_none _
  | append_singleton post i ih =>
    have hih := ih fun answer hmem => hpost answer (List.mem_append_left _ hmem)
    rw [← List.cons_append, ← List.append_assoc, after_concat]
    cases i with
    | setRequest backendSeq message =>
      rw [pending_setRequest]
      split_ifs
      · exact Option.some_ne_none _
      · exact hih
    | exceptionRequest message => exact hih
    | event message =>
      rw [pending_step]
      exact hih
    | response answer =>
      have hne : seq ≠ answeredSeq answer := fun e => hpost answer (by simp) e.symm
      rw [pending_response, if_neg fun hs => hne hs.2]
      exact hih

/-- What goes on without an answer leaves a request unanswered. -/
lemma Unanswered.concat {i : Input} (h : Unanswered run seq)
    (hi : ∀ answer, i = .response answer → answeredSeq answer ≠ seq) :
    Unanswered (run ++ [i]) seq := by
  obtain ⟨pre, message, post, rfl, hpost⟩ := h
  refine ⟨pre, message, post ++ [i], by simp, fun answer hmem => ?_⟩
  rcases List.mem_append.mp hmem with hmem | hmem
  · exact hpost answer hmem
  · exact hi answer (List.mem_singleton.mp hmem).symm

lemma not_unanswered_response (run : List Input) {answer : Value} :
    ¬ Unanswered (run ++ [.response answer]) (answeredSeq answer) := by
  rintro ⟨pre, message, post, heq, hpost⟩
  rcases List.eq_nil_or_concat' post with rfl | ⟨post, i, rfl⟩
  · obtain ⟨-, hlast⟩ := List.append_inj' heq rfl
    cases hlast
  · rw [← List.cons_append, ← List.append_assoc] at heq
    obtain ⟨-, hlast⟩ := List.append_inj' heq rfl
    obtain rfl := (List.cons.inj hlast).1
    exact hpost answer (by simp) rfl

/-- **Only what is unanswered waits**, in every state of a run, exactly where no request fails. -/
theorem onlyUnansweredWait_iff (run : List Input) : OnlyUnansweredWait run ↔ NoneFails run := by
  constructor
  · -- the answer is a failure, and the request has been answered then
    rintro h pre answer post rfl hfail hun
    -- a failed request waits on
    have hwaits : (after (pre ++ [.response answer])).pendingSetBreakpoints.lookup
        (answeredSeq answer) ≠ none := by
      rw [after_concat, step_failure hfail]
      exact pending_of_unanswered hun
    exact not_unanswered_response pre (h _ ⟨post, by simp⟩ _ hwaits)
  · -- what waits came with the last step, or waited before
    intro h pre hpre seq hwaits
    induction pre using List.reverseRecOn with
    | nil => exact absurd rfl hwaits
    | append_singleton pre i ih =>
      obtain ⟨post, rfl⟩ := hpre
      have hprev := ih ⟨i :: post, by simp⟩
      rw [after_concat] at hwaits
      cases i with
      | setRequest backendSeq message =>
        rw [pending_setRequest] at hwaits
        by_cases e : seq = backendSeq
        · subst e
          exact ⟨pre, message, [], rfl, by simp⟩
        · rw [if_neg e] at hwaits
          exact (hprev hwaits).concat (by simp)
      | exceptionRequest message => exact (hprev hwaits).concat (by simp)
      | event message =>
        rw [pending_step] at hwaits
        exact (hprev hwaits).concat (by simp)
      | response answer =>
        rw [pending_response] at hwaits
        split_ifs at hwaits with hs
        · exact absurd rfl hwaits
        · have hun := hprev hwaits
          refine hun.concat ?_
          rintro _ ⟨rfl⟩ rfl
          have hfail : isSuccess answer = false := by simpa using hs
          exact h pre answer post (by simp) hfail hun

/-- **Failed breakpoint requests**: one of them changes nothing exactly where it asks for what was
asked for before; and none is left waiting in a run exactly where none fails. -/
theorem failed_requests_change_nothing_iff (run : List Input) :
    (∀ request response, isSuccess response = false →
      (Unchanged (after run) request response ↔ Repeats run request)) ∧
      (OnlyUnansweredWait run ↔ NoneFails run) :=
  ⟨fun _ _ h => unchanged_iff h, onlyUnansweredWait_iff run⟩

/-- The adapter turns down the request with number 1. -/
def failure : Value :=
  .obj [("type", .string "response"), ("request_seq", .int 1), ("success", .bool false)]

def lineRequest : Value :=
  .obj [("arguments", .obj [("source", .obj [("path", .string "main.py")]),
    ("breakpoints", .array [.obj [("line", .int 3)]])])]

def raisedRequest : Value :=
  .obj [("arguments", .obj [("filters", .array [.string "raised"])])]

/-- A request that failed is sent again, and fails again. -/
theorem failed_request_repeated : Unchanged (after [.setRequest 1 lineRequest])
    (.setBreakpoints 1 lineRequest) failure :=
  ((failed_requests_change_nothing_iff [.setRequest 1 lineRequest]).1 _ _ rfl).mpr
    ⟨lineRequest, rfl, rfl, rfl⟩

theorem failed_requests_leave_something :
    ¬ Unchanged (after []) (.setBreakpoints 1 lineRequest) failure ∧
      ¬ Unchanged (after []) (.setExceptionBreakpoints raisedRequest) failure ∧
      ¬ OnlyUnansweredWait [.setRequest 1 lineRequest, .response failure] := by
  refine ⟨fun h => ?_, fun h => ?_, fun h => ?_⟩
  · have hpending := h.pending 1
    cases hpending
  · have hexceptions := h.exceptions
    cases hexceptions
  · have hun : Unanswered [.setRequest 1 lineRequest, .response failure] 1 :=
      h _ (List.prefix_refl _) 1 nofun
    exact not_unanswered_response [.setRequest 1 lineRequest] hun

end DappyCore.FailedBreakpoints
