import DappyCore.Lib.Register
import DappyCore.Protocol

/-!
The execution status of the debuggee, followed from DAP events.
-/

namespace DappyCore.Execution

open Lib Json Protocol

inductive ExecutionStatus | unknown | running | stopped | exited
  deriving DecidableEq

/-- Snapshot of execution state for CLI / MCP `status`. -/
structure ExecutionStateSummary where
  status : ExecutionStatus
  threadId : Option ℤ
  stopReason : Option String
  description : Option String
  deriving DecidableEq

/-- Tracks execution state from observed DAP messages. -/
structure ExecutionStateTracker where
  version : ℕ
  state : ExecutionStateSummary
  deriving DecidableEq

/-- A string field of an event's body. -/
def bodyStr (body : Option Value) (key : String) : Option String :=
  (body.bind fun b => b.get key).bind Value.asStr

namespace ExecutionStateTracker

def new : ExecutionStateTracker := ⟨0, ⟨.unknown, none, none, none⟩⟩

/-- What an event makes of the state. -/
def nextState (state : ExecutionStateSummary) (name : String) (body : Option Value) :
    ExecutionStateSummary :=
  match name with
  | "stopped" =>
    { status := .stopped
      threadId := (body.bind fun b => b.get "threadId").bind Value.asI64
      stopReason := bodyStr body "reason"
      description := bodyStr body "text" }
  | "continued" => { state with status := .running, stopReason := none, description := none }
  | "exited" | "terminated" =>
    { state with status := .exited, stopReason := bodyStr body "reason" }
  | "initialized" => { state with status := .running }
  | _ => state

section

variable (state : ExecutionStateSummary) (body : Option Value)

@[simp] lemma nextState_stopped : nextState state "stopped" body =
    ⟨.stopped, (body.bind fun b => b.get "threadId").bind Value.asI64, bodyStr body "reason",
      bodyStr body "text"⟩ := rfl

@[simp] lemma nextState_continued : nextState state "continued" body =
    { state with status := .running, stopReason := none, description := none } := rfl

@[simp] lemma nextState_exited : nextState state "exited" body =
    { state with status := .exited, stopReason := bodyStr body "reason" } := rfl

@[simp] lemma nextState_terminated : nextState state "terminated" body =
    { state with status := .exited, stopReason := bodyStr body "reason" } := rfl

@[simp] lemma nextState_initialized : nextState state "initialized" body =
    { state with status := .running } := rfl

end

def applyEvent (t : ExecutionStateTracker) (name : String) (body : Option Value) :
    ExecutionStateTracker :=
  ⟨t.version + 1, nextState t.state name body⟩

def applyMessage (t : ExecutionStateTracker) : Message → ExecutionStateTracker
  | .event e => t.applyEvent e.event e.body
  | _ => t

end ExecutionStateTracker

open ExecutionStateTracker

/-! ### The last event that counts -/

/-- The events that set the status. -/
def setsStatus (e : Event) : Bool :=
  e.event = "stopped" ∨ e.event = "continued" ∨ e.event = "exited" ∨ e.event = "terminated" ∨
    e.event = "initialized"

/-- The events that set the stop reason. -/
def setsReason (e : Event) : Bool :=
  e.event = "stopped" ∨ e.event = "continued" ∨ e.event = "exited" ∨ e.event = "terminated"

/-- The status an event speaks of. -/
def statusOf (e : Event) : ExecutionStatus :=
  if e.event = "stopped" then .stopped
  else if e.event = "continued" ∨ e.event = "initialized" then .running
  else if e.event = "exited" ∨ e.event = "terminated" then .exited
  else .unknown

/-- The reason an event gives. One that lets the debuggee run on gives none. -/
def reasonOf (e : Event) : Option String :=
  if e.event = "continued" then none else bodyStr e.body "reason"

/-- The names the tracker knows. -/
lemma name_cases (e : Event) :
    e.event = "stopped" ∨ e.event = "continued" ∨ e.event = "exited" ∨ e.event = "terminated" ∨
      e.event = "initialized" ∨ ¬ setsStatus e ∧ ∀ s, nextState s e.event e.body = s := by
  by_cases h : setsStatus e
  · simp only [setsStatus, decide_eq_true_eq] at h
    tauto
  · refine .inr (.inr (.inr (.inr (.inr ⟨h, fun s => ?_⟩))))
    simp only [setsStatus, decide_eq_true_eq, not_or] at h
    unfold nextState
    split <;> simp_all

lemma status_nextState {e : Event} (h : setsStatus e) (s : ExecutionStateSummary) :
    (nextState s e.event e.body).status = statusOf e := by
  rcases name_cases e with hn | hn | hn | hn | hn | ⟨hn, -⟩
  case inr.inr.inr.inr.inr => exact absurd h hn
  all_goals simp [statusOf, hn]

lemma status_nextState_of_not {e : Event} (h : ¬ setsStatus e) (s : ExecutionStateSummary) :
    (nextState s e.event e.body).status = s.status := by
  rcases name_cases e with hn | hn | hn | hn | hn | ⟨-, hs⟩
  case inr.inr.inr.inr.inr => rw [hs]
  all_goals simp [setsStatus, hn] at h

lemma reason_nextState {e : Event} (h : setsReason e) (s : ExecutionStateSummary) :
    (nextState s e.event e.body).stopReason = reasonOf e := by
  simp only [setsReason, decide_eq_true_eq] at h
  rcases h with hn | hn | hn | hn <;> simp [reasonOf, hn]

lemma reason_nextState_of_not {e : Event} (h : ¬ setsReason e) (s : ExecutionStateSummary) :
    (nextState s e.event e.body).stopReason = s.stopReason := by
  rcases name_cases e with hn | hn | hn | hn | hn | ⟨-, hs⟩
  case inr.inr.inr.inr.inr => rw [hs]
  case inr.inr.inr.inr.inl => simp [hn]
  all_goals simp [setsReason, hn] at h

/-- The tracker after a sequence of events. -/
def tracked (t : ExecutionStateTracker) (events : List Event) : ExecutionStateTracker :=
  events.foldl (fun t e => t.applyEvent e.event e.body) t

/-- **The status is that of the last event that sets one.** -/
theorem status_tracked (t : ExecutionStateTracker) (events : List Event) :
    (tracked t events).state.status =
      (lastOf setsStatus events).elim t.state.status statusOf :=
  foldl_lastOf (g := fun t : ExecutionStateTracker => t.state.status)
    (fun t _ h => status_nextState h t.state) (fun t _ h => status_nextState_of_not h t.state)
    t events

/-- **The stop reason is that of the last event that sets one.** -/
theorem stopReason_tracked (t : ExecutionStateTracker) (events : List Event) :
    (tracked t events).state.stopReason =
      (lastOf setsReason events).elim t.state.stopReason reasonOf :=
  foldl_lastOf (g := fun t : ExecutionStateTracker => t.state.stopReason)
    (fun t _ h => reason_nextState h t.state) (fun t _ h => reason_nextState_of_not h t.state)
    t events

lemma statusOf_ne_unknown {e : Event} (h : setsStatus e) : statusOf e ≠ .unknown := by
  rcases name_cases e with hn | hn | hn | hn | hn | ⟨hn, -⟩
  case inr.inr.inr.inr.inr => exact absurd h hn
  all_goals simp [statusOf, hn]

/-- The status is unknown as long as no event has set it. -/
lemma status_tracked_eq_unknown {events : List Event} :
    (tracked .new events).state.status = .unknown ↔ ∀ e ∈ events, ¬ setsStatus e := by
  rw [status_tracked, ← lastOf_eq_none_iff]
  cases h : lastOf setsStatus events with
  | none => simp [new]
  | some e => simpa using statusOf_ne_unknown (lastOf_mem h).2

/-! ### Running and the stop -/

/-- The events that set the description, and the description they give. -/
def setsDescription (e : Event) : Bool := e.event = "stopped" ∨ e.event = "continued"

def descriptionOf (e : Event) : Option String :=
  if e.event = "continued" then none else bodyStr e.body "text"

lemma description_nextState {e : Event} (h : setsDescription e) (s : ExecutionStateSummary) :
    (nextState s e.event e.body).description = descriptionOf e := by
  simp only [setsDescription, decide_eq_true_eq] at h
  rcases h with hn | hn <;> simp [descriptionOf, hn]

lemma description_nextState_of_not {e : Event} (h : ¬ setsDescription e)
    (s : ExecutionStateSummary) :
    (nextState s e.event e.body).description = s.description := by
  rcases name_cases e with hn | hn | hn | hn | hn | ⟨-, hs⟩
  case inl => simp [setsDescription, hn] at h
  case inr.inl => simp [setsDescription, hn] at h
  case inr.inr.inr.inr.inr => rw [hs]
  all_goals simp [hn]

/-- **The description is that of the last event that sets one.** -/
theorem description_tracked (t : ExecutionStateTracker) (events : List Event) :
    (tracked t events).state.description =
      (lastOf setsDescription events).elim t.state.description descriptionOf :=
  foldl_lastOf (g := fun t : ExecutionStateTracker => t.state.description)
    (fun t _ h => description_nextState h t.state)
    (fun t _ h => description_nextState_of_not h t.state) t events

/-- A running debuggee has neither a stop reason nor a description. -/
def RunsClean (s : ExecutionStateSummary) : Prop :=
  s.status = .running → s.stopReason = none ∧ s.description = none

/-- The events leave no reason and no description behind: the last that sets the one gives none,
and neither does the last that sets the other. -/
def LeaveNoStop (events : List Event) : Prop :=
  (lastOf setsReason events).bind reasonOf = none ∧
    (lastOf setsDescription events).bind descriptionOf = none

lemma leaveNoStop_iff (events : List Event) :
    LeaveNoStop events ↔ (tracked .new events).state.stopReason = none ∧
      (tracked .new events).state.description = none := by
  rw [LeaveNoStop, stopReason_tracked, description_tracked]
  refine and_congr ?_ ?_
  · cases lastOf setsReason events <;> rfl
  · cases lastOf setsDescription events <;> rfl

lemma tracked_concat (t : ExecutionStateTracker) (events : List Event) (e : Event) :
    tracked t (events ++ [e]) = (tracked t events).applyEvent e.event e.body := by
  rw [tracked, List.foldl_append]
  rfl

/-- `initialized` keeps the reason and the description. -/
lemma runsClean_initialized {e : Event} (h : e.event = "initialized")
    (s : ExecutionStateSummary) :
    RunsClean (nextState s e.event e.body) ↔ s.stopReason = none ∧ s.description = none := by
  simp [RunsClean, h]

/-- Every other event keeps a running debuggee clean. -/
lemma RunsClean.next {s : ExecutionStateSummary} (h : RunsClean s) {e : Event}
    (he : e.event ≠ "initialized") : RunsClean (nextState s e.event e.body) := by
  rcases name_cases e with hn | hn | hn | hn | hn | ⟨-, hs⟩
  case inr.inr.inr.inr.inl => exact absurd hn he
  case inr.inr.inr.inr.inr => rwa [hs]
  all_goals simp [RunsClean, hn]

/-- **Running means no stop reason**, in every state on the way, exactly when each `initialized`
comes after events that leave none. -/
theorem runs_clean_iff (events : List Event) :
    (∀ before, before <+: events → RunsClean (tracked .new before).state) ↔
      ∀ before e, before ++ [e] <+: events → e.event = "initialized" → LeaveNoStop before := by
  constructor
  · intro h before e hpre he
    have hclean := h _ hpre
    rw [tracked_concat] at hclean
    exact (leaveNoStop_iff before).mpr ((runsClean_initialized he _).mp hclean)
  · intro h before
    induction before using List.reverseRecOn with
    | nil => intro _ hr; cases hr
    | append_singleton before e ih =>
      intro hpre
      have hbefore := ih ((List.prefix_append before [e]).trans hpre)
      rw [tracked_concat]
      by_cases he : e.event = "initialized"
      · exact (runsClean_initialized he _).mpr ((leaveNoStop_iff before).mp (h before e hpre he))
      · exact hbefore.next he

/-- A stop, and then a restart of the debuggee. -/
def restarted : List Event :=
  [⟨1, "stopped", some (.obj [("reason", .string "breakpoint"), ("threadId", .int 1)])⟩,
    ⟨2, "initialized", none⟩]

theorem restart_keeps_the_stop_reason :
    ¬ ∀ before, before <+: restarted → RunsClean (tracked .new before).state := by
  intro h
  have hclean := h restarted List.prefix_rfl (by decide)
  exact absurd hclean.1 (by decide)

/-! ### Messages -/

/-- The tracker after a sequence of messages. -/
def applied (t : ExecutionStateTracker) (messages : List Message) : ExecutionStateTracker :=
  messages.foldl applyMessage t

def event? : Message → Option Event
  | .event e => some e
  | _ => none

/-- The body of an event. -/
def eventBody (message : Message) : Option Value := (event? message).bind (·.body)

def eventsOf (messages : List Message) : List Event := messages.filterMap event?

lemma eventsOf_append (l l' : List Message) : eventsOf (l ++ l') = eventsOf l ++ eventsOf l' :=
  List.filterMap_append

lemma applied_append (t : ExecutionStateTracker) (l l' : List Message) :
    applied t (l ++ l') = applied (applied t l) l' := List.foldl_append

lemma applied_eq_tracked (t : ExecutionStateTracker) (messages : List Message) :
    applied t messages = tracked t (eventsOf messages) := by
  induction messages generalizing t with
  | nil => rfl
  | cons m messages ih =>
    cases m with
    | event e => exact ih (t.applyMessage (.event e))
    | request r => exact ih t
    | response r => exact ih t

/-- The version counts the events. -/
lemma version_tracked (t : ExecutionStateTracker) (events : List Event) :
    (tracked t events).version = t.version + events.length := by
  induction events generalizing t with
  | nil => rfl
  | cons e events ih =>
    have h := ih (t.applyEvent e.event e.body)
    rw [List.length_cons, Nat.add_comm _ 1, ← Nat.add_assoc]
    exact h

/-- **No event is missed** by a tracker that some messages are kept from exactly when there is
none among them. -/
theorem applied_skip_iff (t : ExecutionStateTracker) (l skipped l' : List Message) :
    applied t (l ++ l') = applied t (l ++ skipped ++ l') ↔ eventsOf skipped = [] := by
  simp only [applied_eq_tracked, eventsOf_append]
  constructor
  · intro h
    have hv := congrArg ExecutionStateTracker.version h
    simp only [version_tracked, List.length_append] at hv
    exact List.eq_nil_of_length_eq_zero (by omega)
  · intro h
    rw [h, List.append_nil]

end DappyCore.Execution
