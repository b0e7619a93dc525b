import DappyCore.Cache
import DappyCore.Execution

/-!
Late join: what the replay tells a client about the execution of the debuggee. The cache keeps
the last `initialized` and the last `stopped` event, and nothing that came after them.
-/

namespace DappyCore.Replay

open Lib Json MuxMessage Protocol Cache Execution Execution.ExecutionStateTracker

def isInitialized (e : Event) : Bool := e.event = "initialized"

def isStopped (e : Event) : Bool := e.event = "stopped"

/-- The cache after a sequence of events; an `initialize` response may have come before. -/
def cacheAfter (body : Option Value) (events : List Event) : LateJoinCache :=
  events.foldl (fun c e => c.observe (Message.event e).toValue)
    { LateJoinCache.empty with initializeBody := body }

/-- A tracker that is fed the replay and nothing else. -/
def replayed (c : LateJoinCache) : ExecutionStateTracker :=
  (c.replay.filterMap Message.ofValue).foldl applyMessage .new

/-! ### What the cache keeps -/

lemma kind_toValue (e : Event) : messageKind (Message.event e).toValue = .event := by
  cases h : e.body <;>
    simp [messageKind, Message.toValue, optField, h, Value.obj, Value.get, lookup_insertField,
      Value.asStr]

lemma eventName_toValue (e : Event) : eventName (Message.event e).toValue = some e.event := by
  cases h : e.body <;>
    simp [eventName, Message.toValue, optField, h, Value.obj, Value.get, lookup_insertField,
      Value.asStr]

lemma observe_toValue (c : LateJoinCache) (e : Event) :
    (c.observe (Message.event e).toValue).initializeBody = c.initializeBody ∧
      (c.observe (Message.event e).toValue).initialized =
        (if isInitialized e then some (Message.event e).toValue else c.initialized) ∧
      (c.observe (Message.event e).toValue).lastStopped =
        if isStopped e then some (Message.event e).toValue else c.lastStopped := by
  simp only [LateJoinCache.observe, kind_toValue, eventName_toValue, isInitialized, isStopped]
  by_cases h1 : e.event = "initialized"
  · simp [h1]
  · by_cases h2 : e.event = "stopped"
    · simp [h2]
    · by_cases h3 : e.event = "breakpoint"
      · simp [h3]
      · simp [h1, h2, h3]

lemma initializeBody_cacheAfter (body : Option Value) (events : List Event) :
    (cacheAfter body events).initializeBody = body := by
  induction events using List.reverseRecOn with
  | nil => rfl
  | append_singleton l e ih =>
    rw [cacheAfter, List.foldl_append, List.foldl_cons, List.foldl_nil, (observe_toValue _ e).1]
    exact ih

lemma initialized_cacheAfter (body : Option Value) (events : List Event) :
    (cacheAfter body events).initialized =
      (lastOf isInitialized events).map fun e => (Message.event e).toValue := by
  rw [cacheAfter, foldl_lastOf (g := LateJoinCache.initialized) (p := isInitialized)
    (v := fun e => some (Message.event e).toValue)]
  · cases lastOf isInitialized events <;> rfl
  · exact fun c e h => (observe_toValue c e).2.1.trans (if_pos h)
  · exact fun c e h => (observe_toValue c e).2.1.trans (if_neg h)

lemma lastStopped_cacheAfter (body : Option Value) (events : List Event) :
    (cacheAfter body events).lastStopped =
      (lastOf isStopped events).map fun e => (Message.event e).toValue := by
  rw [cacheAfter, foldl_lastOf (g := LateJoinCache.lastStopped) (p := isStopped)
    (v := fun e => some (Message.event e).toValue)]
  · cases lastOf isStopped events <;> rfl
  · exact fun c e h => (observe_toValue c e).2.2.trans (if_pos h)
  · exact fun c e h => (observe_toValue c e).2.2.trans (if_neg h)

/-! ### What the replay says -/

/-- An event that has been through its JSON form counts the same. -/
lemma applyMessage_normal (t : ExecutionStateTracker) (e : Event) :
    applyMessage t (Message.event e).normal = t.applyEvent e.event e.body := by
  obtain ⟨n, name, body⟩ := e
  match body with
  | none => rfl
  | some .null =>
    simp only [Message.normal, Message.optNormal, applyMessage, applyEvent, nextState, bodyStr]
    rfl
  | some (.bool _) => rfl
  | some (.number _) => rfl
  | some (.string _) => rfl
  | some (.array _) => rfl
  | some (.object _) => rfl

/-- The `initialize` response of the replay is a response. -/
lemma ofValue_initialize (body : Value) : ∃ r, Message.ofValue
    (.obj [("type", .string "response"), ("seq", .int 0), ("request_seq", .int 0),
      ("success", .bool true), ("command", .string "initialize"), ("body", body)]) =
    some (.response r) := by
  simp [Message.ofValue, optString, aliased, Value.obj, Value.get, lookup_insertField,
    lookupField, Value.asStr, Value.asI64, Value.asBool]

/-- The replay amounts to the events kept, the `initialized` one first. -/
lemma replayed_cacheAfter (body : Option Value) (events : List Event) :
    replayed (cacheAfter body events) =
      tracked .new ((lastOf isInitialized events).toList ++ (lastOf isStopped events).toList) := by
  unfold replayed LateJoinCache.replay
  rw [initializeBody_cacheAfter, initialized_cacheAfter, lastStopped_cacheAfter]
  rw [List.filterMap_append, List.filterMap_append, List.foldl_append, List.foldl_append]
  have hbody : List.foldl applyMessage .new (List.filterMap Message.ofValue
      (body.map fun body => Value.obj [("type", .string "response"), ("seq", .int 0),
        ("request_seq", .int 0), ("success", .bool true), ("command", .string "initialize"),
        ("body", body)]).toList) = .new := by
    cases body with
    | none => rfl
    | some b =>
      obtain ⟨r, hr⟩ := ofValue_initialize b
      simp [hr, applyMessage]
  have hkept : ∀ (t : ExecutionStateTracker) (o : Option Event),
      List.foldl applyMessage t (List.filterMap Message.ofValue
        (o.map fun e => (Message.event e).toValue).toList) = tracked t o.toList := by
    intro t o
    cases o with
    | none => rfl
    | some e => simp [Message.ofValue_toValue, applyMessage_normal, tracked]
  rw [hbody, hkept, hkept, tracked, tracked, tracked, List.foldl_append]

/-! ### When they agree -/

def SameStatus (t t' : ExecutionStateTracker) : Prop :=
  t.state.status = t'.state.status ∧ t.state.stopReason = t'.state.stopReason

/-- The last event that sets a status, if there is one, is a `stopped` event; or no `stopped`
event came at all, an `initialized` event did, the last one says running, and no exit has left
a reason behind. -/
def Reflected (events : List Event) : Prop :=
  ∀ e, lastOf setsStatus events = some e →
    e.event = "stopped" ∨
      (∀ e' ∈ events, e'.event ≠ "stopped") ∧ (∃ e' ∈ events, e'.event = "initialized") ∧
        (e.event = "initialized" ∨ e.event = "continued") ∧
        ∀ e', lastOf setsReason events = some e' →
          e'.event = "continued" ∨ bodyStr e'.body "reason" = none

lemma setsStatus_of_stopped {e : Event} (h : isStopped e) : setsStatus e := by
  simp only [isStopped, decide_eq_true_eq] at h
  simp [setsStatus, h]

lemma setsReason_of_stopped {e : Event} (h : isStopped e) : setsReason e := by
  simp only [isStopped, decide_eq_true_eq] at h
  simp [setsReason, h]

lemma setsStatus_of_initialized {e : Event} (h : isInitialized e) : setsStatus e := by
  simp only [isInitialized, decide_eq_true_eq] at h
  simp [setsStatus, h]

lemma setsStatus_of_setsReason {e : Event} (h : setsReason e) : setsStatus e := by
  simp only [setsReason, decide_eq_true_eq] at h
  simp only [setsStatus, decide_eq_true_eq]
  tauto

lemma statusOf_eq_stopped {e : Event} (h : setsStatus e) :
    statusOf e = .stopped ↔ e.event = "stopped" := by
  rcases name_cases e with hn | hn | hn | hn | hn | ⟨hn, -⟩
  case inr.inr.inr.inr.inr => exact absurd h hn
  all_goals simp [statusOf, hn]

lemma statusOf_eq_running {e : Event} (h : setsStatus e) :
    statusOf e = .running ↔ e.event = "initialized" ∨ e.event = "continued" := by
  rcases name_cases e with hn | hn | hn | hn | hn | ⟨hn, -⟩
  case inr.inr.inr.inr.inr => exact absurd h hn
  all_goals simp [statusOf, hn]

lemma reasonOf_eq_none {e : Event} (h : setsReason e) :
    reasonOf e = none ↔ e.event = "continued" ∨ bodyStr e.body "reason" = none := by
  simp only [setsReason, decide_eq_true_eq] at h
  rcases h with hn | hn | hn | hn <;> simp [reasonOf, hn]

section Cases

variable {events : List Event} (body : Option Value)

/-- With a `stopped` event cached, the replay says stopped, for the reason of that event. -/
lemma same_iff_of_stopped {e : Event} (hs : lastOf isStopped events = some e) :
    SameStatus (replayed (cacheAfter body events)) (tracked .new events) ↔
      Reflected events := by
  obtain ⟨hmem, he⟩ := lastOf_mem hs
  have hkept : lastOf setsStatus ((lastOf isInitialized events).toList ++ [e]) = some e := by
    rw [lastOf_concat, if_pos (setsStatus_of_stopped he)]
  have hkept' : lastOf setsReason ((lastOf isInitialized events).toList ++ [e]) = some e := by
    rw [lastOf_concat, if_pos (setsReason_of_stopped he)]
  have hes : statusOf e = .stopped :=
    (statusOf_eq_stopped (setsStatus_of_stopped he)).mpr (of_decide_eq_true he)
  rw [SameStatus, replayed_cacheAfter, hs, Option.toList_some, status_tracked,
    stopReason_tracked, status_tracked, stopReason_tracked, hkept, hkept']
  cases hl : lastOf setsStatus events with
  | none => exact absurd (setsStatus_of_stopped he) (lastOf_eq_none_iff.mp hl e hmem)
  | some l =>
    obtain ⟨-, hls⟩ := lastOf_mem hl
    simp only [Option.elim_some, hes, Reflected, hl, Option.some.injEq, forall_eq']
    constructor
    · rintro ⟨h, -⟩
      exact .inl ((statusOf_eq_stopped hls).mp h.symm)
    · rintro (h | ⟨h, -⟩)
      · -- the last event that sets a status is the cached one
        have hstop : isStopped l := decide_eq_true h
        have hle := lastOf_of_imp (fun a => setsStatus_of_stopped) hl hstop
        obtain rfl := Option.some.inj (hle.symm.trans hs)
        have hr := lastOf_of_imp (fun a => setsStatus_of_setsReason) hl
          (setsReason_of_stopped hstop)
        exact ⟨hes.symm, by rw [hr]; rfl⟩
      · exact absurd (of_decide_eq_true he) (h e hmem)

/-- With nothing but an `initialized` event cached, the replay says running. -/
lemma same_iff_of_initialized {e : Event} (hs : lastOf isStopped events = none)
    (hi : lastOf isInitialized events = some e) :
    SameStatus (replayed (cacheAfter body events)) (tracked .new events) ↔
      Reflected events := by
  obtain ⟨hmem, he⟩ := lastOf_mem hi
  have hei : e.event = "initialized" := of_decide_eq_true he
  have hkept : lastOf setsStatus [e] = some e := by
    rw [← List.nil_append [e], lastOf_concat, if_pos (setsStatus_of_initialized he)]
  have hkept' : lastOf setsReason [e] = none := by
    rw [← List.nil_append [e], lastOf_concat, if_neg (by simp [setsReason, hei]), lastOf_nil]
  have hes : statusOf e = .running :=
    (statusOf_eq_running (setsStatus_of_initialized he)).mpr (.inl hei)
  -- no stop is cached because none came
  have hno : ∀ e' ∈ events, e'.event ≠ "stopped" := fun e' he' h =>
    lastOf_eq_none_iff.mp hs e' he' (decide_eq_true h)
  rw [SameStatus, replayed_cacheAfter, hs, hi, Option.toList_some, Option.toList_none,
    List.append_nil, status_tracked, stopReason_tracked, status_tracked, stopReason_tracked,
    hkept, hkept']
  cases hl : lastOf setsStatus events with
  | none => exact absurd (setsStatus_of_initialized he) (lastOf_eq_none_iff.mp hl e hmem)
  | some l =>
    obtain ⟨hlm, hls⟩ := lastOf_mem hl
    -- the last event that sets the reason gives none
    have hreason : (lastOf setsReason events).elim none reasonOf = none ↔
        ∀ e', lastOf setsReason events = some e' →
          e'.event = "continued" ∨ bodyStr e'.body "reason" = none := by
      cases hr : lastOf setsReason events with
      | none => simp
      | some r => simp [reasonOf_eq_none (lastOf_mem hr).2]
    simp only [Option.elim_some, Option.elim_none, hes, Reflected, hl, Option.some.injEq,
      forall_eq']
    rw [eq_comm, statusOf_eq_running hls, eq_comm, ← hreason]
    constructor
    · rintro ⟨h, h'⟩
      exact .inr ⟨hno, ⟨e, hmem, hei⟩, h, h'.symm⟩
    · rintro (h | ⟨-, -, h, h'⟩)
      · exact absurd h (hno l hlm)
      · exact ⟨h, h'.symm⟩

/-- With nothing cached, the replay says nothing. -/
lemma same_iff_of_none (hs : lastOf isStopped events = none)
    (hi : lastOf isInitialized events = none) :
    SameStatus (replayed (cacheAfter body events)) (tracked .new events) ↔
      Reflected events := by
  rw [SameStatus, replayed_cacheAfter, hs, hi, status_tracked, stopReason_tracked,
    status_tracked, stopReason_tracked]
  cases hl : lastOf setsStatus events with
  | none =>
    have hr : lastOf setsReason events = none := by
      rw [lastOf_eq_none_iff] at hl ⊢
      exact fun e he h => hl e he (setsStatus_of_setsReason h)
    rw [hr]
    simp [Reflected, hl]
  | some l =>
    obtain ⟨hlm, hls⟩ := lastOf_mem hl
    have hunknown := statusOf_ne_unknown hls
    refine iff_of_false (fun h => hunknown h.1.symm) (fun h => ?_)
    rcases h l hl with h | ⟨-, ⟨e, he, hei⟩, -⟩
    · exact lastOf_eq_none_iff.mp hs l hlm (decide_eq_true h)
    · exact lastOf_eq_none_iff.mp hi e he (decide_eq_true hei)

end Cases

/-- **The replay tells the current status exactly when** the last event that counts is one
the cache keeps, or one that the cached `initialized` event stands for. -/
theorem replay_agrees_iff (body : Option Value) (events : List Event) :
    SameStatus (replayed (cacheAfter body events)) (tracked .new events) ↔
      Reflected events := by
  cases hs : lastOf isStopped events with
  | some e => exact same_iff_of_stopped body hs
  | none =>
    cases hi : lastOf isInitialized events with
    | some e => exact same_iff_of_initialized body hs hi
    | none => exact same_iff_of_none body hs hi

/-- A client that attaches after the debuggee went on is told that it is stopped. -/
theorem replay_tells_an_old_stop :
    ¬ SameStatus
      (replayed (cacheAfter none [⟨1, "stopped", none⟩, ⟨2, "continued", none⟩]))
      (tracked .new [⟨1, "stopped", none⟩, ⟨2, "continued", none⟩]) := by
  rintro ⟨h, -⟩
  exact absurd h (by decide)

end DappyCore.Replay
