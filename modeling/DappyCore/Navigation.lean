import DappyCore.ControlSteps

/-!
Navigation: a command that resumes the program, and the stop that is reported for it.

A stop that was put aside before the command was written is reported as if the command had led
to it.
-/

namespace DappyCore.Control

open Lib Lib.Effect Lib.Inbox Json Protocol Transport Execution

/-- Debugger navigation commands exposed by the control plane. -/
inductive NavigationType
  | «continue» | stepOver | stepIn | stepOut | pause | stepBack | reverseContinue
  deriving DecidableEq

namespace NavigationType

def dapCommand : NavigationType → String
  | «continue» => "continue"
  | stepOver => "next"
  | stepIn => "stepIn"
  | stepOut => "stepOut"
  | pause => "pause"
  | stepBack => "stepBack"
  | reverseContinue => "reverseContinue"

def waitsForStop : NavigationType → Bool
  | «continue» | pause | reverseContinue => true
  | _ => false

def arguments (_ : NavigationType) (threadId : ℤ) : Value := .obj [("threadId", .int threadId)]

end NavigationType

/-- Result of a navigation command. -/
structure NavigateResult where
  navigationType : NavigationType
  success : Bool
  stopReason : Option String
  threadId : Option ℤ

/-- The event among these messages that the tracker has its stop reason from. -/
def reasonSetter (messages : List Received) : Option Received :=
  lastOf (fun x => (event? x.1).any setsReason) messages

/-- The result of a navigation that went through. -/
def reported (navigationType : NavigationType) (threadId : ℤ) (stopReason : Option String)
    (stoppedThread : Option ℤ) : NavigateResult where
  navigationType
  success := true
  stopReason
  threadId := stoppedThread.or (some threadId)

/-- A navigation, and with its result the event that the stop reason was read from. -/
def navigateFrom (navigationType : NavigationType) (threadId : ℤ) :
    Client (NavigateResult × Option Received) := do
  let _ ← dapRequestPreserveEvents navigationType.dapCommand
    (some (navigationType.arguments threadId))
  if navigationType.waitsForStop then
    let stopped ← waitForEvent "stopped" 30
    let body := eventBody stopped.1
    let stoppedThread := (body.bind fun b => b.get "threadId").bind Value.asI64
    return (reported navigationType threadId (bodyStr body "reason") stoppedThread, some stopped)
  else
    let drained ← drain 200
    let summary := (applied .new (drained.map (·.1))).state
    return (reported navigationType threadId summary.stopReason summary.threadId,
      reasonSetter drained)

def navigate (navigationType : NavigationType) (threadId : ℤ) : Client NavigateResult := do
  let r ← navigateFrom navigationType threadId
  return r.1

/-! ### The event a stop reason comes from -/

/-- The stop reason that an event sets. -/
def reasonIn (x : Received) : Option String := (event? x.1).bind reasonOf

def isStop (x : Received) : Bool := eventNamed "stopped" x.1

lemma reason_applied (messages : List Received) :
    (applied .new (messages.map (·.1))).state.stopReason =
      (reasonSetter messages).bind reasonIn := by
  have h := foldl_lastOf (f := fun t (x : Received) => t.applyMessage x.1)
    (g := fun t : ExecutionStateTracker => t.state.stopReason)
    (p := fun x : Received => (event? x.1).any setsReason) (v := reasonIn)
    (fun t x hx => by
      obtain ⟨m, n⟩ := x
      cases m with
      | event e => exact reason_nextState hx t.state
      | _ => simp [event?] at hx)
    (fun t x hx => by
      obtain ⟨m, n⟩ := x
      cases m with
      | event e => exact reason_nextState_of_not hx t.state
      | _ => rfl)
    .new messages
  rw [applied, List.foldl_map, h]
  unfold reasonSetter
  cases lastOf _ messages <;> rfl

lemma reasonIn_of_isStop {x : Received} (h : isStop x) :
    reasonIn x = bodyStr (eventBody x.1) "reason" := by
  obtain ⟨m, n⟩ := x
  cases m with
  | event e =>
    have he : e.event = "stopped" := of_decide_eq_true h
    simp [reasonIn, eventBody, event?, reasonOf, he]
  | _ => simp [isStop, eventNamed] at h

/-! ### The ways a navigation goes through -/

variable {k : NavigationType} {threadId : ℤ} {c d : ControlClient}
  {r : NavigateResult} {o : Option Received}

/-- The client once its command was answered. -/
def ControlClient.answered (c : ControlClient) (k : NavigationType) (threadId : ℤ)
    (l : List Message) (rest : Wire) : ControlClient :=
  { c.sent k.dapCommand (some (k.arguments threadId)) with inbox := c.inbox.passed l rest }

theorem navigateFrom_waits (hk : k.waitsForStop) :
    navigateFrom k threadId c = .ok (r, o) d ↔
      ∃ l m rest x, Answers c l m rest ∧
        waitForEvent "stopped" 30 (c.answered k threadId l rest) = .ok x d ∧ o = some x ∧
        r = reported k threadId (bodyStr (eventBody x.1) "reason")
          (((eventBody x.1).bind fun b => b.get "threadId").bind Value.asI64) := by
  rw [navigateFrom, if_pos hk, bind_eq_ok]
  constructor
  · rintro ⟨y, u, hy, h⟩
    obtain ⟨l, m, rest, ha, rfl, rfl⟩ := dapRequestPreserveEvents_eq_ok.mp hy
    obtain ⟨x, v, hx, h⟩ := bind_eq_ok.mp h
    simp only [pure_apply, EStateM.Result.ok.injEq, Prod.mk.injEq] at h
    obtain ⟨⟨rfl, rfl⟩, rfl⟩ := h
    exact ⟨l, m, rest, x, ha, hx, rfl, rfl⟩
  · rintro ⟨l, m, rest, x, ha, hx, rfl, rfl⟩
    refine ⟨_, _, dapRequestPreserveEvents_eq_ok.mpr ⟨l, m, rest, ha, rfl, rfl⟩, ?_⟩
    exact bind_eq_ok.mpr ⟨_, _, hx, rfl⟩

/-- The messages that a step drains. -/
def stepHears (c : ControlClient) (l heard : List Message) : List Received :=
  c.inbox.pending ++ l.zipIdx c.inbox.taken ++ heard.zipIdx (c.inbox.taken + l.length + 1)

theorem navigateFrom_steps (hk : ¬ k.waitsForStop) :
    navigateFrom k threadId c = .ok (r, o) d ↔
      ∃ l m rest heard w, Answers c l m rest ∧ Drains rest heard w ∧
        d = (c.answered k threadId l rest).drained heard w ∧
        o = reasonSetter (stepHears c l heard) ∧
        r = reported k threadId ((reasonSetter (stepHears c l heard)).bind reasonIn)
          (applied .new ((stepHears c l heard).map (·.1))).state.threadId := by
  rw [navigateFrom, if_neg hk, bind_eq_ok]
  constructor
  · rintro ⟨y, u, hy, h⟩
    obtain ⟨l, m, rest, ha, rfl, rfl⟩ := dapRequestPreserveEvents_eq_ok.mp hy
    obtain ⟨out, v, hv, h⟩ := bind_eq_ok.mp h
    obtain ⟨heard, w, hd, rfl, rfl⟩ := (drain_eq_ok (by omega)).mp hv
    simp only [pure_apply, EStateM.Result.ok.injEq, Prod.mk.injEq] at h
    obtain ⟨⟨rfl, rfl⟩, rfl⟩ := h
    refine ⟨l, m, rest, heard, w, ha, hd, rfl, rfl, ?_⟩
    rw [reason_applied]
    rfl
  · rintro ⟨l, m, rest, heard, w, ha, hd, rfl, rfl, rfl⟩
    refine ⟨_, _, dapRequestPreserveEvents_eq_ok.mpr ⟨l, m, rest, ha, rfl, rfl⟩, ?_⟩
    refine bind_eq_ok.mpr ⟨_, _, (drain_eq_ok (by omega)).mpr ⟨heard, w, hd, rfl, rfl⟩, ?_⟩
    rw [pure_apply, reason_applied]
    rfl

lemma navigate_eq_ok :
    navigate k threadId c = .ok r d ↔ ∃ o, navigateFrom k threadId c = .ok (r, o) d := by
  rw [navigate, bind_eq_ok]
  constructor
  · rintro ⟨⟨r', o⟩, u, hn, h⟩
    simp only [pure_apply, EStateM.Result.ok.injEq] at h
    obtain ⟨rfl, rfl⟩ := h
    exact ⟨o, hn⟩
  · rintro ⟨o, hn⟩
    exact ⟨_, _, hn, rfl⟩

/-- **The stop reason** is the one in the event it was read from. -/
theorem stopReason_navigateFrom (h : navigateFrom k threadId c = .ok (r, o) d) :
    r.stopReason = o.bind reasonIn := by
  by_cases hk : k.waitsForStop
  · obtain ⟨l, m, rest, x, -, hx, rfl, rfl⟩ := (navigateFrom_waits hk).mp h
    have hs : isStop x := by
      rcases (waitForEvent_eq_ok (by omega)).mp hx with ⟨hp, -⟩ | ⟨-, l', m', rest', hb, rfl, -⟩
      · exact List.find?_some hp
      · exact hb.fits
    rw [Option.bind_some, reasonIn_of_isStop hs]
    rfl
  · obtain ⟨l, m, rest, heard, w, -, -, -, rfl, rfl⟩ := (navigateFrom_steps hk).mp h
    rfl

/-! ### Stale stops -/

/-- The client when these messages have come in and it has not read them. -/
def ControlClient.unread (c : ControlClient) (early : List Message) : ControlClient :=
  { c with inbox := { c.inbox with arrivals := early.map .item ++ c.inbox.arrivals } }

/-- The messages that the client, or its connection, had before. -/
def ControlClient.had (c : ControlClient) (early : List Message) : List Received :=
  c.inbox.pending ++ early.zipIdx c.inbox.taken

/-- A stop reason that is reported comes from a stop, and not from one there was before. -/
def FreshStop (k : NavigationType) (threadId : ℤ) (c : ControlClient) (early : List Message) :
    Prop :=
  ∀ r d, navigate k threadId (c.unread early) = .ok r d → r.stopReason.isSome →
    ∃ x, navigateFrom k threadId (c.unread early) = .ok (r, some x) d ∧ isStop x ∧
      x ∉ c.had early

/-- What the client has put aside and what will come in. -/
def ControlClient.line (c : ControlClient) : List Received := c.inbox.pending ++ c.inbox.wire

lemma isStop_response {l : List Message} {m : Message} {rest : Wire} (h : Answers c l m rest)
    (n : ℕ) : isStop (m, n) = false := by
  have hf := h.2.fits
  cases m with
  | response r => rfl
  | _ => simp [responseMatchesSeq] at hf

/-- What is left of the line once the command was answered has the same first stop. -/
lemma find?_line_answered {l : List Message} {m : Message} {rest : Wire}
    (h : Answers c l m rest) (k : NavigationType) (threadId : ℤ) :
    (c.answered k threadId l rest).line.find? isStop = c.line.find? isStop := by
  have hm := isStop_response h (c.inbox.taken + l.length)
  simp only [ControlClient.line, ControlClient.answered, passed, Inbox.wire, items_of_brings h.2,
    List.zipIdx_append, List.zipIdx_cons, List.find?_append, List.find?_cons_of_neg, hm,
    Option.or_assoc, Bool.false_eq_true, not_false_eq_true]

/-- **The stop awaited** is the first on the line. -/
lemma find?_line_of_waitForEvent {x : Received} (h : waitForEvent "stopped" 30 c = .ok x d) :
    c.line.find? isStop = some x := by
  rcases (waitForEvent_eq_ok (by omega)).mp h with ⟨hp, -⟩ | ⟨hp, l, m, rest, hb, rfl, -⟩
  · rw [ControlClient.line, List.find?_append, show c.inbox.pending.find? isStop = some x from hp]
    rfl
  · rw [ControlClient.line, List.find?_append, show c.inbox.pending.find? isStop = none from hp]
    exact find?_of_brings hb c.inbox.taken

lemma line_unread (c : ControlClient) (early : List Message) :
    (c.unread early).line =
      c.had early ++ (items c.inbox.arrivals).zipIdx (c.inbox.taken + early.length) := by
  simp [ControlClient.line, ControlClient.unread, ControlClient.had, Inbox.wire, items_append,
    List.zipIdx_append]

/-- An answered client that had a stop finds one. -/
lemma exists_waitForEvent (k : NavigationType) (threadId : ℤ) {early l : List Message}
    {m : Message} {rest : Wire}
    (ha : Answers (c.unread early) l m rest) {x : Received} (hx : x ∈ c.had early) (hs : isStop x) :
    ∃ y d, waitForEvent "stopped" 30 ((c.unread early).answered k threadId l rest) = .ok y d := by
  cases hp : pendingEvent ((c.unread early).answered k threadId l rest) "stopped" with
  | some y => exact ⟨y, _, (waitForEvent_eq_ok (by omega)).mpr (.inl ⟨hp, rfl⟩)⟩
  | none =>
    -- no stop was put aside so far, so the one there is comes in after the answer
    have hnone := List.find?_eq_none.mp hp
    have hearly : x.1 ∈ early := by
      rcases List.mem_append.mp hx with h | h
      · exact absurd hs (hnone x (List.mem_append_left _ h))
      · exact List.fst_mem_of_mem_zipIdx h
    have hl : x.1 ∉ l := by
      intro h
      rw [← List.zipIdx_map_fst c.inbox.taken l] at h
      obtain ⟨y, hy, he⟩ := List.mem_map.mp h
      have hn := hnone y (List.mem_append_right _ hy)
      rw [he] at hn
      exact hn hs
    rcases ha.2.split with ⟨l', rfl⟩ | ⟨l', rfl, rfl⟩
    · exact absurd (List.mem_append_left _ hearly) hl
    · have hm : x.1 ≠ m := by
        rintro rfl
        rw [isStop_response ha x.2] at hs
        exact Bool.false_ne_true hs
      have hl' : x.1 ∈ l' := by simpa [hl, hm] using hearly
      obtain ⟨l₁, a, rest', hb⟩ := exists_brings hl' hs c.inbox.arrivals
      exact ⟨_, _, (waitForEvent_eq_ok (by omega)).mpr (.inr ⟨hp, l₁, a, rest', hb, rfl, rfl⟩)⟩

lemma FreshStop.of_navigateFrom {early : List Message} (h : FreshStop k threadId c early)
    {x : Received} (hn : navigateFrom k threadId (c.unread early) = .ok (r, some x) d)
    (hr : reasonIn x ≠ none) : isStop x ∧ x ∉ c.had early := by
  have hreason : r.stopReason = reasonIn x := stopReason_navigateFrom hn
  obtain ⟨y, hy, hs⟩ := h r d (navigate_eq_ok.mpr ⟨_, hn⟩)
    (hreason ▸ Option.isSome_iff_ne_none.mpr hr)
  have hxy := hn.symm.trans hy
  simp only [EStateM.Result.ok.injEq, Prod.mk.injEq, Option.some.injEq, true_and, and_true] at hxy
  exact hxy ▸ hs

/-- The navigation that would report a stale stop is not answered, or the stop has no reason. -/
structure NoStaleStop (k : NavigationType) (c : ControlClient) (early : List Message) : Prop where
  /-- A command that waits for the stop: the first stop there was before has no reason. -/
  waits : k.waitsForStop → ∀ l m rest, Answers (c.unread early) l m rest →
    ∀ x, (c.had early).find? isStop = some x → reasonIn x = none
  /-- A step: of all that is drained, the last that sets the reason is a new stop, or sets none. -/
  steps : ¬ k.waitsForStop → ∀ l m rest heard w, Answers (c.unread early) l m rest →
    Drains rest heard w → ∀ x, reasonSetter (stepHears (c.unread early) l heard) = some x →
      (isStop x ∧ x ∉ c.had early) ∨ reasonIn x = none

/-- **A navigation reports a fresh stop** exactly when there was no stale one to report. -/
theorem navigation_fresh_iff (k : NavigationType) (threadId : ℤ) (c : ControlClient)
    (early : List Message) : FreshStop k threadId c early ↔ NoStaleStop k c early := by
  constructor
  · intro h
    refine ⟨fun hk l m rest ha x hx => ?_, fun hk l m rest heard w ha hd x hx => ?_⟩
    · -- the stop that was kept from earlier is the one that the navigation reports
      have hmem := List.mem_of_find?_eq_some hx
      obtain ⟨y, d, hy⟩ := exists_waitForEvent k threadId ha hmem (List.find?_some hx)
      have hline := find?_line_of_waitForEvent hy
      rw [find?_line_answered ha, line_unread, List.find?_append, hx, Option.some_or,
        Option.some.injEq] at hline
      subst hline
      have hn := (navigateFrom_waits hk).mpr ⟨l, m, rest, x, ha, hy, rfl, rfl⟩
      by_contra hr
      exact (h.of_navigateFrom hn hr).2 hmem
    · -- the stop that a step heard last
      obtain ⟨r, d, hn⟩ : ∃ r d, navigateFrom k threadId (c.unread early) = .ok (r, some x) d :=
        ⟨_, _, (navigateFrom_steps hk).mpr ⟨l, m, rest, heard, w, ha, hd, rfl, hx.symm, rfl⟩⟩
      by_cases hr : reasonIn x = none
      · exact .inr hr
      · exact .inl (h.of_navigateFrom hn hr)
  · intro h r d hr hreason
    obtain ⟨o, hn⟩ := navigate_eq_ok.mp hr
    rw [stopReason_navigateFrom hn] at hreason
    obtain ⟨x, rfl⟩ : ∃ x, o = some x := by
      cases o with
      | none => simp at hreason
      | some x => exact ⟨x, rfl⟩
    have hsome : reasonIn x ≠ none := Option.isSome_iff_ne_none.mp hreason
    refine ⟨x, hn, ?_⟩
    by_cases hk : k.waitsForStop
    · -- it waits for a stop: had there been one before, that would have been reported
      obtain ⟨l, m, rest, y, ha, hy, hxy, -⟩ := (navigateFrom_waits hk).mp hn
      obtain rfl := Option.some.inj hxy
      have hline := find?_line_of_waitForEvent hy
      refine ⟨List.find?_some hline, fun hmem => hsome ?_⟩
      have hold : (c.had early).find? isStop ≠ none := fun hnone =>
        List.find?_eq_none.mp hnone x hmem (List.find?_some hline)
      obtain ⟨y, hfirst⟩ := Option.ne_none_iff_exists'.mp hold
      rw [find?_line_answered ha, line_unread, List.find?_append, hfirst, Option.some_or] at hline
      exact h.waits hk l m rest ha x (hfirst.trans hline)
    · -- it reports what it has heard while it waited for nothing
      obtain ⟨l, m, rest, heard, w, ha, hd, -, hx, -⟩ := (navigateFrom_steps hk).mp hn
      rcases h.steps hk l m rest heard w ha hd x hx.symm with hs | hs
      · exact hs
      · exact absurd hs hsome

/-- The stop at the entry was put aside; the program then runs and does not stop again. -/
def stoppedAtEntry : ControlClient :=
  { fromDuplex [] fun _ => .ok () with
    inbox := ⟨[.item (.response ⟨2, 1, true, some "continue", none, none⟩)], 1,
      [(.event ⟨1, "stopped", some (.obj [("reason", .string "entry")])⟩, 0)]⟩ }

theorem entry_stop_is_reported : ¬ FreshStop .continue 1 stoppedAtEntry [] := by
  intro h
  have hn : navigateFrom .continue 1 stoppedAtEntry =
      .ok (reported .continue 1 (some "entry") none, stoppedAtEntry.inbox.pending.head?)
        (stateOf (navigateFrom .continue 1 stoppedAtEntry)) := rfl
  exact (h.of_navigateFrom hn (by decide)).2 (List.mem_cons_self ..)

end DappyCore.Control
