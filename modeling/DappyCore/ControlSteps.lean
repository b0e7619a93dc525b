import DappyCore.ControlClient

/-!
When the calls of the control client come to a result, and what is left then, said about what
the connection brings. The proofs about the calls use these and look no further into the
definitions.
-/

namespace DappyCore.Control

open Lib Lib.Effect Lib.Inbox Json Protocol Transport

variable {c d : ControlClient} {x : Received}

/-! ### One wait -/

lemma waitOn_eq_ok {wait : Inbox Message ProtocolError →
    Except (Ended ProtocolError) Received × Inbox Message ProtocolError}
    {stop : Ended ProtocolError → Stop} :
    waitOn wait stop c = .ok x d ↔
      ∃ b, wait c.inbox = (.ok x, b) ∧ d = { c with inbox := b } := by
  rw [waitOn, bind_of_ok (onInbox_apply ..)]
  rcases wait c.inbox with ⟨_ | y, b⟩
  · simp
  · simp [eq_comm]

/-- A wait that comes to the message `comes` speaks of leaves the inbox as the wait does. -/
lemma waitOn_of_wait {wait : Inbox Message ProtocolError →
    Except (Ended ProtocolError) Received × Inbox Message ProtocolError}
    {comes : Wire → List Message → Message → Wire → Prop}
    {after : Inbox Message ProtocolError → List Message → Wire → Inbox Message ProtocolError}
    (hwait : ∀ {b b' : Inbox Message ProtocolError} {x : Received}, wait b = (.ok x, b') ↔
      ∃ l m rest, comes b.arrivals l m rest ∧ x = (m, b.taken + l.length) ∧ b' = after b l rest)
    {stop : Ended ProtocolError → Stop} :
    waitOn wait stop c = .ok x d ↔
      ∃ l m rest, comes c.inbox.arrivals l m rest ∧ x = (m, c.inbox.taken + l.length) ∧
        d = { c with inbox := after c.inbox l rest } := by
  rw [waitOn_eq_ok]
  constructor
  · rintro ⟨b, h, rfl⟩
    obtain ⟨l, m, rest, hb, rfl, rfl⟩ := hwait.mp h
    exact ⟨l, m, rest, hb, rfl, rfl⟩
  · rintro ⟨l, m, rest, hb, rfl, rfl⟩
    exact ⟨_, hwait.mpr ⟨l, m, rest, hb, rfl, rfl⟩, rfl⟩

theorem readUntil_eq_ok {fits : Message → Bool} {stop : Ended ProtocolError → Stop} :
    readUntil false fits stop c = .ok x d ↔
      ∃ l m rest, Brings fits c.inbox.arrivals l m rest ∧ x = (m, c.inbox.taken + l.length) ∧
        d = { c with inbox := c.inbox.passed l rest } := by
  rw [readUntil]
  exact waitOn_of_wait seek_eq_ok

theorem readOn_eq_ok {fits : Message → Bool} {stop : Ended ProtocolError → Stop} :
    readUntil true fits stop c = .ok x d ↔
      ∃ l m rest, Reaches fits c.inbox.arrivals l m rest ∧ x = (m, c.inbox.taken + l.length) ∧
        d = { c with inbox := c.inbox.passed l rest } := by
  rw [readUntil]
  exact waitOn_of_wait seek_patient_eq_ok

theorem skipUntil_eq_ok {fits : Message → Bool} {stop : Ended ProtocolError → Stop} :
    skipUntil fits stop c = .ok x d ↔
      ∃ l m rest, Brings fits c.inbox.arrivals l m rest ∧ x = (m, c.inbox.taken + l.length) ∧
        d = { c with inbox := c.inbox.dropped l rest } := by
  rw [skipUntil]
  exact waitOn_of_wait skip_eq_ok

theorem gather_eq_ok {out : List Received} :
    gather c = .ok out d ↔
      ∃ l rest, Lulls c.inbox.arrivals l rest ∧ out = l.zipIdx c.inbox.taken ∧
        d = { c with inbox := c.inbox.emptied l rest } := by
  rw [gather, bind_of_ok (onInbox_apply ..)]
  rcases hr : c.inbox.gather with ⟨r, b⟩
  constructor
  · intro h
    cases r with
    | error e => simp [bail] at h
    | ok y =>
      simp only [pure_apply, EStateM.Result.ok.injEq] at h
      obtain ⟨rfl, rfl⟩ := h
      obtain ⟨l, rest, hl, rfl, rfl⟩ := Inbox.gather_eq_ok.mp hr
      exact ⟨l, rest, hl, rfl, rfl⟩
  · rintro ⟨l, rest, hl, rfl, rfl⟩
    obtain ⟨rfl, rfl⟩ :=
      Prod.mk.inj (hr.symm.trans (Inbox.gather_eq_ok.mpr ⟨l, rest, hl, rfl, rfl⟩))
    rfl

/-! ### Requests -/

theorem sendDapRequest_eq_ok {command : String} {arguments : Option Value} {seq : ℤ} :
    sendDapRequest command arguments c = .ok seq d ↔
      c.accepts c.seq = .ok () ∧ seq = c.seq ∧ d = c.sent command arguments := by
  cases h : c.accepts c.seq with
  | error e => simp [sendDapRequest_error h]
  | ok u => simp [sendDapRequest_ok h, eq_comm]

/-- A request whose response the connection brings. -/
def Answers (c : ControlClient) (l : List Message) (m : Message) (rest : Wire) : Prop :=
  c.accepts c.seq = .ok () ∧ Brings (responseMatchesSeq c.seq) c.inbox.arrivals l m rest

/-- A request, and a wait for its response that leaves the inbox in some way. -/
lemma send_then_eq_ok {command : String} {arguments : Option Value} {await : ℤ → Client Received}
    {after : Inbox Message ProtocolError → List Message → Wire → Inbox Message ProtocolError}
    (hawait : ∀ {u : ControlClient} {seq : ℤ}, await seq u = .ok x d ↔
      ∃ l m rest, Brings (responseMatchesSeq seq) u.inbox.arrivals l m rest ∧
        x = (m, u.inbox.taken + l.length) ∧ d = { u with inbox := after u.inbox l rest }) :
    (sendDapRequest command arguments >>= await) c = .ok x d ↔
      ∃ l m rest, Answers c l m rest ∧ x = (m, c.inbox.taken + l.length) ∧
        d = { c.sent command arguments with inbox := after c.inbox l rest } := by
  rw [bind_eq_ok]
  constructor
  · rintro ⟨seq, u, hs, h⟩
    obtain ⟨ha, rfl, rfl⟩ := sendDapRequest_eq_ok.mp hs
    obtain ⟨l, m, rest, hb, rfl, rfl⟩ := hawait.mp h
    exact ⟨l, m, rest, ⟨ha, hb⟩, rfl, rfl⟩
  · rintro ⟨l, m, rest, ⟨ha, hb⟩, rfl, rfl⟩
    exact ⟨_, _, sendDapRequest_ok ha .., hawait.mpr ⟨l, m, rest, hb, rfl, rfl⟩⟩

theorem dapRequestPreserveEvents_eq_ok {command : String} {arguments : Option Value} :
    dapRequestPreserveEvents command arguments c = .ok x d ↔
      ∃ l m rest, Answers c l m rest ∧ x = (m, c.inbox.taken + l.length) ∧
        d = { c.sent command arguments with inbox := c.inbox.passed l rest } := by
  rw [dapRequestPreserveEvents]
  exact send_then_eq_ok readUntil_eq_ok

theorem dapRequest_eq_ok {command : String} {arguments : Option Value} :
    dapRequest command arguments c = .ok x d ↔
      ∃ l m rest, Answers c l m rest ∧ x = (m, c.inbox.taken + l.length) ∧
        d = { c.sent command arguments with inbox := c.inbox.dropped l rest } := by
  rw [dapRequest]
  exact send_then_eq_ok skipUntil_eq_ok

theorem sendDapRequestAndWaitForEventInner_eq_ok {command eventName : String}
    {arguments : Option Value} {r : ℤ × Received} :
    sendDapRequestAndWaitForEventInner command arguments eventName c = .ok r d ↔
      c.accepts c.seq = .ok () ∧ ∃ l m rest,
        Brings (eventNamed eventName) c.inbox.arrivals l m rest ∧
        r = (c.seq, m, c.inbox.taken + l.length) ∧
        d = { c.sent command arguments with inbox := c.inbox.passed l rest } := by
  rw [sendDapRequestAndWaitForEventInner, bind_eq_ok]
  constructor
  · rintro ⟨seq, u, hs, h⟩
    obtain ⟨ha, rfl, rfl⟩ := sendDapRequest_eq_ok.mp hs
    obtain ⟨y, v, hy, h⟩ := bind_eq_ok.mp h
    obtain ⟨l, m, rest, hb, rfl, rfl⟩ := readUntil_eq_ok.mp hy
    simp only [pure_apply, EStateM.Result.ok.injEq] at h
    obtain ⟨rfl, rfl⟩ := h
    exact ⟨ha, l, m, rest, hb, rfl, rfl⟩
  · rintro ⟨ha, l, m, rest, hb, rfl, rfl⟩
    refine ⟨_, _, sendDapRequest_ok ha .., bind_eq_ok.mpr ?_⟩
    exact ⟨_, _, readUntil_eq_ok.mpr ⟨l, m, rest, hb, rfl, rfl⟩, rfl⟩

/-! ### Waits that look at what was put aside -/

/-- A wait comes to a message: the first of those put aside that fits, or else one that comes
in. -/
abbrev Finds (fits : Message → Bool) (comes : Wire → List Message → Message → Wire → Prop)
    (c : ControlClient) (x : Received) (d : ControlClient) : Prop :=
  (c.inbox.pending.find? (fun y => fits y.1) = some x ∧
      d = { c with inbox := (c.inbox.pick fits).2 }) ∨
    (c.inbox.pending.find? (fun y => fits y.1) = none ∧ ∃ l m rest,
      comes c.inbox.arrivals l m rest ∧ x = (m, c.inbox.taken + l.length) ∧
        d = { c with inbox := c.inbox.passed l rest })

/-- Nothing was put aside that fits, so nothing is taken from there. -/
lemma pick_of_none {fits : Message → Bool}
    (h : c.inbox.pending.find? (fun y => fits y.1) = none) : (c.inbox.pick fits).2 = c.inbox := by
  have he := List.find?_eq_none.mp h
  simp only [pick]
  rw [List.eraseP_of_forall_not he]

/-- The first of the messages put aside that is an event of this name. -/
abbrev pendingEvent (c : ControlClient) (name : String) : Option Received :=
  c.inbox.pending.find? fun x => eventNamed name x.1

theorem waitForEvent_eq_ok {name : String} {timeout : ℕ} (ht : timeout ≠ 0) :
    waitForEvent name timeout c = .ok x d ↔
      Finds (eventNamed name) (Brings (eventNamed name)) c x d := by
  rw [waitForEvent, takePending, bind_of_ok (onInbox_apply ..)]
  have hp : (c.inbox.pick (eventNamed name)).1 =
    c.inbox.pending.find? fun y => eventNamed name y.1 := rfl
  rw [hp, Finds]
  cases h : c.inbox.pending.find? fun y => eventNamed name y.1 with
  | some y => simp [eq_comm]
  | none =>
    simp only [if_neg ht, pick_of_none h, reduceCtorEq, false_and, true_and, false_or]
    exact readUntil_eq_ok

theorem waitForResponse_eq_ok {fits : Message → Bool} {closed : String} :
    waitForResponse fits closed c = .ok x d ↔ Finds fits (Reaches fits) c x d := by
  rw [waitForResponse, takePending, bind_of_ok (onInbox_apply ..)]
  have hp : (c.inbox.pick fits).1 = c.inbox.pending.find? fun y => fits y.1 := rfl
  rw [hp, Finds]
  cases h : c.inbox.pending.find? fun y => fits y.1 with
  | some y => simp [eq_comm]
  | none =>
    simp only [pick_of_none h, reduceCtorEq, false_and, true_and, false_or]
    exact readOn_eq_ok

/-! ### Draining -/

/-- What a drain hears: the messages up to the second lull. -/
def Drains (w : Wire) (l : List Message) (rest : Wire) : Prop :=
  ∃ l₁ w₁ l₂, Lulls w l₁ w₁ ∧ Lulls w₁ l₂ rest ∧ l = l₁ ++ l₂

/-- The client after a drain. -/
def ControlClient.drained (c : ControlClient) (l : List Message) (rest : Wire) : ControlClient :=
  { c with inbox := ⟨rest, c.inbox.taken + l.length, []⟩ }

theorem drain_eq_ok {timeout : ℕ} {out : List Received} (ht : timeout ≠ 0) :
    drain timeout c = .ok out d ↔
      ∃ l rest, Drains c.inbox.arrivals l rest ∧
        out = c.inbox.pending ++ l.zipIdx c.inbox.taken ∧
        d = c.drained l rest := by
  rw [drain, bind_of_ok (onInbox_apply ..), if_neg ht, bind_eq_ok]
  constructor
  · rintro ⟨more, u, hm, h⟩
    obtain ⟨l, rest, hl, rfl, rfl⟩ := gather_eq_ok.mp hm
    obtain ⟨late, v, hv, h⟩ := bind_eq_ok.mp h
    obtain ⟨l', rest', hl', rfl, rfl⟩ := gather_eq_ok.mp hv
    simp only [pure_apply, EStateM.Result.ok.injEq] at h
    obtain ⟨rfl, rfl⟩ := h
    refine ⟨l ++ l', rest', ⟨l, rest, l', hl, hl', rfl⟩, ?_, ?_⟩
    · simp [unload, emptied, List.zipIdx_append]
    · simp [unload, emptied, ControlClient.drained, Nat.add_assoc]
  · rintro ⟨_, rest', ⟨l, rest, l', hl, hl', rfl⟩, rfl, rfl⟩
    refine ⟨_, _, gather_eq_ok.mpr ⟨l, rest, hl, rfl, rfl⟩, bind_eq_ok.mpr ?_⟩
    refine ⟨_, _, gather_eq_ok.mpr ⟨l', rest', hl', rfl, rfl⟩, ?_⟩
    simp [unload, emptied, ControlClient.drained, List.zipIdx_append, Nat.add_assoc]

/-- What is drained was put aside before, or is what was taken. -/
lemma took_drains {b : Inbox Message ProtocolError} {l : List Message} {rest : Wire}
    (h : Drains b.arrivals l rest) (pending : List Received) :
    Took b ⟨rest, b.taken + l.length, pending⟩ (l.zipIdx b.taken) := by
  obtain ⟨l₁, w₁, l₂, h₁, h₂, rfl⟩ := h
  have ht := (took_lulls b h₁).trans (took_lulls (b.emptied l₁ w₁) h₂)
  rw [show (b.emptied l₁ w₁).taken = b.taken + l₁.length from rfl, ← List.zipIdx_append] at ht
  simpa [emptied, Nat.add_assoc] using ht.congr

theorem took_drain {timeout : ℕ} {out : List Received} (ht : timeout ≠ 0)
    (h : drain timeout c = .ok out d) :
    ∃ got, Took c.inbox d.inbox got ∧ out = c.inbox.pending ++ got ∧ d.inbox.pending = [] := by
  obtain ⟨l, rest, hl, rfl, rfl⟩ := (drain_eq_ok ht).mp h
  exact ⟨l.zipIdx c.inbox.taken, took_drains hl [], rfl, rfl⟩

end DappyCore.Control
