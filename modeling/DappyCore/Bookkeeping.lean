import DappyCore.ControlSteps
import Mathlib.Algebra.Ring.Int.Defs
import Mathlib.Algebra.Ring.Nat

/-!
What the control client does with the messages it takes from the connection: whatever calls are
made, each of them is kept for later, in the order of arrival, until it is handed out once.
-/

namespace DappyCore.Control

open Lib Lib.Effect Lib.Inbox Json Protocol Transport
open scoped List

/-- No read of the connection fails. -/
def ErrorFree (arrivals : Wire) : Prop := ∀ e, Arrival.failed e ∉ arrivals

/-- What a call hands out, if it comes to a result. -/
def outcome {α : Type} (r : EStateM.Result Stop ControlClient α) (out : α → List Received) :
    List Received :=
  match r with
  | .ok a _ => out a
  | .error _ _ => []

@[simp] lemma outcome_ok {α : Type} (a : α) (c : ControlClient) (out : α → List Received) :
    outcome (.ok a c) out = out a := rfl

@[simp] lemma outcome_error {α : Type} (stop : Stop) (c : ControlClient)
    (out : α → List Received) : outcome (.error stop c) out = [] := rfl

/-- A call that accounts for the messages it takes, where `out` are those in its result. -/
def Accounted {α : Type} (x : Client α) (out : α → List Received) : Prop :=
  ∀ c : ControlClient, ErrorFree c.inbox.arrivals →
    Accounts c.inbox (stateOf (x c)).inbox (outcome (x c) out)

lemma ErrorFree.of_accounts {b b' : Inbox Message ProtocolError} {out : List Received}
    (h : ErrorFree b.arrivals) (ha : Accounts b b' out) : ErrorFree b'.arrivals :=
  fun e he => h e (ha.choose_spec.1.suffix.subset he)

/-! ### How calls are put together -/

section Rules

variable {α β : Type} {x : Client α} {f : α → Client β} {out : α → List Received}
  {out' : β → List Received}

/-- **One call after another**: the second hands on what the first brought, or goes on after
the first brought nothing. -/
lemma Accounted.bind (hx : Accounted x out)
    (hf : ∀ a, (out a = [] ∧ Accounted (f a) out') ∨ ∃ b, f a = pure b ∧ out' b = out a) :
    Accounted (x >>= f) out' := by
  intro c hc
  have hxc := hx c hc
  cases h : x c with
  | error stop d =>
    rw [bind_of_error h]
    simpa [h] using hxc
  | ok a d =>
    rw [h] at hxc
    rw [bind_of_ok h]
    rcases hf a with ⟨hout, ha⟩ | ⟨b, hb, hout⟩
    · rw [outcome_ok, hout] at hxc
      exact hxc.trans (ha d (hc.of_accounts hxc))
    · simpa [hb, hout] using hxc

lemma accounted_throw (stop : Stop) : Accounted (throw stop) out' :=
  fun c _ => Accounts.refl c.inbox

end Rules

/-! ### The calls -/

lemma accounted_readUntil (patient : Bool) (fits : Message → Bool)
    (stop : Ended ProtocolError → Stop) :
    Accounted (readUntil patient fits stop) fun x => [x] := by
  intro c _
  have h := accounts_seek c.inbox patient fits
  rw [readUntil, waitOn, bind_of_ok (onInbox_apply ..)]
  cases hr : (c.inbox.seek patient fits).1 with
  | ok a => simpa [hr, Except.toOption] using h
  | error e => simpa [hr, Except.toOption] using h

lemma accounted_takePending (fits : Message → Bool) :
    Accounted (takePending fits) Option.toList :=
  fun c _ => accounts_pick c.inbox fits

lemma accounted_sendDapRequest (command : String) (arguments : Option Value) :
    Accounted (sendDapRequest command arguments) fun _ => [] := by
  intro c _
  cases h : c.accepts c.seq with
  | error e => rw [sendDapRequest_error h]; exact Accounts.refl c.inbox
  | ok => rw [sendDapRequest_ok h]; exact Accounts.refl c.inbox

lemma accounted_sendDapRequestAndWaitForEventInner (command : String) (arguments : Option Value)
    (eventName : String) :
    Accounted (sendDapRequestAndWaitForEventInner command arguments eventName) fun r => [r.2] :=
  (accounted_sendDapRequest command arguments).bind fun _ => .inl ⟨rfl,
    (accounted_readUntil _ _ _).bind fun _ => .inr ⟨_, rfl, rfl⟩⟩

lemma accounted_waitForResponse (fits : Message → Bool) (closed : String) :
    Accounted (waitForResponse fits closed) fun x => [x] := by
  refine (accounted_takePending fits).bind fun found => ?_
  cases found with
  | some x => exact .inr ⟨x, rfl, rfl⟩
  | none => exact .inl ⟨rfl, accounted_readUntil _ _ _⟩

lemma accounted_dapRequestPreserveEvents (command : String) (arguments : Option Value) :
    Accounted (dapRequestPreserveEvents command arguments) fun x => [x] :=
  (accounted_sendDapRequest command arguments).bind fun _ => .inl ⟨rfl, accounted_readUntil _ _ _⟩

lemma accounted_waitForEvent (name : String) (timeout : ℕ) :
    Accounted (waitForEvent name timeout) fun x => [x] := by
  refine (accounted_takePending _).bind fun found => ?_
  cases found with
  | some x => exact .inr ⟨x, rfl, rfl⟩
  | none =>
    refine .inl ⟨rfl, ?_⟩
    dsimp only
    split_ifs
    · exact accounted_throw _
    · exact accounted_readUntil _ _ _

lemma accounted_recvNext (patient : Bool) :
    Accounted (recvNext patient) fun r => r.toOption.toList := by
  refine (accounted_takePending _).bind fun found => ?_
  cases found with
  | some x => exact .inr ⟨.ok x, rfl, rfl⟩
  | none => exact .inl ⟨rfl, fun c _ => accounts_seek c.inbox patient _⟩

lemma accounted_readMessage : Accounted readMessage Option.toList := by
  refine (accounted_recvNext true).bind fun r => ?_
  match r with
  | .ok x => exact .inr ⟨some x, rfl, rfl⟩
  | .error .closed => exact .inr ⟨none, rfl, rfl⟩
  | .error (.failed e) => exact .inl ⟨rfl, accounted_throw _⟩
  | .error .paused => exact .inl ⟨rfl, accounted_throw _⟩

lemma accounted_recvTimeout : Accounted recvTimeout Option.toList := by
  refine (accounted_recvNext false).bind fun r => ?_
  match r with
  | .ok x => exact .inr ⟨some x, rfl, rfl⟩
  | .error (.failed e) => exact .inl ⟨rfl, accounted_throw _⟩
  | .error .closed => exact .inr ⟨none, rfl, rfl⟩
  | .error .paused => exact .inr ⟨none, rfl, rfl⟩

/-- Where no read fails, everything up to the next silence is brought. -/
lemma gather_ok {c : ControlClient} (hc : ErrorFree c.inbox.arrivals) :
    ∃ out d, gather c = .ok out d ∧ Accounts c.inbox d.inbox out := by
  have hout : ∃ out, c.inbox.gather.1 = .ok out := by
    simp only [Inbox.gather]
    split
    case h_1 e he => exact absurd (failed_mem_of_scan he) (hc e)
    case h_2 => exact ⟨_, rfl⟩
  obtain ⟨out, h⟩ := hout
  refine ⟨out, { c with inbox := c.inbox.gather.2 }, ?_, accounts_gather c.inbox h⟩
  rw [gather, bind_of_ok (onInbox_apply ..), h]
  rfl

/-- Where no read fails, draining comes to a result. -/
lemma drain_ok {c : ControlClient} (hc : ErrorFree c.inbox.arrivals) (timeout : ℕ) :
    ∃ out d, drain timeout c = .ok out d ∧ Accounts c.inbox d.inbox out := by
  have hu := accounts_unload c.inbox
  rw [drain, bind_of_ok (onInbox_apply ..)]
  by_cases ht : timeout = 0
  · exact ⟨_, _, by rw [if_pos ht]; rfl, hu⟩
  · have hc₁ := hc.of_accounts hu
    obtain ⟨more, c₂, h₂, ha₂⟩ :=
      gather_ok (c := { c with inbox := c.inbox.unload.2 }) hc₁
    obtain ⟨late, c₃, h₃, ha₃⟩ := gather_ok (hc₁.of_accounts ha₂)
    refine ⟨c.inbox.unload.1 ++ more ++ late, c₃, ?_, (hu.trans ha₂).trans ha₃⟩
    rw [if_neg ht, bind_of_ok h₂, bind_of_ok h₃]
    rfl

lemma accounted_drain (timeout : ℕ) : Accounted (drain timeout) id := by
  intro c hc
  obtain ⟨out, d, h, ha⟩ := drain_ok hc timeout
  simpa [h] using ha

/-! ### Sequences of calls -/

inductive Op
  | sendDapRequest (command : String) (arguments : Option Value)
  | sendDapRequestAndWaitForEvent (command : String) (arguments : Option Value)
      (eventName : String)
  | waitForResponseSeq (seq : ℤ)
  | waitForResponseNamed (command : String)
  | waitForEvent (name : String) (timeout : ℕ)
  | dapRequestPreserveEvents (command : String) (arguments : Option Value)
  | readMessage
  | recvTimeout
  | drain (timeout : ℕ)

/-- The call, with the messages it hands out: those it returns, and the awaited event that
`send_dap_request_and_wait_for_event` takes for itself. -/
def Op.call : Op → Client (List Received)
  | .sendDapRequest command arguments => do
    let _ ← Control.sendDapRequest command arguments
    return []
  | .sendDapRequestAndWaitForEvent command arguments eventName => do
    let r ← sendDapRequestAndWaitForEventInner command arguments eventName
    return [r.2]
  | .waitForResponseSeq seq => do return [← Control.waitForResponseSeq seq]
  | .waitForResponseNamed command => do return [← Control.waitForResponseNamed command]
  | .waitForEvent name timeout => do return [← Control.waitForEvent name timeout]
  | .dapRequestPreserveEvents command arguments => do
    return [← Control.dapRequestPreserveEvents command arguments]
  | .readMessage => do return (← Control.readMessage).toList
  | .recvTimeout => do return (← Control.recvTimeout).toList
  | .drain timeout => Control.drain timeout

/-- Every call accounts for the messages it takes. -/
theorem accounted_call (op : Op) : Accounted op.call id := by
  cases op with
  | sendDapRequest command arguments =>
    exact (accounted_sendDapRequest _ _).bind fun _ => .inr ⟨_, rfl, rfl⟩
  | sendDapRequestAndWaitForEvent command arguments eventName =>
    exact (accounted_sendDapRequestAndWaitForEventInner _ _ _).bind fun _ => .inr ⟨_, rfl, rfl⟩
  | waitForResponseSeq seq =>
    exact (accounted_waitForResponse _ _).bind fun _ => .inr ⟨_, rfl, rfl⟩
  | waitForResponseNamed command =>
    exact (accounted_waitForResponse _ _).bind fun _ => .inr ⟨_, rfl, rfl⟩
  | waitForEvent name timeout =>
    exact (accounted_waitForEvent _ _).bind fun _ => .inr ⟨_, rfl, rfl⟩
  | dapRequestPreserveEvents command arguments =>
    exact (accounted_dapRequestPreserveEvents _ _).bind fun _ => .inr ⟨_, rfl, rfl⟩
  | readMessage => exact accounted_readMessage.bind fun _ => .inr ⟨_, rfl, rfl⟩
  | recvTimeout => exact accounted_recvTimeout.bind fun _ => .inr ⟨_, rfl, rfl⟩
  | drain timeout => exact accounted_drain timeout

/-- The calls in turn, whether they come to a result or not, and all they hand out. A call that
waits for ever may be given up by its caller, who then makes the next one. -/
def calls : List Op → ControlClient → List Received × ControlClient
  | [], c => ([], c)
  | op :: ops, c =>
    let (out, d) := calls ops (stateOf (op.call c))
    (outcome (op.call c) id ++ out, d)

/-- **Sequences of calls** account for the messages they take. -/
theorem accounts_calls (ops : List Op) {c : ControlClient} (hc : ErrorFree c.inbox.arrivals) :
    Accounts c.inbox (calls ops c).2.inbox (calls ops c).1 := by
  induction ops generalizing c with
  | nil => exact Accounts.refl c.inbox
  | cons op ops ih =>
    have h := accounted_call op c hc
    exact h.trans (ih (hc.of_accounts h))

/-! ### Numbers -/

/-- A call that gives at most `k` requests a number, whether it comes to a result or not. -/
def Numbers {α : Type} (k : ℕ) (x : Client α) : Prop :=
  ∀ c : ControlClient, c.seq ≤ (stateOf (x c)).seq ∧ (stateOf (x c)).seq ≤ c.seq + k

section Numbers

variable {α β : Type} {j k : ℕ} {x : Client α} {f : α → Client β}

/-- **One call after another**, where only the first gives numbers. -/
lemma Numbers.bind (hx : Numbers k x) (hf : ∀ a, Numbers 0 (f a)) : Numbers k (x >>= f) := by
  intro c
  have hc := hx c
  cases h : x c with
  | error stop d =>
    rw [h] at hc
    rw [bind_of_error h]
    simp only [stateOf] at hc ⊢
    omega
  | ok a d =>
    rw [h] at hc
    rw [bind_of_ok h]
    have hd := hf a d
    simp only [stateOf] at hc
    omega

lemma numbers_pure (a : α) : Numbers 0 (pure a : Client α) := fun c => by simp

lemma numbers_throw (stop : Stop) : Numbers 0 (throw stop : Client α) := fun c => by simp

lemma numbers_onInbox (g : Inbox Message ProtocolError → α × Inbox Message ProtocolError) :
    Numbers 0 (onInbox g) := fun c => by simp

lemma Numbers.mono (hx : Numbers j x) (h : j ≤ k) : Numbers k x := fun c => by
  have hc := hx c
  omega

lemma numbers_readUntil (patient : Bool) (fits : Message → Bool)
    (stop : Ended ProtocolError → Stop) : Numbers 0 (readUntil patient fits stop) := by
  refine (numbers_onInbox _).bind fun r => ?_
  cases r with
  | ok x => exact numbers_pure x
  | error e => exact numbers_throw _

lemma numbers_sendDapRequest (command : String) (arguments : Option Value) :
    Numbers 1 (sendDapRequest command arguments) := by
  intro c
  cases h : c.accepts c.seq with
  | error e =>
    rw [sendDapRequest_error h, stateOf_error]
    dsimp only
    omega
  | ok =>
    rw [sendDapRequest_ok h, stateOf_ok, ControlClient.sent]
    dsimp only
    omega

lemma numbers_waitForResponse (fits : Message → Bool) (closed : String) :
    Numbers 0 (waitForResponse fits closed) := by
  refine (numbers_onInbox _).bind fun found => ?_
  cases found with
  | some x => exact numbers_pure x
  | none => exact numbers_readUntil _ _ _

lemma numbers_waitForEvent (name : String) (timeout : ℕ) :
    Numbers 0 (waitForEvent name timeout) := by
  refine (numbers_onInbox _).bind fun found => ?_
  cases found with
  | some x => exact numbers_pure x
  | none =>
    dsimp only
    split_ifs
    · exact numbers_throw _
    · exact numbers_readUntil _ _ _

lemma numbers_recvNext (patient : Bool) : Numbers 0 (recvNext patient) := by
  refine (numbers_onInbox _).bind fun found => ?_
  cases found with
  | some x => exact numbers_pure _
  | none => exact numbers_onInbox _

lemma numbers_readMessage : Numbers 0 readMessage := by
  refine (numbers_recvNext true).bind fun r => ?_
  match r with
  | .ok x => exact numbers_pure _
  | .error .closed => exact numbers_pure _
  | .error (.failed e) => exact numbers_throw _
  | .error .paused => exact numbers_throw _

lemma numbers_recvTimeout : Numbers 0 recvTimeout := by
  refine (numbers_recvNext false).bind fun r => ?_
  match r with
  | .ok x => exact numbers_pure _
  | .error (.failed e) => exact numbers_throw _
  | .error .closed => exact numbers_pure _
  | .error .paused => exact numbers_pure _

lemma numbers_gather : Numbers 0 gather := by
  refine (numbers_onInbox _).bind fun r => ?_
  cases r with
  | ok messages => exact numbers_pure _
  | error e => exact numbers_throw _

lemma numbers_drain (timeout : ℕ) : Numbers 0 (drain timeout) := by
  refine (numbers_onInbox _).bind fun messages => ?_
  split_ifs
  · exact numbers_pure _
  · exact numbers_gather.bind fun _ => numbers_gather.bind fun _ => numbers_pure _

/-- **One call** gives one request a number at most. -/
theorem numbers_call (op : Op) : Numbers 1 op.call := by
  cases op with
  | sendDapRequest command arguments =>
    exact (numbers_sendDapRequest _ _).bind fun _ => numbers_pure _
  | sendDapRequestAndWaitForEvent command arguments eventName =>
    have hinner : Numbers 1 (sendDapRequestAndWaitForEventInner command arguments eventName) :=
      (numbers_sendDapRequest _ _).bind fun _ =>
        (numbers_readUntil _ _ _).bind fun _ => numbers_pure _
    exact hinner.bind fun _ => numbers_pure _
  | waitForResponseSeq seq =>
    exact ((numbers_waitForResponse _ _).bind fun _ => numbers_pure _).mono (Nat.zero_le 1)
  | waitForResponseNamed command =>
    exact ((numbers_waitForResponse _ _).bind fun _ => numbers_pure _).mono (Nat.zero_le 1)
  | waitForEvent name timeout =>
    exact ((numbers_waitForEvent _ _).bind fun _ => numbers_pure _).mono (Nat.zero_le 1)
  | dapRequestPreserveEvents command arguments =>
    have hrequest : Numbers 1 (dapRequestPreserveEvents command arguments) :=
      (numbers_sendDapRequest _ _).bind fun _ => numbers_readUntil _ _ _
    exact hrequest.bind fun _ => numbers_pure _
  | readMessage => exact (numbers_readMessage.bind fun _ => numbers_pure _).mono (Nat.zero_le 1)
  | recvTimeout => exact (numbers_recvTimeout.bind fun _ => numbers_pure _).mono (Nat.zero_le 1)
  | drain timeout => exact (numbers_drain timeout).mono (Nat.zero_le 1)

end Numbers

lemma seq_calls (ops : List Op) (c : ControlClient) :
    c.seq ≤ (calls ops c).2.seq ∧ (calls ops c).2.seq ≤ c.seq + ops.length := by
  induction ops generalizing c with
  | nil => simp [calls]
  | cons op ops ih =>
    have hcall := numbers_call op c
    have hrest := ih (stateOf (op.call c))
    rw [calls, List.length_cons]
    dsimp only
    omega

/-- **The numbers fit**: a client's requests are numbered from one on, one for each call at most,
so that its `i64` does not overflow in fewer than `2^63 - 1` calls. -/
theorem seq_fits {ops : List Op} (h : ops.length < 2 ^ 63 - 1) (arrivals : Wire)
    (accepts : ℤ → Except ProtocolError Unit) :
    1 ≤ (calls ops (fromDuplex arrivals accepts)).2.seq ∧
      (calls ops (fromDuplex arrivals accepts)).2.seq < 2 ^ 63 := by
  obtain ⟨hpos, hle⟩ := seq_calls ops (fromDuplex arrivals accepts)
  have hone : (fromDuplex arrivals accepts).seq = 1 := rfl
  omega

/-! ### Opening a connection -/

lemma absorbEach_eq (messages : List Received) (c : ControlClient) :
    ∃ caps, absorbEach messages c = .ok () { c with
      capabilities := caps
      inbox := { c.inbox with pending := c.inbox.pending ++ messages } } := by
  induction messages generalizing c with
  | nil => exact ⟨c.capabilities, by simp [absorbEach]⟩
  | cons x messages ih =>
    obtain ⟨caps, h⟩ := ih { c with
      capabilities := absorbCapabilities x.1 c.capabilities
      inbox := c.inbox.putAside x }
    refine ⟨caps, ?_⟩
    rw [absorbEach, bind_of_ok (by rfl), h]
    simp [putAside]

/-- The late-join replay is put aside whole. -/
lemma accounts_absorb {c d : ControlClient} (h : absorbLateJoinReplay c = .ok () d) :
    Accounts c.inbox d.inbox [] := by
  obtain ⟨out, u, hd, h⟩ := bind_eq_ok.mp h
  obtain ⟨got, ht, rfl, hp⟩ := took_drain (by omega) hd
  obtain ⟨caps, he⟩ := absorbEach_eq (c.inbox.pending ++ got) u
  rw [he] at h
  simp only [EStateM.Result.ok.injEq, true_and] at h
  subst h
  exact ⟨got, ht.congr, by simp [hp], by simp [hp]⟩

/-- A client that is connected, directly or to a session in progress. -/
inductive Connected (arrivals : Wire) (accepts : ℤ → Except ProtocolError Unit) :
    ControlClient → Prop
  | fromDuplex : Connected arrivals accepts (fromDuplex arrivals accepts)
  | connect {c : ControlClient}
      (h : absorbLateJoinReplay (fromDuplex arrivals accepts) = .ok () c) :
    Connected arrivals accepts c

lemma Connected.accounts {arrivals : Wire} {accepts : ℤ → Except ProtocolError Unit}
    {c : ControlClient} (h : Connected arrivals accepts c) :
    Accounts (Control.fromDuplex arrivals accepts).inbox c.inbox [] := by
  cases h with
  | fromDuplex => exact Accounts.refl _
  | connect h => exact accounts_absorb h

/-- The messages of the connection that the client took, in the order of arrival. -/
def takenFrom (arrivals : Wire) (c : ControlClient) : List Received :=
  (items arrivals).zipIdx.take c.inbox.taken

/-- The messages taken are those handed out and those in `pending`, each once, and those in
`pending` stand in the order of arrival. -/
structure Bookkept (arrivals : Wire) (handedOut : List Received) (c : ControlClient) : Prop where
  kept : (handedOut ++ c.inbox.pending) ~ takenFrom arrivals c
  once : (takenFrom arrivals c).Nodup
  inOrder : c.inbox.pending.Sublist (takenFrom arrivals c)

/-- **The bookkeeping loses nothing**, whatever calls a connected client makes on a connection
whose reads do not fail. -/
theorem bookkeeping {arrivals : Wire} {accepts : ℤ → Except ProtocolError Unit}
    {c : ControlClient} (hc : Connected arrivals accepts c) (hw : ErrorFree arrivals)
    (ops : List Op) : Bookkept arrivals (calls ops c).1 (calls ops c).2 := by
  have h₀ := hc.accounts
  obtain ⟨got, ht, hp, hs⟩ := h₀.trans (accounts_calls ops (ErrorFree.of_accounts hw h₀))
  simp only [fromDuplex, List.nil_append] at hp hs
  have hgot : takenFrom arrivals (calls ops c).2 = got := by
    have hw := ht.wire
    simp only [Inbox.wire, fromDuplex] at hw
    rw [takenFrom, hw, ht.taken]
    simp [fromDuplex]
  have hnd : (takenFrom arrivals (calls ops c).2).Nodup :=
    (nodup_wire (fromDuplex arrivals accepts).inbox).sublist (List.take_sublist _ _)
  exact ⟨hgot ▸ hp, hnd, hgot ▸ hs⟩

/-- A stop while the client waits for its threads. -/
def stopBeforeThreads : Wire :=
  [.item (.event ⟨1, "stopped", none⟩),
    .item (.response ⟨2, 1, true, some "threads", none, none⟩)]

lemma errorFree_stopBeforeThreads : ErrorFree stopBeforeThreads := by
  simp [ErrorFree, stopBeforeThreads]

theorem bookkeeping_threads :
    let r := calls [.dapRequestPreserveEvents "threads" none, .readMessage]
      (fromDuplex stopBeforeThreads fun _ => .ok ())
    Bookkept stopBeforeThreads r.1 r.2 :=
  bookkeeping .fromDuplex errorFree_stopBeforeThreads _

end DappyCore.Control
