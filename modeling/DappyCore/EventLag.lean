import DappyCore.Broadcasting
import DappyCore.Lib.Receiver

/-!
A client that reads its events more slowly than they come. `recv_event` makes nothing of every
error of the channel, whether the session is over or the client has only missed something.
-/

namespace DappyCore.EventLag

open Lib Lib.Machine Lib.Receiver Json MuxMessage Session SessionLoop Broadcasting

/-- The loop, whether it is running, and the place in the stream that the client has come to. -/
structure Subscription where
  loop : SessionLoop
  running : Bool
  next : ℕ

/-- The loop takes an input; both its channels are at their end; the client polls a call of
`recv_event`. -/
inductive Input
  | loop (i : Session.Input)
  | ends
  | recvEvent

/-- The client once it has attached. -/
def subscribe (s : SessionLoop) (role : ClientRole) : Subscription where
  loop := s.attach role
  running := true
  next := s.broadcast.sent.length

/-- `events.recv().await.ok()`, as long as it is not pending. -/
def recvResult : Received Value → Option (Option Value)
  | .value message => some (some message)
  | .lagged | .closed => some none
  | .pending => none

/-- What a call of `recv_event` comes to. -/
def recvEvent (slots : ℕ) (s : Subscription) : Option (Option Value) :=
  recvResult (receive slots s.loop.broadcast.sent s.running s.next).1

/-- The loop ends with the first step that fails. -/
def step (slots : ℕ) (s : Subscription) : Input → Subscription
  | .loop i =>
    if s.running then
      match s.loop.step i with
      | (loop, .ok ()) => { s with loop }
      | (loop, .error _) => { s with loop, running := false }
    else s
  | .ends => { s with running := false }
  | .recvEvent => { s with next := (receive slots s.loop.broadcast.sent s.running s.next).2 }

/-! ### How far the client is behind -/

/-- How often a message is put on the stream. -/
def copies : Session.Input → ℕ
  | .upstream message _ => if isEvent message then 2 else 1
  | _ => 0

/-- The messages that wait for the client, counted along its calls and what comes from upstream. -/
def waitingAfter (n : ℕ) : Input → ℕ
  | .loop i => n + copies i
  | .ends => n
  | .recvEvent => n - 1

/-- The subscription, with the messages that wait for the client. -/
def follow (slots : ℕ) (s : Subscription × ℕ) (i : Input) : Result (Subscription × ℕ) Empty :=
  ((step slots s.1 i, waitingAfter s.2 i), .ok ())

/-- The client holds on to its receiver. -/
def holds (id : Id) : Input → Bool
  | .loop i => keepsReceiver id i
  | .ends | .recvEvent => true

variable (slots : ℕ) (s : SessionLoop) (role : ClientRole) (inputs : List Input)

/-- The steps taken from the attach on, while the client holds its receiver. -/
def attended : List ((Subscription × ℕ) × Input) :=
  visits (follow slots) (subscribe s role, 0) (inputs.takeWhile (holds s.nextId))

/-- A call returns nothing only once the loop has ended. -/
def ToldInTime : Prop :=
  ∀ v ∈ attended slots s role inputs, v.2 = .recvEvent →
    recvEvent slots v.1.1 = some none → v.1.1.running = false

/-- No more messages wait for the client than there are slots, whenever it calls before the loop
has ended. -/
def KeepsUp : Prop :=
  ∀ v ∈ attended slots s role inputs, v.2 = .recvEvent → v.1.1.running → v.1.2 ≤ slots

/-! ### Steps -/

/-- While the loop is running the client has its receiver, and the stream is ahead of it by the
messages that wait. -/
def Inv (id : Id) (n : ℕ) (v : Subscription × ℕ) : Prop :=
  v.1.running → Subscribed v.1.loop id n ∧ v.1.loop.broadcast.sent.length = v.1.next + v.2

variable {slots s role} {id : Id} {n : ℕ} {v : Subscription × ℕ}

lemma length_sent_step (h : Subscribed s id n) (i : Session.Input) :
    (s.step i).1.broadcast.sent.length = s.broadcast.sent.length + copies i := by
  have hairs : (airs s i).length = copies i := by
    by_cases hup : ∃ message order, i = .upstream message order
    · obtain ⟨message, order, rfl⟩ := hup
      rw [airs_upstream h, copies]
      split_ifs <;> rfl
    · simp only [not_exists] at hup
      rw [airs_of_not_upstream hup]
      cases i with
      | upstream message order => exact absurd rfl (hup message order)
      | _ => rfl
  rw [sent_step, List.length_append, hairs]

lemma inv_subscribe (s : SessionLoop) (role : ClientRole) :
    Inv s.nextId s.broadcast.sent.length (subscribe s role, 0) := by
  intro _
  rw [subscribe, attach_eq]
  exact ⟨subscribed_attached s role, rfl⟩

/-- What a call returns, as long as the loop is running: nothing where the client lags. -/
lemma recvEvent_eq_none_iff (h : Inv id n v) (hrun : v.1.running) :
    recvEvent slots v.1 = some none ↔ slots < v.2 := by
  have hlen := (h hrun).2
  unfold recvEvent
  by_cases hlag : slots < v.1.loop.broadcast.sent.length - v.1.next
  · rw [receive_lagged hlag]
    exact iff_of_true rfl (by omega)
  · refine iff_of_false ?_ (by omega)
    by_cases hlt : v.1.next < v.1.loop.broadcast.sent.length
    · rw [receive_value hlag hlt]
      simp [recvResult]
    · rw [receive_empty (by omega), hrun]
      simp [recvResult]

/-- **One step** keeps the count, if the client does not lag at a call. -/
lemma inv_follow {v' : Subscription × ℕ} {i : Input} (h : Inv id n v) (hi : holds id i)
    (hup : i = .recvEvent → v.1.running → v.2 ≤ slots) (hv : follow slots v i = (v', .ok ())) :
    Inv id n v' := by
  obtain rfl := congrArg Prod.fst hv
  intro hrun
  cases i with
  | ends => cases hrun
  | recvEvent =>
    obtain ⟨hsub, hlen⟩ := h hrun
    have hle := hup rfl hrun
    -- the client is not further behind than the channel has slots
    have hlag : ¬ slots < v.1.loop.broadcast.sent.length - v.1.next := by omega
    refine ⟨hsub, ?_⟩
    show v.1.loop.broadcast.sent.length =
      (receive slots v.1.loop.broadcast.sent v.1.running v.1.next).2 + (v.2 - 1)
    by_cases hlt : v.1.next < v.1.loop.broadcast.sent.length
    · rw [receive_value hlag hlt]
      show _ = v.1.next + 1 + (v.2 - 1)
      omega
    · rw [receive_empty (by omega)]
      show _ = v.1.next + (v.2 - 1)
      omega
  | loop i =>
    -- a loop that goes on has been going on
    have hrun' : v.1.running := by
      by_contra hno
      have hs : step slots v.1 (.loop i) = v.1 := if_neg hno
      exact hno (hs ▸ hrun)
    obtain ⟨hsub, hlen⟩ := h hrun'
    have hstep : step slots v.1 (.loop i) = { v.1 with loop := (v.1.loop.step i).1 } := by
      rcases hs : v.1.loop.step i with ⟨t, _ | _⟩
      · have hstop : (step slots v.1 (.loop i)).running = false := by
          simp [step, hrun', hs]
        rw [follow] at hrun
        exact absurd (hstop.symm.trans hrun) (by simp)
      · simp [step, hrun', hs]
    show Subscribed (step slots v.1 (.loop i)).loop id n ∧
      (step slots v.1 (.loop i)).loop.broadcast.sent.length =
        (step slots v.1 (.loop i)).next + (v.2 + copies i)
    rw [hstep]
    refine ⟨hsub.step hi, ?_⟩
    show (v.1.loop.step i).1.broadcast.sent.length = v.1.next + (v.2 + copies i)
    rw [length_sent_step hsub, hlen, Nat.add_assoc]

/-! ### Runs -/

/-- **A lagging client is not told that the session ended** exactly where it does not lag. -/
theorem told_in_time_iff (slots : ℕ) (s : SessionLoop) (role : ClientRole) (inputs : List Input) :
    ToldInTime slots s role inputs ↔ KeepsUp slots s role inputs := by
  refine forall_visits_congr (I := Inv s.nextId s.broadcast.sent.length)
    (P := fun v i => i = .recvEvent → recvEvent slots v.1 = some none → v.1.running = false)
    (Q := fun v i => i = .recvEvent → v.1.running → v.2 ≤ slots)
    (R := fun _ i => holds s.nextId i) ?_ ?_ (inv_subscribe s role) ?_
  · intro v i hinv _
    refine forall_congr' fun _ => ?_
    by_cases hrun : v.1.running
    · rw [recvEvent_eq_none_iff hinv hrun]
      simp [hrun]
    · simp [hrun]
  · intro v i v' hinv hi hup hv
    exact inv_follow hinv hi hup hv
  · intro v hv
    obtain ⟨pre, post, hsplit, -⟩ := mem_visits_iff.mp hv
    exact List.mem_takeWhile_imp (hsplit ▸ List.mem_append_right pre List.mem_cons_self)

/-- A channel with one slot, an agent, and one event before it calls. -/
theorem one_event_ends_the_session :
    ¬ ToldInTime 1 .start .agent
      [.loop (.upstream stoppedEvent HashMap.Order.listed), .recvEvent] := by
  intro h
  have htold := h _ (.tail _ (.head _)) rfl rfl
  exact absurd htold (by decide)

end DappyCore.EventLag
