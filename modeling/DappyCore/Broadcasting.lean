import Mathlib.Data.List.TakeWhile
import DappyCore.Observer

/-!
The `events` subscription that a client gets when it attaches: the stream that the loop puts
every upstream message on, and every event once more under its own number.
-/

namespace DappyCore.Broadcasting

open Lib Lib.Machine Json MuxMessage Session SessionLoop Observer

def isEvent (message : Value) : Bool := messageKind message = .event

/-- What a step puts on the broadcast stream. -/
def airs (s : SessionLoop) (i : Input) : List Value :=
  (s.step i).1.broadcast.sent.drop s.broadcast.sent.length

/-- The event that a step takes from upstream. -/
def upstreamEvent : Input → Option Value
  | .upstream message _ => if isEvent message then some message else none
  | _ => none

/-- The client does not drop its receiver. -/
def keepsReceiver (id : Id) : Input → Bool
  | .dropEvents id' => id' ≠ id
  | _ => true

/-! ### What each step puts on the stream -/

variable {s : SessionLoop} {id : Id} {message : Value}

lemma broadcast_handleClientMessage (s : SessionLoop) (id : Id) (message : Value) :
    (s.handleClientMessage id message).1.broadcast = s.broadcast ∧
      (s.handleClientMessage id message).1.nextClientId = s.nextClientId := by
  have hassign : ∀ role, (s.assignSeq id role message).1.broadcast = s.broadcast ∧
      (s.assignSeq id role message).1.nextClientId = s.nextClientId := by
    intro role
    unfold assignSeq
    split
    · split <;> exact ⟨rfl, rfl⟩
    · exact ⟨rfl, rfl⟩
  rcases handleClientMessage_cases s id message with h | ⟨-, role, h⟩
  · simp only [List.mem_cons, List.not_mem_nil, or_false] at h
    rcases h with h | h | h <;> rw [h] <;> exact ⟨rfl, rfl⟩
  · simp only [List.mem_cons, List.not_mem_nil, or_false] at h
    rcases h with h | h <;> rw [h] <;> exact hassign role

lemma broadcast_handleUpstreamMessage (s : SessionLoop) (message : Value)
    (order : HashMap.Order Id ClientState) :
    (s.handleUpstreamMessage message order).1.broadcast =
      if isEvent message then (s.noted message).broadcast else s.published message := by
  by_cases hk : messageKind message = .response
  · -- a response is published and then delivered on the other channels
    rw [if_neg (by simp [isEvent, hk])]
    cases hb : requestSeq message with
    | none => rw [handleUpstreamMessage_malformed hk order hb]; rfl
    | some b =>
      cases hm : s.remapper.lookupClient ⟨b⟩ with
      | some c =>
        rw [handleUpstreamMessage_editor hk order hb hm]
        obtain ⟨r, hr⟩ := deliverEach_frame isEditor (s.outboundResponse message c.raw)
          (order.visit s.clients) (s.unmapped message b)
        rw [hr]
        rfl
      | none =>
        cases hp : s.secondaryPending.lookup b with
        | none => rw [handleUpstreamMessage_unmatched hk order hb hm hp]; rfl
        | some p =>
          rw [handleUpstreamMessage_secondary hk order hb hm hp]
          obtain ⟨r, hr⟩ := deliverToClient_frame (s.unpended message b) p.1
            (setRequestSeq message p.2)
          rw [hr]
          rfl
  · by_cases hk' : messageKind message = .event
    · rw [if_pos (by simp [isEvent, hk']), handleUpstreamMessage_event hk']
      obtain ⟨r, hr⟩ := deliverEach_frame receivesEvents (s.outboundEvent message)
        (order.visit s.clients) (s.noted message)
      rw [hr]
    · rw [if_neg (by simp [isEvent, hk']), handleUpstreamMessage_other hk hk']

lemma sent_published (s : SessionLoop) (message : Value) :
    ∃ l, (s.published message).sent = s.broadcast.sent ++ l := by
  unfold published
  split_ifs
  · exact ⟨[message], rfl⟩
  · exact ⟨[], (List.append_nil _).symm⟩

/-- Only a message from upstream is put on the stream. -/
lemma sent_of_not_upstream {i : Input} (h : ∀ message order, i ≠ .upstream message order) :
    (s.step i).1.broadcast.sent = s.broadcast.sent := by
  match i with
  | .upstream message order => exact absurd rfl (h message order)
  | .op (.attach role) => simp only [step, handleOp, attach_eq]; rfl
  | .op (.clientSend id message) =>
    simp only [step, handleOp, (broadcast_handleClientMessage s id message).1]
  | .op (.detach id) => rfl
  | .dropRecv id => rfl
  | .dropEvents id => rfl
  | .dropUpstream => rfl

/-- The stream only grows. -/
lemma sent_step (s : SessionLoop) (i : Input) :
    (s.step i).1.broadcast.sent = s.broadcast.sent ++ airs s i := by
  have hgrows : ∃ l, (s.step i).1.broadcast.sent = s.broadcast.sent ++ l := by
    by_cases hup : ∃ message order, i = .upstream message order
    · obtain ⟨message, order, rfl⟩ := hup
      rw [step, broadcast_handleUpstreamMessage]
      obtain ⟨l, hl⟩ := sent_published s message
      split_ifs
      · obtain ⟨l', hl'⟩ := sent_published { s with broadcast := s.published message }
          (s.outboundEvent message)
        exact ⟨l ++ l', hl'.trans (by rw [hl, List.append_assoc])⟩
      · exact ⟨l, hl⟩
    · simp only [not_exists] at hup
      exact ⟨[], by rw [sent_of_not_upstream hup, List.append_nil]⟩
  obtain ⟨l, hl⟩ := hgrows
  rw [airs, hl, List.drop_left]

/-! ### The subscription -/

/-- The client has its receiver, which began at this place of the stream. -/
structure Subscribed (s : SessionLoop) (id : Id) (n : ℕ) : Prop where
  receiver : s.broadcast.receivers.lookup id = some n
  known : id.raw ≤ s.nextClientId

lemma subscribed_attached (s : SessionLoop) (role : ClientRole) :
    Subscribed (s.attached role) s.nextId s.broadcast.sent.length where
  receiver := AList.lookup_insert _
  known := Nat.le_refl _

variable {n : ℕ}

lemma Subscribed.of_same (h : Subscribed s id n) {t : SessionLoop}
    (hr : t.broadcast.receivers = s.broadcast.receivers) (hc : t.nextClientId = s.nextClientId) :
    Subscribed t id n :=
  ⟨by rw [hr]; exact h.receiver, by rw [hc]; exact h.known⟩

lemma receivers_published (s : SessionLoop) (message : Value) :
    (s.published message).receivers = s.broadcast.receivers := by
  unfold published
  split_ifs <;> rfl

lemma Subscribed.step (h : Subscribed s id n) {i : Input} (hi : keepsReceiver id i) :
    Subscribed (s.step i).1 id n := by
  match i with
  | .upstream message order =>
    refine h.of_same ?_ (handleUpstreamMessage_frame s message order).2.2.2.1
    rw [SessionLoop.step, broadcast_handleUpstreamMessage]
    split_ifs
    · exact (receivers_published _ _).trans (receivers_published s message)
    · exact receivers_published s message
  | .op (.attach role) =>
    have hk := h.known
    -- the newcomer has a channel of its own
    have hne : id ≠ s.nextId := by
      rintro rfl
      simp only [nextId] at hk
      omega
    simp only [SessionLoop.step, handleOp, attach_eq]
    exact ⟨(AList.lookup_insert_ne hne).trans h.receiver, Nat.le_succ_of_le hk⟩
  | .op (.clientSend id' message) =>
    obtain ⟨hb, hc⟩ := broadcast_handleClientMessage s id' message
    exact h.of_same (by simp only [SessionLoop.step, handleOp, hb]) hc
  | .op (.detach id') => exact h.of_same rfl rfl
  | .dropRecv id' => exact h.of_same rfl rfl
  | .dropUpstream => exact h.of_same rfl rfl
  | .dropEvents id' =>
    have hne : id ≠ id' := fun e => of_decide_eq_true hi e.symm
    exact ⟨(AList.lookup_erase_ne hne).trans h.receiver, h.known⟩

/-- **To a subscription** every message comes as it is, and an event once more. -/
lemma airs_upstream (h : Subscribed s id n) (message : Value)
    (order : HashMap.Order Id ClientState) :
    airs s (.upstream message order) =
      if isEvent message then [message, s.outboundEvent message] else [message] := by
  have hpos : 0 < s.broadcast.receiverCount :=
    Broadcast.receiverCount_pos (by rw [h.receiver]; rfl)
  have hp : s.published message = s.broadcast.send message := by rw [published, if_pos hpos]
  rw [airs, SessionLoop.step, broadcast_handleUpstreamMessage]
  split_ifs
  · have hn : (s.noted message).broadcast =
        (s.broadcast.send message).send (s.outboundEvent message) := by
      have hpos' : 0 < (s.broadcast.send message).receiverCount := hpos
      simp only [noted, hp]
      rw [published, if_pos hpos']
    rw [hn]
    simp [Broadcast.send]
  · rw [hp]
    simp [Broadcast.send]

lemma airs_of_not_upstream {i : Input} (h : ∀ message order, i ≠ .upstream message order) :
    airs s i = [] := by
  rw [airs, sent_of_not_upstream h, List.drop_length]

/-! ### From the attach on -/

variable (x : SessionLoop × History) (role : ClientRole) (inputs : List Input)

/-- The loop and its observer once one more client has attached. -/
def joined : SessionLoop × History := (watched x (.op (.attach role))).1

/-- The steps taken from then on, while the client holds its receiver. -/
def attended : List ((SessionLoop × History) × Input) :=
  visits watched (joined x role) (inputs.takeWhile (keepsReceiver x.1.nextId))

/-- What the subscription has received by then. -/
def received : List Value :=
  (run watched (joined x role) (inputs.takeWhile (keepsReceiver x.1.nextId))).1.1.broadcast.heard
    x.1.nextId

/-- The response answers a request that another client sent. -/
def AnswersOther (id : Id) (h : History) (message : Value) : Prop :=
  messageKind message = .response ∧ ∃ b r, requestSeq message = some b ∧
    (b, r) ∈ h.requests.issued ∧ r.client ≠ id

/-- The subscription receives every event once, in the order they come from upstream, and with
a response to another client it receives no response. -/
structure EventsOnce : Prop where
  events : List.Forall₂ Renumbered ((attended x role inputs).filterMap fun v => upstreamEvent v.2)
    ((received x role inputs).filter isEvent)
  responses : ∀ v ∈ attended x role inputs, ∀ message order, v.2 = .upstream message order →
    AnswersOther x.1.nextId v.1.2 message → ∀ m ∈ airs v.1.1 v.2, messageKind m ≠ .response

/-- Nothing comes from upstream that would be received twice, or is not for the client. -/
def NothingToRepeat : Prop :=
  ∀ v ∈ attended x role inputs, ∀ message order, v.2 = .upstream message order →
    ¬ isEvent message ∧ ¬ AnswersOther x.1.nextId v.1.2 message

lemma subscribed_joined :
    Subscribed (joined x role).1 x.1.nextId x.1.broadcast.sent.length := by
  have hj : (joined x role).1 = x.1.attached role := attach_eq x.1 role
  rw [hj]
  exact subscribed_attached x.1 role

lemma subscribed_attended {v : (SessionLoop × History) × Input} (hv : v ∈ attended x role inputs) :
    Subscribed v.1.1 x.1.nextId x.1.broadcast.sent.length :=
  (visits_inv (I := fun u => Subscribed u.1 x.1.nextId x.1.broadcast.sent.length)
    (P := fun i => keepsReceiver x.1.nextId i)
    (fun u i t hi hu ht => by
      have hs := hu.step hi
      rwa [show (u.1.step i).1 = t.1 from congrArg (fun r => r.1.1) ht] at hs)
    (subscribed_joined x role) (fun _ hi => List.mem_takeWhile_imp hi) v hv).1

/-- What is received is what the steps put on the stream, one after the other. -/
theorem received_eq :
    received x role inputs = (attended x role inputs).flatMap fun v => airs v.1.1 v.2 := by
  have hs : Subscribed (run watched (joined x role)
      (inputs.takeWhile (keepsReceiver x.1.nextId))).1.1 x.1.nextId x.1.broadcast.sent.length :=
    run_inv (I := fun u : SessionLoop × History =>
      Subscribed u.1 x.1.nextId x.1.broadcast.sent.length)
      (P := fun i => keepsReceiver x.1.nextId i) (fun u i hi hu => hu.step hi)
      (subscribed_joined x role) (fun _ hi => List.mem_takeWhile_imp hi)
  have hjoined : (joined x role).1.broadcast.sent = x.1.broadcast.sent := by
    have hj : (joined x role).1 = x.1.attached role := attach_eq x.1 role
    rw [hj]
    rfl
  have hrun := run_appends watched (I := fun _ => True) (fun _ _ _ => trivial)
    (fun u : SessionLoop × History => u.1.broadcast.sent) (fun u i => airs u.1 i)
    (fun u i _ => sent_step u.1 i) (s := joined x role) trivial
    (inputs.takeWhile (keepsReceiver x.1.nextId))
  rw [received, Broadcast.heard_of_lookup hs.receiver, hrun, hjoined, List.drop_left, attended]

/-- Of each event two copies are put on the stream. -/
lemma length_events_aired {steps : List ((SessionLoop × History) × Input)}
    (h : ∀ v ∈ steps, Subscribed v.1.1 id n) :
    ((steps.flatMap fun v => airs v.1.1 v.2).filter isEvent).length =
      2 * (steps.filterMap fun v => upstreamEvent v.2).length := by
  induction steps with
  | nil => rfl
  | cons v rest ih =>
    obtain ⟨hv, hrest⟩ := List.forall_mem_cons.mp h
    rw [List.flatMap_cons, List.filter_append, List.length_append, ih hrest, List.filterMap_cons]
    by_cases hup : ∃ message order, v.2 = .upstream message order
    · -- an event is aired as it came, and once more with a number
      obtain ⟨message, order, hup⟩ := hup
      rw [hup, airs_upstream hv]
      by_cases he : isEvent message
      · have he' : isEvent (v.1.1.outboundEvent message) := by
          rw [isEvent, outboundEvent, messageKind, get_setSeq_of_ne (by decide)]
          exact he
        simp only [upstreamEvent, if_pos he, List.filter_cons_of_pos he,
          List.filter_cons_of_pos he', List.filter_nil, List.length_cons, List.length_nil]
        omega
      · simp only [upstreamEvent, if_neg he, List.filter_cons_of_neg he, List.filter_nil,
          List.length_nil]
        omega
    · -- nothing else airs an event
      simp only [not_exists] at hup
      rw [airs_of_not_upstream hup]
      cases hi : v.2 with
      | upstream message order => exact absurd hi (hup message order)
      | _ => simp [upstreamEvent]

lemma length_received_events :
    ((received x role inputs).filter isEvent).length =
      2 * ((attended x role inputs).filterMap fun v => upstreamEvent v.2).length := by
  rw [received_eq]
  exact length_events_aired fun v hv => subscribed_attended x role inputs hv

/-- **Events are broadcast once** exactly when there are none, and responses stay with their
client exactly when none is for another. -/
theorem events_once_iff : EventsOnce x role inputs ↔ NothingToRepeat x role inputs := by
  constructor
  · intro h v hv message order hup
    have hs := subscribed_attended x role inputs hv
    refine ⟨fun he => ?_, fun ha => ?_⟩
    · -- twice as many as came is as many as came only if none came
      have hlen := h.events.length_eq
      rw [length_received_events] at hlen
      have hmem : message ∈ (attended x role inputs).filterMap fun v => upstreamEvent v.2 :=
        List.mem_filterMap.mpr ⟨v, hv, by rw [hup, upstreamEvent, if_pos he]⟩
      have hpos := List.length_pos_of_mem hmem
      omega
    · have hmem : message ∈ airs v.1.1 v.2 := by
        rw [hup, airs_upstream hs]
        split_ifs <;> exact List.mem_cons_self
      exact h.responses v hv message order hup ha message hmem ha.1
  · intro h
    -- no event comes at all
    have hnone : ((attended x role inputs).filterMap fun v => upstreamEvent v.2) = [] := by
      rw [List.filterMap_eq_nil_iff]
      intro v hv
      cases hi : v.2 with
      | upstream message order => rw [upstreamEvent, if_neg (h v hv message order hi).1]
      | _ => rfl
    refine ⟨?_, fun v hv message order hup ha => absurd ha (h v hv message order hup).2⟩
    have hlen := length_received_events x role inputs
    rw [hnone, List.length_nil, Nat.mul_zero] at hlen
    rw [hnone, List.eq_nil_of_length_eq_zero hlen]
    exact .nil

/-- One event after an agent has attached. -/
def stoppedEvent : Value := event 1 "stopped" none

theorem event_is_broadcast_twice :
    ¬ EventsOnce begin .agent [.upstream stoppedEvent HashMap.Order.listed] := by
  intro h
  exact absurd h.events.length_eq (by decide)

end DappyCore.Broadcasting
