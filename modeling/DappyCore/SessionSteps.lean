import DappyCore.Session
import Mathlib.Algebra.Ring.Nat

/-!
What each operation of the multiplexer's loop does, as one lemma for each way it can go. The
proofs about runs use these and look no further into the definitions.
-/

namespace DappyCore.Session.SessionLoop

open Lib Lib.Machine Json MuxMessage Remapper Cache

/-- Attached, and its `recv` channel has a receiver. -/
def Listening (s : SessionLoop) (id : Id) : Prop :=
  (s.clients.lookup id).isSome ∧ (s.recv id).alive

/-- Every attached client of a wanted role is listening. -/
def Hears (s : SessionLoop) (wanted : ClientRole → Bool) : Prop :=
  ∀ id state, s.clients.lookup id = some state → wanted state.role → (s.recv id).alive

/-- The client is attached in a wanted role. -/
def wants (s : SessionLoop) (wanted : ClientRole → Bool) (id : Id) : Bool :=
  (s.clients.lookup id).any fun state => wanted state.role

/-- Put on the `recv` channel of every client that `who` says. -/
def pushEach (s : SessionLoop) (who : Id → Bool) (message : Value) : SessionLoop :=
  { s with recv := fun id => if who id then (s.recv id).push message else s.recv id }

variable {s : SessionLoop} {id : Id} {message : Value}

/-! ### Deliveries -/

lemma deliverToClient_ok (h : s.Listening id) (message : Value) :
    s.deliverToClient id message = (s.push id message, .ok ()) := by
  obtain ⟨state, hs⟩ := Option.isSome_iff_exists.mp h.1
  simp [deliverToClient, hs, h.2]

lemma deliverToClient_error (h : ¬ s.Listening id) (message : Value) :
    s.deliverToClient id message = (s, .error .clientNotFound) := by
  cases hs : s.clients.lookup id with
  | none => simp [deliverToClient, hs]
  | some state =>
    have ha : ¬ (s.recv id).alive = true := fun ha => h ⟨by simp [hs], ha⟩
    simp [deliverToClient, hs, ha]

lemma listening_push {id' : Id} (h : s.Listening id') (id : Id) (message : Value) :
    (s.push id message).Listening id' := by
  refine ⟨h.1, ?_⟩
  simp only [push, Function.update_apply]
  split_ifs with e
  · exact e ▸ h.2
  · exact h.2

/-- Which clients a list of entries says to deliver to. -/
def listed (wanted : ClientRole → Bool) (entries : List (Σ _ : Id, ClientState)) (id : Id) :
    Bool :=
  entries.any fun e => decide (e.1 = id) && wanted e.2.role

lemma listed_cons (wanted : ClientRole → Bool) (id id' : Id) (state : ClientState)
    (rest : List (Σ _ : Id, ClientState)) :
    listed wanted (⟨id, state⟩ :: rest) id' =
      (decide (id = id') && wanted state.role || listed wanted rest id') := by
  simp [listed]

lemma deliverEach_ok {wanted : ClientRole → Bool} {entries : List (Σ _ : Id, ClientState)}
    (nd : entries.NodupKeys) (h : ∀ e ∈ entries, wanted e.2.role → s.Listening e.1) :
    deliverEach wanted message entries s =
      (s.pushEach (listed wanted entries) message, .ok ()) := by
  induction entries generalizing s with
  | nil => simp [deliverEach, pushEach, listed]
  | cons e rest ih =>
    obtain ⟨id, state⟩ := e
    have hrest := fun e he => h e (List.mem_cons_of_mem _ he)
    have ndr := List.nodupKeys_of_nodupKeys_cons nd
    by_cases hw : wanted state.role
    · have hl := h _ List.mem_cons_self hw
      -- each client is visited once
      have hnot : listed wanted rest id = false := by
        have hk := List.notMem_keys_of_nodupKeys_cons nd
        simp only [listed, List.any_eq_false, Bool.and_eq_true, decide_eq_true_eq, not_and]
        intro e he heq
        exact absurd (List.mem_keys_of_mem he) (heq ▸ hk)
      simp only [deliverEach, hw, if_true, deliverToClient_ok hl]
      rw [ih ndr fun e he hwe => listening_push (hrest e he hwe) _ _]
      simp only [pushEach, push, Prod.mk.injEq, and_true]
      congr 1
      funext id'
      rw [listed_cons]
      by_cases e : id' = id
      · subst e
        simp [hnot, hw]
      · have e' : ¬ id = id' := fun h => e h.symm
        simp [Function.update_of_ne e, e']
    · simp only [deliverEach, hw]
      rw [if_neg (by simp), ih ndr hrest]
      congr 2
      funext id'
      simp [listed_cons, hw]

lemma deliverEach_error {wanted : ClientRole → Bool} {entries : List (Σ _ : Id, ClientState)}
    (h : ∃ e ∈ entries, wanted e.2.role ∧ ¬ s.Listening e.1) :
    (deliverEach wanted message entries s).2 = .error .clientNotFound := by
  induction entries generalizing s with
  | nil => simp at h
  | cons e rest ih =>
    obtain ⟨id, state⟩ := e
    obtain ⟨e, he, hw, hl⟩ := h
    by_cases hid : s.Listening id
    · have he' : e ∈ rest := by
        rcases List.mem_cons.mp he with rfl | he'
        · exact absurd hid hl
        · exact he'
      by_cases hws : wanted state.role
      · simp only [deliverEach, hws, if_true, deliverToClient_ok hid]
        refine ih ⟨e, he', hw, fun hc => hl ⟨hc.1, ?_⟩⟩
        have ha := hc.2
        simp only [push, Function.update_apply] at ha
        split_ifs at ha with heq
        · exact heq ▸ ha
        · exact ha
      · simp only [deliverEach, hws]
        exact ih ⟨e, he', hw, hl⟩
    · by_cases hws : wanted state.role
      · simp [deliverEach, hws, deliverToClient_error hid]
      · rcases List.mem_cons.mp he with rfl | he'
        · exact absurd hw hws
        · simp only [deliverEach, hws]
          exact ih ⟨e, he', hw, hl⟩

lemma deliverToClient_frame (s : SessionLoop) (id : Id) (message : Value) :
    ∃ r, (s.deliverToClient id message).1 = { s with recv := r } := by
  by_cases h : s.Listening id
  · exact ⟨_, by rw [deliverToClient_ok h]; rfl⟩
  · exact ⟨s.recv, by rw [deliverToClient_error h]⟩

lemma deliverEach_frame (wanted : ClientRole → Bool) (message : Value)
    (entries : List (Σ _ : Id, ClientState)) (s : SessionLoop) :
    ∃ r, (deliverEach wanted message entries s).1 = { s with recv := r } := by
  induction entries generalizing s with
  | nil => exact ⟨s.recv, rfl⟩
  | cons e rest ih =>
    obtain ⟨id, state⟩ := e
    by_cases hw : wanted state.role
    · by_cases hl : s.Listening id
      · simp only [deliverEach, hw, if_true, deliverToClient_ok hl]
        obtain ⟨r, hr⟩ := ih (s.push id message)
        exact ⟨r, by rw [hr]; rfl⟩
      · simp only [deliverEach, hw, if_true, deliverToClient_error hl]
        exact ⟨s.recv, rfl⟩
    · simp only [deliverEach, hw]
      exact ih s

lemma listed_visit (wanted : ClientRole → Bool) (order : HashMap.Order Id ClientState) :
    listed wanted (order.visit s.clients) = s.wants wanted := by
  funext id
  rw [Bool.eq_iff_iff, listed, wants, List.any_eq_true, Option.any_eq_true]
  constructor
  · rintro ⟨⟨i, state⟩, he, h⟩
    obtain ⟨hid, hw⟩ := Bool.and_eq_true_iff.mp h
    obtain rfl := of_decide_eq_true hid
    exact ⟨state, order.mem_visit.mp he, hw⟩
  · rintro ⟨state, hs, hw⟩
    exact ⟨⟨id, state⟩, order.mem_visit.mpr hs, by simp [hw]⟩

lemma deliverEach_visit_ok {wanted : ClientRole → Bool} (h : s.Hears wanted)
    (order : HashMap.Order Id ClientState) (message : Value) :
    deliverEach wanted message (order.visit s.clients) s =
      (s.pushEach (s.wants wanted) message, .ok ()) := by
  rw [deliverEach_ok (order.nodup_keys _), listed_visit]
  rintro ⟨id, state⟩ he hw
  have hs := order.mem_visit.mp he
  exact ⟨by simp [hs], h id state hs hw⟩

lemma deliverEach_visit_error {wanted : ClientRole → Bool} (h : ¬ s.Hears wanted)
    (order : HashMap.Order Id ClientState) (message : Value) :
    (deliverEach wanted message (order.visit s.clients) s).2 = .error .clientNotFound := by
  simp only [Hears, not_forall] at h
  obtain ⟨id, state, hs, hw, ha⟩ := h
  exact deliverEach_error ⟨⟨id, state⟩, order.mem_visit.mpr hs, hw, fun hl => ha hl.2⟩

/-! ### Attaching -/

/-- The client that attaches next. -/
def nextId (s : SessionLoop) : Id := ⟨s.nextClientId + 1⟩

lemma foldl_deliver (s : SessionLoop) (id : Id) (hid : (s.clients.lookup id).isSome)
    (msgs sent : List Value) (hr : s.recv id = ⟨sent, true⟩) :
    msgs.foldl (fun s cached => (s.deliverToClient id cached).1) s =
      { s with recv := Function.update s.recv id ⟨sent ++ msgs, true⟩ } := by
  induction msgs generalizing s sent with
  | nil => simp [← hr]
  | cons m rest ih =>
    have hl : s.Listening id := ⟨hid, by simp [hr]⟩
    rw [List.foldl_cons, deliverToClient_ok hl]
    rw [ih (s.push id m) hid (sent ++ [m]) (by simp [push, hr, Mpsc.push])]
    simp [push]

/-- The loop with one more client, which finds the replay on its channel. -/
def attached (s : SessionLoop) (role : ClientRole) : SessionLoop :=
  { s with
    nextClientId := s.nextClientId + 1
    broadcast := s.broadcast.subscribe s.nextId
    clients := s.clients.insert s.nextId ⟨role⟩
    recv := Function.update s.recv s.nextId ⟨s.cache.replay, true⟩ }

lemma attach_eq (s : SessionLoop) (role : ClientRole) : s.attach role = s.attached role := by
  unfold attach attached
  rw [foldl_deliver _ _ (by simp) _ [] (by simp [Mpsc.opened])]
  simp [nextId]

/-! ### Client requests -/

/-- A request the loop answers itself. -/
abbrev AnsweredLocally (role : ClientRole) (message : Value) : Prop :=
  role = .control ∧ command message = some breakpointSnapshotCommand

/-- The loop after its answer to a snapshot request. -/
def answered (s : SessionLoop) (id : Id) (message : Value) : SessionLoop :=
  { s with displaySeq := s.displaySeq + 1 }.push id
    (response (s.displaySeq + 1) ((seq message).getD 0) true (some s.cache.breakpointSnapshot))

/-- The loop after a request went upstream. -/
def forwarded (s : SessionLoop) (id : Id) (role : ClientRole) (message : Value) : SessionLoop :=
  { (s.assignSeq id role message).1 with
    toUpstream := s.toUpstream.push (s.assignSeq id role message).2 }

lemma assignSeq_toUpstream (s : SessionLoop) (id : Id) (role : ClientRole) (message : Value) :
    (s.assignSeq id role message).1.toUpstream = s.toUpstream := by
  unfold assignSeq
  split
  · split <;> rfl
  · rfl

lemma handleClientMessage_detached (h : s.clients.lookup id = none) (message : Value) :
    s.handleClientMessage id message = (s, .error .clientNotFound) := by
  simp [handleClientMessage, h]

section Attached

variable {state : ClientState} (hs : s.clients.lookup id = some state)
include hs

lemma handleClientMessage_ignored (h : messageKind message ≠ .request) :
    s.handleClientMessage id message = (s, .ok ()) := by
  simp [handleClientMessage, hs, h]

lemma handleClientMessage_answered (h : messageKind message = .request)
    (ha : AnsweredLocally state.role message) (hl : s.Listening id) :
    s.handleClientMessage id message = (s.answered id message, .ok ()) := by
  have hl' : { s with displaySeq := s.displaySeq + 1 }.Listening id := hl
  simp only [handleClientMessage, hs, h, ne_eq, not_true_eq_false, if_false]
  rw [if_pos ha, deliverToClient_ok hl']
  rfl

lemma handleClientMessage_unheard (h : messageKind message = .request)
    (ha : AnsweredLocally state.role message) (hl : ¬ s.Listening id) :
    s.handleClientMessage id message =
      ({ s with displaySeq := s.displaySeq + 1 }, .error .clientNotFound) := by
  have hl' : ¬ { s with displaySeq := s.displaySeq + 1 }.Listening id := hl
  simp only [handleClientMessage, hs, h, ne_eq, not_true_eq_false, if_false]
  rw [if_pos ha, deliverToClient_error hl']

lemma handleClientMessage_forwarded (h : messageKind message = .request)
    (ha : ¬ AnsweredLocally state.role message) :
    s.handleClientMessage id message =
      if s.toUpstream.alive then (s.forwarded id state.role message, .ok ())
      else ((s.assignSeq id state.role message).1, .error .upstreamNotConnected) := by
  simp only [handleClientMessage, hs, h, ne_eq, not_true_eq_false, if_false]
  rw [if_neg ha, sendUpstream, assignSeq_toUpstream, forwarded]

end Attached

/-- **What a client's message leaves**, whether the step goes through or not. -/
theorem handleClientMessage_cases (s : SessionLoop) (id : Id) (message : Value) :
    (s.handleClientMessage id message).1 ∈
        [s, s.answered id message, { s with displaySeq := s.displaySeq + 1 }] ∨
      messageKind message = .request ∧ ∃ role, (s.handleClientMessage id message).1 ∈
        [s.forwarded id role message, (s.assignSeq id role message).1] := by
  cases hs : s.clients.lookup id with
  | none => exact .inl (by simp [handleClientMessage_detached hs])
  | some state =>
    by_cases hk : messageKind message = .request
    · by_cases ha : AnsweredLocally state.role message
      · by_cases hl : s.Listening id
        · exact .inl (by simp [handleClientMessage_answered hs hk ha hl])
        · exact .inl (by simp [handleClientMessage_unheard hs hk ha hl])
      · refine .inr ⟨hk, state.role, ?_⟩
        rw [handleClientMessage_forwarded hs hk ha]
        split_ifs <;> simp
    · exact .inl (by simp [handleClientMessage_ignored hs hk])

/-! ### Upstream messages -/

/-- The broadcast stream after a message went out on it. -/
def published (s : SessionLoop) (message : Value) : Broadcast Id Value :=
  if 0 < s.broadcast.receiverCount then s.broadcast.send message else s.broadcast

lemma publish_eq (s : SessionLoop) (message : Value) :
    s.publish message = { s with broadcast := s.published message } := by
  unfold publish published
  split <;> rfl

/-- The event as clients see it. -/
def outboundEvent (s : SessionLoop) (message : Value) : Value :=
  setSeq message (s.displaySeq + 1)

/-- The loop as it begins the deliveries of an event. -/
def noted (s : SessionLoop) (message : Value) : SessionLoop :=
  { s with
    cache := s.cache.observe message
    displaySeq := s.displaySeq + 1
    broadcast := { s with broadcast := s.published message }.published (s.outboundEvent message) }

/-- The loop after an event went to everyone it is due to. -/
def afterEvent (s : SessionLoop) (message : Value) : SessionLoop :=
  (s.noted message).pushEach (s.wants receivesEvents) (s.outboundEvent message)

lemma handleUpstreamMessage_event (h : messageKind message = .event)
    (order : HashMap.Order Id ClientState) :
    s.handleUpstreamMessage message order =
      deliverEach receivesEvents (s.outboundEvent message) (order.visit s.clients)
        (s.noted message) := by
  simp only [handleUpstreamMessage, h, broadcastToAll, publish_eq]
  rfl

lemma handleUpstreamMessage_event_ok (h : messageKind message = .event)
    (hh : s.Hears receivesEvents) (order : HashMap.Order Id ClientState) :
    s.handleUpstreamMessage message order = (s.afterEvent message, .ok ()) := by
  have hh' : (s.noted message).Hears receivesEvents := hh
  rw [handleUpstreamMessage_event h]
  exact deliverEach_visit_ok hh' order _

lemma handleUpstreamMessage_event_error (h : messageKind message = .event)
    (hh : ¬ s.Hears receivesEvents) (order : HashMap.Order Id ClientState) :
    (s.handleUpstreamMessage message order).2 = .error .clientNotFound := by
  have hh' : ¬ (s.noted message).Hears receivesEvents := hh
  rw [handleUpstreamMessage_event h]
  exact deliverEach_visit_error hh' order _

/-- The loop once it has looked at a response. -/
def observed (s : SessionLoop) (message : Value) : SessionLoop :=
  { s with broadcast := s.published message, cache := s.cache.observeResponse message }

def isEditor (role : ClientRole) : Bool := role = .editor

/-- The loop as it begins to deliver the response to a request of the editor. -/
def unmapped (s : SessionLoop) (message : Value) (b : ℤ) : SessionLoop :=
  { s.observed message with
    remapper := (s.remapper.unmap ⟨b⟩).1
    displaySeq := s.displaySeq + 1 }

/-- A response as the editor sees it. -/
def outboundResponse (s : SessionLoop) (message : Value) (c : ℤ) : Value :=
  setSeq (setRequestSeq message c) (s.displaySeq + 1)

/-- The loop after the response to a request of the editor. -/
def afterEditor (s : SessionLoop) (message : Value) (b c : ℤ) : SessionLoop :=
  (s.unmapped message b).pushEach (s.wants isEditor) (s.outboundResponse message c)

/-- The loop as it begins to deliver the response to a request of another client. -/
def unpended (s : SessionLoop) (message : Value) (b : ℤ) : SessionLoop :=
  { s.observed message with secondaryPending := s.secondaryPending.erase b }

/-- The loop after the response to a request of another client. -/
def afterSecondary (s : SessionLoop) (message : Value) (b : ℤ) (id : Id) (c : ℤ) :
    SessionLoop :=
  (s.unpended message b).push id (setRequestSeq message c)

section Response

variable (h : messageKind message = .response) (order : HashMap.Order Id ClientState)
include h

lemma handleUpstreamMessage_malformed (hb : requestSeq message = none) :
    s.handleUpstreamMessage message order =
      (s.observed message, .error (.other "response missing requestSeq")) := by
  simp only [handleUpstreamMessage, h, handleResponse, hb, publish_eq]
  rfl

variable {b : ℤ} (hb : requestSeq message = some b)
include hb

lemma handleUpstreamMessage_editor {c : ℤ} (hm : s.remapper.lookupClient ⟨b⟩ = some ⟨c⟩) :
    s.handleUpstreamMessage message order =
      deliverEach isEditor (s.outboundResponse message c) (order.visit s.clients)
        (s.unmapped message b) := by
  have hu : s.remapper.unmap ⟨b⟩ = ((s.remapper.unmap ⟨b⟩).1, some ⟨c⟩) :=
    Prod.ext rfl ((MessageRemapper.unmap_snd _ _).trans hm)
  simp only [handleUpstreamMessage, h, handleResponse, hb, publish_eq, deliverToEditor]
  rw [hu]
  rfl

lemma handleUpstreamMessage_editor_ok {c : ℤ} (hm : s.remapper.lookupClient ⟨b⟩ = some ⟨c⟩)
    (hh : s.Hears isEditor) :
    s.handleUpstreamMessage message order = (s.afterEditor message b c, .ok ()) := by
  have hh' : (s.unmapped message b).Hears isEditor := hh
  rw [handleUpstreamMessage_editor h order hb hm]
  exact deliverEach_visit_ok hh' order _

lemma handleUpstreamMessage_editor_error {c : ℤ}
    (hm : s.remapper.lookupClient ⟨b⟩ = some ⟨c⟩) (hh : ¬ s.Hears isEditor) :
    (s.handleUpstreamMessage message order).2 = .error .clientNotFound := by
  have hh' : ¬ (s.unmapped message b).Hears isEditor := hh
  rw [handleUpstreamMessage_editor h order hb hm]
  exact deliverEach_visit_error hh' order _

variable (hm : s.remapper.lookupClient ⟨b⟩ = none)
include hm

lemma handleUpstreamMessage_secondary {c : ℤ} (hp : s.secondaryPending.lookup b = some (id, c)) :
    s.handleUpstreamMessage message order =
      (s.unpended message b).deliverToClient id (setRequestSeq message c) := by
  simp only [handleUpstreamMessage, h, handleResponse, hb, publish_eq]
  rw [MessageRemapper.unmap_of_none hm]
  simp only [hp]
  rfl

lemma handleUpstreamMessage_secondary_ok {c : ℤ}
    (hp : s.secondaryPending.lookup b = some (id, c)) (hl : s.Listening id) :
    s.handleUpstreamMessage message order = (s.afterSecondary message b id c, .ok ()) := by
  have hl' : (s.unpended message b).Listening id := hl
  rw [handleUpstreamMessage_secondary h order hb hm hp]
  exact deliverToClient_ok hl' _

lemma handleUpstreamMessage_secondary_error {c : ℤ}
    (hp : s.secondaryPending.lookup b = some (id, c)) (hl : ¬ s.Listening id) :
    (s.handleUpstreamMessage message order).2 = .error .clientNotFound := by
  have hl' : ¬ (s.unpended message b).Listening id := hl
  rw [handleUpstreamMessage_secondary h order hb hm hp, deliverToClient_error hl']

lemma handleUpstreamMessage_unmatched (hp : s.secondaryPending.lookup b = none) :
    s.handleUpstreamMessage message order = (s.observed message, .ok ()) := by
  simp only [handleUpstreamMessage, h, handleResponse, hb, publish_eq]
  rw [MessageRemapper.unmap_of_none hm]
  simp only [hp]
  rfl

end Response

lemma handleUpstreamMessage_other (h : messageKind message ≠ .response)
    (h' : messageKind message ≠ .event) (order : HashMap.Order Id ClientState) :
    s.handleUpstreamMessage message order =
      ({ s with broadcast := s.published message }, .ok ()) := by
  simp only [handleUpstreamMessage, publish_eq]
  split <;> simp_all

/-- An upstream message, delivered or not, leaves the clients and the request side alone, and takes
one number for its delivery at most. -/
lemma handleUpstreamMessage_frame (s : SessionLoop) (message : Value)
    (order : HashMap.Order Id ClientState) :
    let t := (s.handleUpstreamMessage message order).1
    t.toUpstream = s.toUpstream ∧ t.clients = s.clients ∧ t.backendSeq = s.backendSeq ∧
      t.nextClientId = s.nextClientId ∧
      (t.displaySeq = s.displaySeq ∨ t.displaySeq = s.displaySeq + 1) := by
  -- only an event, or a response that is for somebody, is delivered
  rcases hk : messageKind message with _ | _ | _ | _
  case request => rw [handleUpstreamMessage_other (by simp [hk]) (by simp [hk])]; simp
  case unknown => rw [handleUpstreamMessage_other (by simp [hk]) (by simp [hk])]; simp
  case event =>
    rw [handleUpstreamMessage_event hk]
    obtain ⟨r, hr⟩ := deliverEach_frame receivesEvents (s.outboundEvent message)
      (order.visit s.clients) (s.noted message)
    rw [hr]
    simp [noted]
  case response =>
    cases hb : requestSeq message with
    | none => rw [handleUpstreamMessage_malformed hk order hb]; simp [observed]
    | some b =>
      cases hm : s.remapper.lookupClient ⟨b⟩ with
      | some c =>
        rw [handleUpstreamMessage_editor hk order hb hm]
        obtain ⟨r, hr⟩ := deliverEach_frame isEditor (s.outboundResponse message c.raw)
          (order.visit s.clients) (s.unmapped message b)
        rw [hr]
        simp [unmapped, observed]
      | none =>
        cases hp : s.secondaryPending.lookup b with
        | none => rw [handleUpstreamMessage_unmatched hk order hb hm hp]; simp [observed]
        | some p =>
          obtain ⟨id, c⟩ := p
          rw [handleUpstreamMessage_secondary hk order hb hm hp]
          obtain ⟨r, hr⟩ := deliverToClient_frame (s.unpended message b) id
            (setRequestSeq message c)
          rw [hr]
          simp [unpended, observed]

/-! ### All the ways a step goes through -/

inductive Took (s : SessionLoop) : Input → SessionLoop → Prop
  | attach (role : ClientRole) : Took s (.op (.attach role)) (s.attached role)
  | detach (id : Id) : Took s (.op (.detach id)) { s with clients := s.clients.erase id }
  | ignored {id : Id} {state : ClientState} {message : Value}
      (hs : s.clients.lookup id = some state) (hk : messageKind message ≠ .request) :
      Took s (.op (.clientSend id message)) s
  | answered {id : Id} {state : ClientState} {message : Value}
      (hs : s.clients.lookup id = some state) (hk : messageKind message = .request)
      (ha : AnsweredLocally state.role message) (hl : s.Listening id) :
      Took s (.op (.clientSend id message)) (s.answered id message)
  | forwarded {id : Id} {state : ClientState} {message : Value}
      (hs : s.clients.lookup id = some state) (hk : messageKind message = .request)
      (ha : ¬ AnsweredLocally state.role message) (hu : s.toUpstream.alive) :
      Took s (.op (.clientSend id message)) (s.forwarded id state.role message)
  | event {message : Value} {order : HashMap.Order Id ClientState}
      (hk : messageKind message = .event) (hh : s.Hears receivesEvents) :
      Took s (.upstream message order) (s.afterEvent message)
  | editor {message : Value} {order : HashMap.Order Id ClientState} {b : ℤ} {c : ClientSeq}
      (hk : messageKind message = .response) (hb : requestSeq message = some b)
      (hm : s.remapper.lookupClient ⟨b⟩ = some c) (hh : s.Hears isEditor) :
      Took s (.upstream message order) (s.afterEditor message b c.raw)
  | secondary {message : Value} {order : HashMap.Order Id ClientState} {b : ℤ} {id : Id} {c : ℤ}
      (hk : messageKind message = .response) (hb : requestSeq message = some b)
      (hm : s.remapper.lookupClient ⟨b⟩ = none)
      (hp : s.secondaryPending.lookup b = some (id, c)) (hl : s.Listening id) :
      Took s (.upstream message order) (s.afterSecondary message b id c)
  | unmatched {message : Value} {order : HashMap.Order Id ClientState} {b : ℤ}
      (hk : messageKind message = .response) (hb : requestSeq message = some b)
      (hm : s.remapper.lookupClient ⟨b⟩ = none) (hp : s.secondaryPending.lookup b = none) :
      Took s (.upstream message order) (s.observed message)
  | unexpected {message : Value} {order : HashMap.Order Id ClientState}
      (hk : messageKind message ≠ .response) (hk' : messageKind message ≠ .event) :
      Took s (.upstream message order) { s with broadcast := s.published message }
  | dropRecv (id : Id) :
      Took s (.dropRecv id) { s with recv := Function.update s.recv id (s.recv id).drop }
  | dropEvents (id : Id) :
      Took s (.dropEvents id) { s with broadcast := s.broadcast.unsubscribe id }
  | dropUpstream : Took s .dropUpstream { s with toUpstream := s.toUpstream.drop }

lemma took_clientSend {t : SessionLoop}
    (h : s.handleClientMessage id message = (t, .ok ())) :
    Took s (.op (.clientSend id message)) t := by
  cases hs : s.clients.lookup id with
  | none => simp [handleClientMessage_detached hs] at h
  | some state =>
    by_cases hk : messageKind message = .request
    · by_cases ha : AnsweredLocally state.role message
      · by_cases hl : s.Listening id
        · rw [handleClientMessage_answered hs hk ha hl] at h
          obtain rfl := congrArg Prod.fst h
          exact .answered hs hk ha hl
        · simp [handleClientMessage_unheard hs hk ha hl] at h
      · rw [handleClientMessage_forwarded hs hk ha] at h
        split_ifs at h with hu
        · obtain rfl := congrArg Prod.fst h
          exact .forwarded hs hk ha hu
        · simp at h
    · rw [handleClientMessage_ignored hs hk] at h
      obtain rfl := congrArg Prod.fst h
      exact .ignored hs hk

lemma took_upstream {order : HashMap.Order Id ClientState} {t : SessionLoop}
    (h : s.handleUpstreamMessage message order = (t, .ok ())) :
    Took s (.upstream message order) t := by
  by_cases hk : messageKind message = .response
  · cases hb : requestSeq message with
    | none => simp [handleUpstreamMessage_malformed hk order hb] at h
    | some b =>
      cases hm : s.remapper.lookupClient ⟨b⟩ with
      | some c =>
        by_cases hh : s.Hears isEditor
        · rw [handleUpstreamMessage_editor_ok hk order hb hm hh] at h
          obtain rfl := congrArg Prod.fst h
          exact .editor hk hb hm hh
        · -- an editor that cannot be told ends the loop
          have he := handleUpstreamMessage_editor_error hk order hb hm hh
          simp [h] at he
      | none =>
        cases hp : s.secondaryPending.lookup b with
        | none =>
          rw [handleUpstreamMessage_unmatched hk order hb hm hp] at h
          obtain rfl := congrArg Prod.fst h
          exact .unmatched hk hb hm hp
        | some p =>
          by_cases hl : s.Listening p.1
          · rw [handleUpstreamMessage_secondary_ok hk order hb hm hp hl] at h
            obtain rfl := congrArg Prod.fst h
            exact .secondary hk hb hm hp hl
          · -- so does another client
            have he := handleUpstreamMessage_secondary_error hk order hb hm hp hl
            simp [h] at he
  · by_cases hk' : messageKind message = .event
    · by_cases hh : s.Hears receivesEvents
      · rw [handleUpstreamMessage_event_ok hk' hh] at h
        obtain rfl := congrArg Prod.fst h
        exact .event hk' hh
      · -- and a client that an event is for
        have he := handleUpstreamMessage_event_error hk' hh order
        simp [h] at he
    · rw [handleUpstreamMessage_other hk hk'] at h
      obtain rfl := congrArg Prod.fst h
      exact .unexpected hk hk'

/-- **Inversion.** A step that goes through did one of these things. -/
theorem took_of_step {i : Input} {t : SessionLoop} (h : s.step i = (t, .ok ())) :
    Took s i t := by
  match i with
  | .upstream message order => exact took_upstream h
  | .op (.clientSend id message) => exact took_clientSend h
  | .op (.attach role) =>
    obtain rfl := congrArg Prod.fst h
    simp only [step, handleOp, attach_eq]
    exact .attach role
  | .op (.detach id) => obtain rfl := congrArg Prod.fst h; exact .detach id
  | .dropRecv id => obtain rfl := congrArg Prod.fst h; exact .dropRecv id
  | .dropEvents id => obtain rfl := congrArg Prod.fst h; exact .dropEvents id
  | .dropUpstream => obtain rfl := congrArg Prod.fst h; exact .dropUpstream

/-! ### Counters -/

/-- Each counter is as it was, or one more. -/
structure Counted (s t : SessionLoop) : Prop where
  backendSeq : t.backendSeq = s.backendSeq ∨ t.backendSeq = s.backendSeq + 1
  displaySeq : t.displaySeq = s.displaySeq ∨ t.displaySeq = s.displaySeq + 1
  nextClientId : t.nextClientId = s.nextClientId ∨ t.nextClientId = s.nextClientId + 1

lemma counted_assignSeq (s : SessionLoop) (id : Id) (role : ClientRole) (message : Value) :
    Counted s (s.assignSeq id role message).1 := by
  unfold assignSeq
  split
  · split
    · exact ⟨.inl rfl, .inl rfl, .inl rfl⟩
    · exact ⟨.inr rfl, .inl rfl, .inl rfl⟩
  · exact ⟨.inr rfl, .inl rfl, .inl rfl⟩

/-- **One step**, also one that fails, takes one number of each kind at most. -/
lemma counted_step (s : SessionLoop) (i : Input) : Counted s (s.step i).1 := by
  match i with
  | .upstream message order =>
    obtain ⟨-, -, hb, hn, hd⟩ := handleUpstreamMessage_frame s message order
    exact ⟨.inl hb, hd, .inl hn⟩
  | .op (.clientSend id message) =>
    simp only [step, handleOp]
    rcases handleClientMessage_cases s id message with hmem | ⟨-, role, hmem⟩
    · simp only [List.mem_cons, List.not_mem_nil, or_false] at hmem
      rcases hmem with he | he | he
      · rw [he]
        exact ⟨.inl rfl, .inl rfl, .inl rfl⟩
      · rw [he]
        exact ⟨.inl rfl, .inr rfl, .inl rfl⟩
      · rw [he]
        exact ⟨.inl rfl, .inr rfl, .inl rfl⟩
    · have hassign := counted_assignSeq s id role message
      simp only [List.mem_cons, List.not_mem_nil, or_false] at hmem
      rcases hmem with he | he
      · rw [he]
        exact ⟨hassign.backendSeq, hassign.displaySeq, hassign.nextClientId⟩
      · rw [he]
        exact hassign
  | .op (.attach role) =>
    simp only [step, handleOp, attach_eq]
    exact ⟨.inl rfl, .inl rfl, .inr rfl⟩
  | .op (.detach _) | .dropRecv _ | .dropEvents _ | .dropUpstream =>
    exact ⟨.inl rfl, .inl rfl, .inl rfl⟩

/-- The counters are not negative, and at most `n`. -/
structure CountsTo (n : ℕ) (s : SessionLoop) : Prop where
  backendSeq : 0 ≤ s.backendSeq ∧ s.backendSeq ≤ n
  displaySeq : 0 ≤ s.displaySeq ∧ s.displaySeq ≤ n
  nextClientId : s.nextClientId ≤ n

lemma CountsTo.step {n : ℕ} (h : CountsTo n s) (i : Input) : CountsTo (n + 1) (s.step i).1 := by
  obtain ⟨hb, hd, hn⟩ := h
  obtain ⟨hb', hd', hn'⟩ := counted_step s i
  refine ⟨?_, ?_, ?_⟩
  · rcases hb' with he | he <;> omega
  · rcases hd' with he | he <;> omega
  · rcases hn' with he | he <;> omega

lemma CountsTo.run {n : ℕ} (h : CountsTo n s) (inputs : List Input) :
    CountsTo (n + inputs.length) (Machine.run SessionLoop.step s inputs).1 := by
  induction inputs generalizing s n with
  | nil => exact h
  | cons i is ih =>
    have hnext := h.step i
    rcases step_ok_or_error SessionLoop.step s i with ⟨t, ht⟩ | ⟨t, e, ht⟩
    · rw [ht] at hnext
      rw [run_cons_ok ht, List.length_cons, Nat.add_comm is.length, ← Nat.add_assoc]
      exact ih hnext
    · rw [ht] at hnext
      rw [run_cons_error ht]
      have hle : n + 1 ≤ n + (i :: is).length := by
        rw [List.length_cons]
        omega
      obtain ⟨hb, hd, hn⟩ := hnext
      exact ⟨⟨hb.1, by omega⟩, ⟨hd.1, by omega⟩, by omega⟩

/-- **The counters fit**: the numbers that a run gives are at most as many as its inputs, so that
no `i64` and no `u64` overflows in a run of fewer than `2^63`. -/
theorem counters_fit {inputs : List Input} (h : inputs.length < 2 ^ 63) :
    CountsTo (2 ^ 63 - 1) (Machine.run SessionLoop.step start inputs).1 := by
  have hstart : CountsTo 0 start := ⟨by simp [start], by simp [start], le_rfl⟩
  obtain ⟨hb, hd, hn⟩ := hstart.run inputs
  exact ⟨⟨hb.1, by omega⟩, ⟨hd.1, by omega⟩, by omega⟩

end DappyCore.Session.SessionLoop
