import DappyCore.SessionSteps

/-!
Client failures. A delivery to a client that is gone, or that has dropped its receiver, is an
error, and an error of one step ends the loop for everyone. This is the exact condition on a
run under which it never happens, and then everyone gets what is due to them.
-/

namespace DappyCore.Isolation

open Lib Lib.Machine Json MuxMessage Remapper Session SessionLoop

/-- The upstream side keeps its channel open and says which request a response answers. -/
def UpstreamSound : Input → Prop
  | .upstream message _ => messageKind message = .response → (requestSeq message).isSome
  | .dropUpstream => False
  | _ => True

/-- An upstream message is due to this client, which can still receive it. -/
def Due (s : SessionLoop) (message : Value) (id : Id) : Prop :=
  s.Listening id ∧
    match messageKind message with
    | .event => s.wants receivesEvents id
    | .response => ∃ b, requestSeq message = some b ∧
        match s.remapper.lookupClient ⟨b⟩ with
        | some _ => s.wants isEditor id
        | none => ∃ c, s.secondaryPending.lookup b = some (id, c)
    | _ => False

/-- The client's channel is given the message, up to numbering, and nothing else. -/
def Gets (s t : SessionLoop) (id : Id) (message : Value) : Prop :=
  ∃ m, (t.recv id).sent = (s.recv id).sent ++ [m] ∧ Renumbered message m

/-- The step does not run into a client that is gone. -/
def Undisturbed (s : SessionLoop) : Input → Prop
  | .op (.clientSend id message) =>
    ∃ state, s.clients.lookup id = some state ∧
      (messageKind message = .request → AnsweredLocally state.role message →
        (s.recv id).alive)
  | .upstream message _ =>
    match messageKind message with
    | .event => s.Hears receivesEvents
    | .response => ∀ b, requestSeq message = some b →
        match s.remapper.lookupClient ⟨b⟩ with
        | some _ => s.Hears isEditor
        | none => ∀ id c, s.secondaryPending.lookup b = some (id, c) → s.Listening id
    | _ => True
  | _ => True

variable {s : SessionLoop}

lemma gets_pushEach {who : Id → Bool} {id : Id} {message m : Value} (h : who id)
    (hm : Renumbered message m) : Gets s (s.pushEach who m) id message :=
  ⟨m, by simp [pushEach, h], hm⟩

lemma gets_push {id : Id} {message m : Value} (hm : Renumbered message m) :
    Gets s (s.push id m) id message :=
  ⟨m, by simp [push], hm⟩

/-! ### One step -/

lemma clientSend_ok_iff (halive : s.toUpstream.alive) (id : Id) (message : Value) :
    (s.handleClientMessage id message).2 = .ok () ↔
      Undisturbed s (.op (.clientSend id message)) := by
  cases hs : s.clients.lookup id with
  | none => simp [Undisturbed, hs, handleClientMessage_detached hs]
  | some state =>
    simp only [Undisturbed, hs, Option.some.injEq, exists_eq_left']
    by_cases hk : messageKind message = .request
    · by_cases ha : AnsweredLocally state.role message
      · by_cases hr : (s.recv id).alive
        · have hl : s.Listening id := ⟨by simp [hs], hr⟩
          simp [handleClientMessage_answered hs hk ha hl, hr]
        · have hl : ¬ s.Listening id := fun hl => hr hl.2
          rw [handleClientMessage_unheard hs hk ha hl]
          simp only [reduceCtorEq, false_iff]
          exact fun h => hr (h hk ha)
      · simp only [handleClientMessage_forwarded hs hk ha, halive, if_true, true_iff]
        exact fun _ h => absurd h ha
    · simp [handleClientMessage_ignored hs hk, hk]

lemma upstream_ok_iff {message : Value} (order : HashMap.Order Id ClientState)
    (hsound : UpstreamSound (.upstream message order)) :
    (s.handleUpstreamMessage message order).2 = .ok () ↔
      Undisturbed s (.upstream message order) := by
  rcases hk : messageKind message with _ | _ | _ | _
  case request =>
    rw [handleUpstreamMessage_other (by simp [hk]) (by simp [hk])]
    simp [Undisturbed, hk]
  case unknown =>
    rw [handleUpstreamMessage_other (by simp [hk]) (by simp [hk])]
    simp [Undisturbed, hk]
  case event =>
    simp only [Undisturbed, hk]
    by_cases hh : s.Hears receivesEvents
    · simp [handleUpstreamMessage_event_ok hk hh, hh]
    · simp [handleUpstreamMessage_event_error hk hh, hh]
  -- a response is for the editors, for one other client, or for nobody
  case response =>
    obtain ⟨b, hb⟩ := Option.isSome_iff_exists.mp (hsound hk)
    simp only [Undisturbed, hk, hb, Option.some.injEq, forall_eq']
    cases hm : s.remapper.lookupClient ⟨b⟩ with
    | some c =>
      by_cases hh : s.Hears isEditor
      · simp [handleUpstreamMessage_editor_ok hk order hb hm hh, hh]
      · simp [handleUpstreamMessage_editor_error hk order hb hm hh, hh]
    | none =>
      cases hp : s.secondaryPending.lookup b with
      | none => simp [handleUpstreamMessage_unmatched hk order hb hm hp]
      | some p =>
        obtain ⟨id, c⟩ := p
        by_cases hl : s.Listening id
        · simp [handleUpstreamMessage_secondary_ok hk order hb hm hp hl, hl]
        · simp only [handleUpstreamMessage_secondary_error hk order hb hm hp hl, reduceCtorEq,
            false_iff, not_forall]
          exact ⟨id, c, rfl, hl⟩

/-- A step goes through exactly when it meets no client that is gone. -/
lemma step_ok_iff (halive : s.toUpstream.alive) {i : Input} (hsound : UpstreamSound i) :
    (s.step i).2 = .ok () ↔ Undisturbed s i := by
  match i with
  | .upstream message order => exact upstream_ok_iff order hsound
  | .op (.clientSend id message) => exact clientSend_ok_iff halive id message
  | .op (.attach role) => simp [step, handleOp, Undisturbed]
  | .op (.detach id) => simp [step, handleOp, Undisturbed]
  | .dropRecv id => simp [step, Undisturbed]
  | .dropEvents id => simp [step, Undisturbed]
  | .dropUpstream => exact hsound.elim

/-- An upstream message that goes through reaches everyone it is due to. -/
lemma gets_of_due {message : Value} {order : HashMap.Order Id ClientState}
    (hu : Undisturbed s (.upstream message order)) {id : Id} (hd : Due s message id) :
    Gets s (s.handleUpstreamMessage message order).1 id message := by
  obtain ⟨hl, hd⟩ := hd
  rcases hk : messageKind message with _ | _ | _ | _
  case request => simp [hk] at hd
  case unknown => simp [hk] at hd
  case event =>
    simp only [Undisturbed, hk] at hu hd
    rw [handleUpstreamMessage_event_ok hk hu]
    exact gets_pushEach hd (renumbered_setSeq _ _)
  case response =>
    simp only [Undisturbed, hk] at hu hd
    obtain ⟨b, hb, hd⟩ := hd
    have hu := hu b hb
    cases hm : s.remapper.lookupClient ⟨b⟩ with
    | some c =>
      simp only [hm] at hu hd
      rw [handleUpstreamMessage_editor_ok hk order hb hm hu]
      exact gets_pushEach hd ((renumbered_setRequestSeq _ _).trans (renumbered_setSeq _ _))
    | none =>
      simp only [hm] at hu hd
      obtain ⟨c, hp⟩ := hd
      rw [handleUpstreamMessage_secondary_ok hk order hb hm hp hl]
      exact gets_push (renumbered_setRequestSeq _ _)

/-! ### Runs -/

lemma alive_step {i : Input} {t : SessionLoop} (hsound : UpstreamSound i)
    (halive : s.toUpstream.alive) (h : s.step i = (t, .ok ())) : t.toUpstream.alive := by
  cases took_of_step h with
  | dropUpstream => exact hsound.elim
  | _ => exact halive

/-- The loop does not end, and every upstream message reaches everyone it is due to. -/
def ServesAll (inputs : List Input) : Prop :=
  (run step start inputs).2 = .ok () ∧
    ∀ v ∈ visits step start inputs, ∀ message order, v.2 = .upstream message order →
      ∀ id, Due v.1 message id → Gets v.1 (v.1.step v.2).1 id message

/-- **Client failures are isolated exactly in the runs that meet none**: no client sends, is
answered or is sent an event when it is gone. -/
theorem servesAll_iff (inputs : List Input) (hsound : ∀ i ∈ inputs, UpstreamSound i) :
    ServesAll inputs ↔ ∀ v ∈ visits step start inputs, Undisturbed v.1 v.2 := by
  have hinv : ∀ v ∈ visits step start inputs, v.1.toUpstream.alive ∧ UpstreamSound v.2 :=
    visits_inv (fun s i t hi hs h => alive_step hi hs h) rfl hsound
  have hok : (run step start inputs).2 = .ok () ↔
      ∀ v ∈ visits step start inputs, Undisturbed v.1 v.2 := by
    rw [run_ok_iff]
    refine forall₂_congr fun v hv => ?_
    exact step_ok_iff (hinv v hv).1 (hinv v hv).2
  refine ⟨fun h => hok.mp h.1, fun h => ⟨hok.mpr h, ?_⟩⟩
  rintro ⟨s, i⟩ hv message order rfl id hd
  exact gets_of_due (h _ hv) hd

/-- A control client asks, detaches, and is answered. -/
def lateResponse : List Input :=
  [.op (.attach .editor), .op (.attach .control),
    .op (.clientSend ⟨2⟩ (request 1 "threads" none)), .op (.detach ⟨2⟩),
    .upstream (response 7 1 true none) .listed]

/-- A control client has dropped its receiver when an event arrives. -/
def deafBroadcast : List Input :=
  [.op (.attach .editor), .op (.attach .control), .dropRecv ⟨2⟩,
    .upstream (event 0 "stopped" none) .listed]

/-- A control client detaches with a request of its own still in the queue. -/
def lateSend : List Input :=
  [.op (.attach .editor), .op (.attach .control), .op (.detach ⟨2⟩),
    .op (.clientSend ⟨2⟩ (request 1 "threads" none))]

theorem servesAll_iff_lateResponse :
    ServesAll lateResponse ↔ ∀ v ∈ visits step start lateResponse, Undisturbed v.1 v.2 :=
  servesAll_iff lateResponse (by
    intro i hi
    simp only [lateResponse, List.mem_cons, List.not_mem_nil, or_false] at hi
    rcases hi with rfl | rfl | rfl | rfl | rfl
    all_goals first
      | trivial
      | exact fun _ => rfl)

/-- One client ends the loop for all of them, and the editor misses the event. -/
theorem client_failure_ends_the_loop :
    (run step start lateResponse).2 = .error .clientNotFound ∧
    (run step start deafBroadcast).2 = .error .clientNotFound ∧
    ((run step start deafBroadcast).1.recv ⟨1⟩).sent = [] ∧
    (run step start lateSend).2 = .error .clientNotFound :=
  ⟨rfl, rfl, rfl, rfl⟩

end DappyCore.Isolation
