import Mathlib.Data.List.Forall2
import DappyCore.Broadcasting
import DappyCore.Queues

/-!
What a client that is not an editor finds on its own channel: the replay, then the events if its
role gets them, the responses to its own requests, and for a control client the snapshots it asks
for; each once, in order, and nothing of the other clients.
-/

namespace DappyCore.ClientQueue

open Lib Lib.Machine Json MuxMessage Session SessionLoop Observer Broadcasting

/-- Something that concerns a client: an event, the response to a request of its own that is open
under a number, or a snapshot that it asks for. -/
inductive Due
  | event (message : Value)
  | answer (b : ℤ) (request : Request) (message : Value)
  | snapshot (request body : Value)

/-- What a step brings that concerns a client. -/
def due (id : Id) (role : ClientRole) (v : (SessionLoop × History) × Input) : Option Due :=
  match v.2 with
  | .upstream message _ =>
    match messageKind message with
    | .event => if receivesEvents role then some (.event message) else none
    | .response => (requestSeq message).bind fun b =>
        ((v.1.2.requests.outstanding.lookup b).filter fun r => r.client = id).map fun r =>
          .answer b r message
    | .request | .unknown => none
  | .op (.clientSend id' message) =>
    if id' = id ∧ messageKind message = .request ∧ AnsweredLocally role message then
      some (.snapshot message v.1.1.cache.breakpointSnapshot)
    else none
  | .op (.attach _) | .op (.detach _) | .dropRecv _ | .dropEvents _ | .dropUpstream => none

/-- How that appears on the client's channel. -/
def Appears : Due → Value → Prop
  | .event message, v => ∃ n, v = setSeq message n
  | .answer b request message, v => v = setRequestSeq message ((seq request.message).getD b)
  | .snapshot request body, v => ∃ n, v = response n ((seq request).getD 0) true (some body)

variable {u : SessionLoop × History} {s t : SessionLoop} {h : History} {id : Id}
  {role : ClientRole}

/-- The client is attached, in a role other than the editor's. -/
structure Here (s : SessionLoop) (h : History) (id : Id) (role : ClientRole) : Prop where
  inv : Inv s h
  client : s.clients.lookup id = some ⟨role⟩
  role : role ≠ .editor

namespace Here

variable (hh : Here s h id role)
include hh

lemma log : (id, role) ∈ h.attached := hh.inv.attached id ⟨role⟩ hh.client

lemma wants_iff (wanted : ClientRole → Bool) : s.wants wanted id = wanted role := by
  simp [wants, hh.client]

/-- A request of the client is none of an editor. -/
lemma not_editor {b : ℤ} {r : Request} (ho : h.requests.outstanding.lookup b = some r)
    (hcl : r.client = id) : ¬ isEditor r.role := by
  intro he
  have hat := hh.inv.senders b r (hh.inv.fresh.mem_issued b r ho)
  rw [hcl, of_decide_eq_true he] at hat
  exact hh.role (role_unique hh.inv hh.log hat)

end Here

/-- What the client is brought by a step that puts one message on its channel, or none. -/
def Brings (s t : SessionLoop) (id : Id) (new : Option Due) : Prop :=
  ∃ more, (t.recv id).sent = (s.recv id).sent ++ more ∧ List.Forall₂ Appears new.toList more

lemma Brings.none (h : (t.recv id).sent = (s.recv id).sent) : Brings s t id none :=
  ⟨[], by rw [h, List.append_nil], .nil⟩

lemma Brings.one {x : Due} {v : Value} (h : (t.recv id).sent = (s.recv id).sent ++ [v])
    (hx : Appears x v) : Brings s t id (some x) :=
  ⟨[v], h, .cons hx .nil⟩

/-! ### One step -/

section Step

variable (hh : Here s h id role)
include hh

lemma brings_event {message : Value} (hk : messageKind message = .event)
    (order : HashMap.Order Id ClientState) :
    Brings s (s.afterEvent message) id (due id role ((s, h), .upstream message order)) := by
  have hw := hh.wants_iff receivesEvents
  simp only [due, hk]
  by_cases hr : receivesEvents role
  · rw [if_pos hr]
    refine .one ?_ ⟨s.displaySeq + 1, rfl⟩
    simp [afterEvent, pushEach, hw, hr, noted, outboundEvent]
  · rw [if_neg hr]
    refine .none ?_
    simp [afterEvent, pushEach, hw, hr, noted]

lemma brings_editor {message : Value} (hk : messageKind message = .response) {b : ℤ}
    (hb : requestSeq message = some b) {c : Remapper.ClientSeq}
    (hm : s.remapper.lookupClient ⟨b⟩ = some c) (order : HashMap.Order Id ClientState) :
    Brings s (s.afterEditor message b c.raw) id
      (due id role ((s, h), .upstream message order)) := by
  obtain ⟨r, ho, he, -⟩ := hh.inv.request_of_mapped hm
  have hne : r.client ≠ id := fun hcl => hh.not_editor ho hcl he
  have hw : s.wants isEditor id = false := by
    rw [hh.wants_iff, isEditor, decide_eq_false_iff_not]
    exact hh.role
  simp only [due, hk, hb, Option.bind_some, ho, Option.filter_some, hne, decide_false,
    Bool.false_eq_true, if_false, Option.map_none]
  refine .none ?_
  simp [afterEditor, pushEach, hw, unmapped, SessionLoop.observed]

lemma brings_secondary {message : Value} (hk : messageKind message = .response) {b : ℤ}
    (hb : requestSeq message = some b) {id' : Id} {c : ℤ}
    (hp : s.secondaryPending.lookup b = some (id', c)) (order : HashMap.Order Id ClientState) :
    Brings s (s.afterSecondary message b id' c) id
      (due id role ((s, h), .upstream message order)) := by
  obtain ⟨r, ho, he, hcl⟩ := hh.inv.request_of_pending hp
  have hc : (seq r.message).getD b = c := by
    have hpending := hh.inv.pending b
    rw [ho, hp] at hpending
    simpa [he] using (congrArg (fun p => p.map Prod.snd) hpending).symm
  simp only [due, hk, hb, Option.bind_some, ho, Option.filter_some]
  by_cases hid : id' = id
  · subst hid
    rw [if_pos (decide_eq_true hcl), Option.map_some]
    refine .one ?_ (congrArg (setRequestSeq message) hc.symm)
    simp [afterSecondary, push, unpended, SessionLoop.observed]
  · rw [hcl, if_neg (by simpa using hid), Option.map_none]
    refine .none ?_
    simp [afterSecondary, push, unpended, SessionLoop.observed,
      Function.update_of_ne (Ne.symm hid)]

/-- A number in neither table is nobody's. -/
lemma closed_of_unmatched {b : ℤ} (hm : s.remapper.lookupClient ⟨b⟩ = none)
    (hp : s.secondaryPending.lookup b = none) : h.requests.outstanding.lookup b = none := by
  rw [Option.eq_none_iff_forall_ne_some]
  intro r ho
  by_cases he : isEditor r.role
  · have hnone := hh.inv.not_editor_of_unmapped hm
    rw [ho] at hnone
    simp [he, Option.filter_some] at hnone
  · rw [hh.inv.pending b, ho] at hp
    simp [he, Option.filter_some] at hp

lemma brings_answered {id' : Id} {state : ClientState} {message : Value}
    (hs : s.clients.lookup id' = some state) (hk : messageKind message = .request)
    (ha : AnsweredLocally state.role message) :
    Brings s (s.answered id' message) id
      (due id role ((s, h), .op (.clientSend id' message))) := by
  simp only [due]
  by_cases hid : id' = id
  · subst hid
    obtain rfl : state = ⟨role⟩ := Option.some.inj (hs.symm.trans hh.client)
    rw [if_pos ⟨rfl, hk, ha⟩]
    refine .one ?_ ⟨s.displaySeq + 1, rfl⟩
    simp [answered, push]
  · rw [if_neg fun hc => hid hc.1]
    refine .none ?_
    simp [answered, push, Function.update_of_ne (Ne.symm hid)]

/-- **One step** brings the client what concerns it, and leaves it attached. -/
theorem here_step {i : Input} (hstay : i ≠ .op (.detach id)) (hstep : s.step i = (t, .ok ())) :
    Brings s t id (due id role ((s, h), i)) ∧ Here t (note h s i t) id role := by
  have hi := inv_step hh.inv hstep
  -- a request that the loop does not answer itself brings the sender nothing yet
  have hunasked : ∀ {id' : Id} {state : ClientState} {message : Value},
      s.clients.lookup id' = some state →
      ¬ (messageKind message = .request ∧ AnsweredLocally state.role message) →
      due id role ((s, h), .op (.clientSend id' message)) = none := by
    intro id' state message hs hno
    simp only [due]
    rw [if_neg]
    rintro ⟨rfl, hk, ha⟩
    obtain rfl : state = ⟨role⟩ := Option.some.inj (hs.symm.trans hh.client)
    exact hno ⟨hk, ha⟩
  cases took_of_step hstep with
  | attach role' =>
    -- the newcomer has another id
    have hne : id ≠ s.nextId := by
      rintro rfl
      have hle := hh.inv.ids _ hh.log
      simp only [nextId] at hle
      omega
    refine ⟨.none ?_, hi, ?_, hh.role⟩
    · simp [SessionLoop.attached, Function.update_of_ne hne]
    · simp [SessionLoop.attached, hne, hh.client]
  | detach id' =>
    have hne : id ≠ id' := by
      rintro rfl
      exact hstay rfl
    refine ⟨.none rfl, hi, ?_, hh.role⟩
    rw [AList.lookup_erase_ne hne]
    exact hh.client
  | ignored hs hk =>
    rw [hunasked hs fun hc => hk hc.1]
    exact ⟨.none rfl, hi, hh.client, hh.role⟩
  | answered hs hk ha _ => exact ⟨brings_answered hh hs hk ha, hi, hh.client, hh.role⟩
  | @forwarded id' state message hs hk ha hu =>
    rw [hunasked hs fun hc => ha hc.2]
    obtain ⟨hrecv, hclients, -⟩ := assignSeq_frame s id' state.role message
    refine ⟨.none ?_, hi, ?_, hh.role⟩
    · simp only [forwarded, hrecv]
    · simp only [forwarded, hclients]
      exact hh.client
  | event hk _ => exact ⟨brings_event hh hk _, hi, hh.client, hh.role⟩
  | editor hk hb hm _ => exact ⟨brings_editor hh hk hb hm _, hi, hh.client, hh.role⟩
  | secondary hk hb _ hp _ => exact ⟨brings_secondary hh hk hb hp _, hi, hh.client, hh.role⟩
  | unmatched hk hb hm hp =>
    refine ⟨?_, hi, hh.client, hh.role⟩
    simp only [due, hk, hb, Option.bind_some, closed_of_unmatched hh hm hp]
    exact .none rfl
  | @unexpected message _ hk hk' =>
    refine ⟨?_, hi, hh.client, hh.role⟩
    -- what is no message of the adapter's concerns nobody
    have hnone : due id role ((s, h), .upstream message ‹_›) = none := by
      simp only [due]
      split <;> simp_all
    rw [hnone]
    exact .none rfl
  | dropRecv id' =>
    refine ⟨.none ?_, hi, hh.client, hh.role⟩
    by_cases he : id = id'
    · simp [he]
    · simp [Function.update_of_ne he]
  | dropEvents id' => exact ⟨.none rfl, hi, hh.client, hh.role⟩
  | dropUpstream => exact ⟨.none rfl, hi, hh.client, hh.role⟩

end Step

/-! ### Runs -/

lemma queue_run (hh : Here u.1 u.2 id role) {post : List Input} {w : SessionLoop × History}
    (hstay : ∀ i ∈ post, i ≠ .op (.detach id)) (hr : run watched u post = (w, .ok ())) :
    ∃ more, (w.1.recv id).sent = (u.1.recv id).sent ++ more ∧
      List.Forall₂ Appears ((visits watched u post).filterMap (due id role)) more := by
  induction post generalizing u with
  | nil =>
    obtain rfl := congrArg Prod.fst hr
    exact ⟨[], by simp, .nil⟩
  | cons i post ih =>
    rcases step_ok_or_error watched u i with ⟨v, hv⟩ | ⟨v, e, hv⟩
    · obtain ⟨hstep, hnote⟩ := watched_ok hv
      obtain ⟨⟨first, hfirst, hdue⟩, hhere⟩ :=
        here_step hh (hstay i List.mem_cons_self) hstep
      rw [run_cons_ok hv] at hr
      obtain ⟨rest, hrest, hall⟩ := ih (hnote ▸ hhere)
        (fun j hj => hstay j (List.mem_cons_of_mem _ hj)) hr
      refine ⟨first ++ rest, by rw [hrest, hfirst, List.append_assoc], ?_⟩
      have hsplit : (visits watched u (i :: post)).filterMap (due id role) =
          (due id role (u, i)).toList ++ (visits watched v post).filterMap (due id role) := by
        rw [visits_cons_ok hv, List.filterMap_cons]
        cases due id role (u, i) <;> rfl
      rw [hsplit]
      exact List.rel_append hdue hall
    · simp [run_cons_error hv] at hr

/-- **A client's channel**: when a client that is no editor attaches, in any reachable state, and
stays attached, its channel has the replay and then, in the order of the steps, exactly what
concerns it, whatever the other clients do meanwhile. -/
theorem client_queue_exact {pre post : List Input} {role : ClientRole}
    {x w : SessionLoop × History} (hrole : role ≠ .editor)
    (hpre : run watched begin pre = (x, .ok ()))
    (hpost : run watched (joined x role) post = (w, .ok ()))
    (hstay : ∀ i ∈ post, i ≠ .op (.detach x.1.nextId)) :
    ∃ more, (w.1.recv x.1.nextId).sent = x.1.cache.replay ++ more ∧
      List.Forall₂ Appears
        ((visits watched (joined x role) post).filterMap (due x.1.nextId role)) more := by
  have hinv := inv_run hpre
  have hjoined : (joined x role).1 = x.1.attached role := attach_eq x.1 role
  have hh : Here (joined x role).1 (joined x role).2 x.1.nextId role := by
    have hnote : (joined x role).2 =
        { x.2 with attached := x.2.attached ++ [(x.1.nextId, role)] } := rfl
    rw [hjoined, hnote]
    exact ⟨hinv.attach role, by simp [SessionLoop.attached], hrole⟩
  obtain ⟨more, hmore, hall⟩ := queue_run hh hstay hpost
  refine ⟨more, ?_, hall⟩
  rw [hmore, hjoined]
  simp [SessionLoop.attached]

/-- The adapter is initialized before the control client attaches. -/
def beforeJoining : List Input :=
  [.op (.attach .editor), .upstream (event 1 "initialized" none) .listed]

/-- The client and the editor ask, and are answered; the debuggee stops. -/
def afterJoining : List Input :=
  [.op (.clientSend ⟨2⟩ (request 4 "threads" none)),
    .op (.clientSend ⟨1⟩ (request 4 "threads" none)),
    .upstream (response 9 1 true none) .listed, .upstream (response 10 2 true none) .listed,
    .upstream (event 11 "stopped" none) .listed]

theorem client_queue_exact_control : ∃ (x w : SessionLoop × History) (more : List Value),
    run watched begin beforeJoining = (x, .ok ()) ∧ (w.1.recv x.1.nextId).sent =
        x.1.cache.replay ++ more ∧
      List.Forall₂ Appears ((visits watched (joined x .control) afterJoining).filterMap
        (due x.1.nextId .control)) more ∧ more.length = 2 := by
  have hpre : run watched begin beforeJoining = ((run watched begin beforeJoining).1, .ok ()) :=
    Prod.ext rfl (by rfl)
  have hpost : run watched (joined (run watched begin beforeJoining).1 .control) afterJoining =
      ((run watched (joined (run watched begin beforeJoining).1 .control) afterJoining).1,
        .ok ()) := Prod.ext rfl (by rfl)
  obtain ⟨more, hsent, hall⟩ := client_queue_exact (by simp) hpre hpost (by simp [afterJoining])
  refine ⟨_, _, more, hpre, hsent, hall, ?_⟩
  rw [← hall.length_eq]
  rfl

end DappyCore.ClientQueue
