import DappyCore.ClientQueue
import DappyCore.ControlSteps

/-!
A control client asks through the multiplexer: the response that its call returns is the one that
the adapter gave to this very request, whatever the other clients ask under the same number.
-/

namespace DappyCore.Asking

open Lib Lib.Machine Json MuxMessage Protocol Session SessionLoop Observer Broadcasting ClientQueue
open Control (ControlClient dapRequest dapRequestPreserveEvents responseMatchesSeq)

variable {id : Id} {role : ClientRole} {asked : Value} {c : ℤ}

/-- The messages that values of a channel are read as. -/
def ReadAs (values : List Value) (messages : List Message) : Prop :=
  List.Forall₂ (fun value message => Message.ofValue value = some message) values messages

/-- At this step the adapter responds to a request of the client, under the number that the
request was forwarded with and that is still open. -/
structure Responds (id : Id) (asked : Value) (v : (SessionLoop × History) × Input)
    (message : Value) : Prop where
  comes : ∃ order, v.2 = .upstream message order
  kind : messageKind message = .response
  own : ∃ b r, requestSeq message = some b ∧ v.1.2.requests.outstanding.lookup b = some r ∧
    r.client = id ∧ r.message = asked

/-- The client's messages have numbers of their own, and this number is that of one request. -/
def Numbered (id : Id) (c : ℤ) (asked : Value) (inputs : List Input) : Prop :=
  ∀ message, .op (.clientSend id message) ∈ inputs →
    ∃ n, seq message = some n ∧ (n = c → message = asked)

lemma exists_of_mem_right {α β : Type} {R : α → β → Prop} {l : List α} {l' : List β}
    (h : List.Forall₂ R l l') {b : β} (hb : b ∈ l') : ∃ a ∈ l, R a b := by
  induction h with
  | nil => simp at hb
  | cons hab _ ih =>
    rcases List.mem_cons.mp hb with rfl | hb
    · exact ⟨_, List.mem_cons_self, hab⟩
    · obtain ⟨a, ha, hr⟩ := ih hb
      exact ⟨a, List.mem_cons_of_mem _ ha, hr⟩

lemma exists_of_mem_left {α β : Type} {R : α → β → Prop} {l : List α} {l' : List β}
    (h : List.Forall₂ R l l') {a : α} (ha : a ∈ l) : ∃ b ∈ l', R a b :=
  exists_of_mem_right h.flip ha

/-! ### The number of a response -/

lemma requestSeq_of_aliased {v : Value} {n : ℤ}
    (h : (aliased v "request_seq" "requestSeq").bind Value.asI64 = some n) :
    requestSeq v = some n := by
  unfold aliased at h
  unfold requestSeq
  cases h1 : v.get "request_seq" with
  | none =>
    cases h2 : v.get "requestSeq" with
    | none => simp [h1, h2] at h
    | some a => simpa [h1, h2] using h
  | some a =>
    cases h2 : v.get "requestSeq" with
    | none => simpa [h1, h2] using h
    | some a' => simp [h1, h2] at h

lemma aliased_setRequestSeq {v : Value} (h : v.IsObject) (n : ℤ) :
    aliased (setRequestSeq v n) "request_seq" "requestSeq" = some (.int n) := by
  have hnone : (setRequestSeq v n).get "requestSeq" = none := by
    rw [setRequestSeq, Value.get_set_of_ne (by simp), Value.get_unset_self]
  have hsome : (setRequestSeq v n).get "request_seq" = some (.int n) := by
    rw [setRequestSeq, Value.get_set_self (h.unset _)]
  rw [aliased, hnone, hsome]

/-- What is read as a response has its kind and its number. -/
lemma response_of_ofValue {v : Value} {r : Response} (h : Message.ofValue v = some (.response r)) :
    messageKind v = .response ∧
      (aliased v "request_seq" "requestSeq").bind Value.asI64 = some r.requestSeq := by
  unfold Message.ofValue at h
  split at h
  · next ht =>
    simp only [Option.bind_eq_bind, Option.bind_eq_some_iff, Option.pure_def, Option.some.injEq,
      reduceCtorEq, and_false, exists_false] at h
  · next ht =>
    simp only [Option.bind_eq_bind, Option.bind_eq_some_iff, Option.pure_def, Option.some.injEq,
      Message.response.injEq] at h
    obtain ⟨a, -, b, hb, d, -, e, -, f, -, rfl⟩ := h
    exact ⟨by simp [messageKind, ht], Option.bind_eq_some_iff.mpr hb⟩
  · next ht =>
    simp only [Option.bind_eq_bind, Option.bind_eq_some_iff, Option.pure_def, Option.some.injEq,
      reduceCtorEq, and_false, exists_false] at h
  · simp at h

/-- What a renumbered response is read as has its number. -/
lemma number_of_renumbered {message : Value} {n : ℤ} {r : Response}
    (hk : messageKind message = .response)
    (h : Message.ofValue (setRequestSeq message n) = some (.response r)) : r.requestSeq = n := by
  have hobj := isObject_of_kind (v := message) (by simp [hk])
  obtain ⟨-, hnumber⟩ := response_of_ofValue h
  rw [aliased_setRequestSeq hobj] at hnumber
  exact (Option.some.inj hnumber).symm

lemma messageKind_setSeq (v : Value) (n : ℤ) : messageKind (setSeq v n) = messageKind v := by
  rw [messageKind, messageKind, get_setSeq_of_ne (by simp)]

lemma requestSeq_response (n k : ℤ) (ok : Bool) (body : Option Value) :
    requestSeq (MuxMessage.response n k ok body) = some k := by
  rw [requestSeq, MuxMessage.response, Value.get_obj (by simp), Value.get_obj (by simp)]
  rfl

/-! ### The requests of a run -/

/-- A request is issued where its client sends it. -/
lemma issued_note (h : History) (s : SessionLoop) (i : Input) (t : SessionLoop) {b : ℤ}
    {r : Observer.Request} (hr : (b, r) ∈ (note h s i t).requests.issued) :
    (b, r) ∈ h.requests.issued ∨ i = .op (.clientSend r.client r.message) := by
  match i with
  | .op (.attach _) | .op (.detach _) | .dropRecv _ | .dropEvents _ | .dropUpstream =>
    exact .inl hr
  | .op (.clientSend id message) =>
    simp only [note] at hr
    split at hr
    · rcases Ledger.mem_issue.mp hr with hr | ⟨-, rfl⟩
      · exact .inl hr
      · exact .inr rfl
    · exact .inl hr
  | .upstream message _ =>
    simp only [note] at hr
    split at hr
    · exact .inl hr
    · split at hr
      · exact .inl hr
      · exact .inl hr
    · exact .inl hr

/-- No request is that of a client yet to attach. -/
lemma not_issued {s : SessionLoop} {h : History} (hi : Inv s h) {b : ℤ} {r : Observer.Request}
    (hr : (b, r) ∈ h.requests.issued) : r.client ≠ s.nextId := by
  intro hid
  have hle := hi.ids _ (hi.senders b r hr)
  rw [hid] at hle
  simp only [nextId] at hle
  omega

/-- The requests of the client that are open were sent in the run. -/
lemma sent_of_open {u : SessionLoop × History} (inputs : List Input)
    (hnew : ∀ b r, (b, r) ∈ u.2.requests.issued → r.client ≠ id) (hi : Inv u.1 u.2) :
    ∀ v ∈ visits watched u inputs, ∀ b r, v.1.2.requests.outstanding.lookup b = some r →
      r.client = id → .op (.clientSend id r.message) ∈ inputs := by
  intro v hv b r hopen hid
  have hall := visits_inv (P := fun i => i ∈ inputs)
    (I := fun u : SessionLoop × History => Inv u.1 u.2 ∧ ∀ b r, (b, r) ∈ u.2.requests.issued →
      r.client = id → .op (.clientSend id r.message) ∈ inputs)
    (fun s i t hmem hs hstep => ?_) ⟨hi, fun b r hr hid => absurd hid (hnew b r hr)⟩
    (fun i h => h) v hv
  · exact hall.1.2 b r (hall.1.1.fresh.mem_issued b r hopen) hid
  · refine ⟨inv_watched hs.1 hstep, fun b r hr hid => ?_⟩
    rw [(watched_ok hstep).2] at hr
    rcases issued_note _ _ _ _ hr with hr | rfl
    · exact hs.2 b r hr hid
    · rw [← hid]
      exact hmem

/-- What is due for a response of the adapter is due at that step. -/
lemma responds_of_due {v : (SessionLoop × History) × Input} {b : ℤ} {request : Observer.Request}
    {message : Value} (h : due id role v = some (.answer b request message)) :
    Responds id request.message v message ∧ v.1.2.requests.outstanding.lookup b = some request ∧
      request.client = id := by
  obtain ⟨u, i⟩ := v
  match i with
  | .upstream message' order =>
    simp only [due] at h
    split at h
    · split_ifs at h
      simp at h
    · next hk =>
      obtain ⟨b', hb, h⟩ := Option.bind_eq_some_iff.mp h
      obtain ⟨r, hr, h⟩ := Option.map_eq_some_iff.mp h
      obtain ⟨hr, hcl⟩ := Option.filter_eq_some_iff.mp hr
      obtain ⟨rfl, rfl, rfl⟩ := Due.answer.inj h
      have hid : r.client = id := by simpa using hcl
      exact ⟨⟨⟨order, rfl⟩, hk, b', r, hb, hr, hid, rfl⟩, hr, hid⟩
    · simp at h
    · simp at h
  | .op (.clientSend id' message') =>
    simp only [due] at h
    split_ifs at h
    simp at h
  | .op (.attach _) | .op (.detach _) | .dropRecv _ | .dropEvents _ | .dropUpstream =>
    simp [due] at h

/-- A response of the adapter is due. -/
lemma due_of_responds (role : ClientRole) {v : (SessionLoop × History) × Input}
    {message : Value} (h : Responds id asked v message) : ∃ b request, request.message = asked ∧
      due id role v = some (.answer b request message) := by
  obtain ⟨⟨order, hv⟩, hk, b, r, hb, hopen, hid, rfl⟩ := h
  obtain ⟨u, i⟩ := v
  obtain rfl : i = .upstream message order := hv
  refine ⟨b, r, rfl, ?_⟩
  simp [due, hk, hb, hopen, hid, Option.filter_some]

/-- A snapshot is due for a request that the client sends. -/
lemma sends_of_due {v : (SessionLoop × History) × Input} {request body : Value}
    (h : due id role v = some (.snapshot request body)) :
    v.2 = .op (.clientSend id request) ∧ AnsweredLocally role request := by
  obtain ⟨u, i⟩ := v
  match i with
  | .upstream message' order =>
    simp only [due] at h
    split at h
    · split_ifs at h
      simp at h
    · obtain ⟨b', hb, h⟩ := Option.bind_eq_some_iff.mp h
      obtain ⟨r, hr, h⟩ := Option.map_eq_some_iff.mp h
      simp at h
    · simp at h
    · simp at h
  | .op (.clientSend id' message') =>
    simp only [due] at h
    split_ifs at h with hc
    obtain ⟨rfl, -⟩ := Due.snapshot.inj (Option.some.inj h)
    obtain ⟨rfl, -, ha⟩ := hc
    exact ⟨rfl, ha⟩
  | .op (.attach _) | .op (.detach _) | .dropRecv _ | .dropEvents _ | .dropUpstream =>
    simp [due] at h

/-- What is due as an event is one. -/
lemma kind_of_due {v : (SessionLoop × History) × Input} {message : Value}
    (h : due id role v = some (.event message)) : messageKind message = .event := by
  obtain ⟨u, i⟩ := v
  match i with
  | .upstream message' order =>
    simp only [due] at h
    split at h
    · next hk =>
      split_ifs at h
      obtain rfl := Due.event.inj (Option.some.inj h)
      exact hk
    · obtain ⟨b', hb, h⟩ := Option.bind_eq_some_iff.mp h
      obtain ⟨r, hr, h⟩ := Option.map_eq_some_iff.mp h
      simp at h
    · simp at h
    · simp at h
  | .op (.clientSend id' message') =>
    simp only [due] at h
    split_ifs at h
    simp at h
  | .op (.attach _) | .op (.detach _) | .dropRecv _ | .dropEvents _ | .dropUpstream =>
    simp [due] at h

/-! ### The replay -/

/-- What the cache keeps as it came are events. -/
def Echoes (cache : Cache.LateJoinCache) : Prop :=
  ∀ v, cache.initialized = some v ∨ cache.lastStopped = some v → messageKind v = .event

lemma Echoes.upstream {cache : Cache.LateJoinCache} (h : Echoes cache) (message : Value) :
    Echoes ((cache.observe message).observeResponse message) := by
  have hobserve : Echoes (cache.observe message) := by
    unfold Cache.LateJoinCache.observe
    split_ifs with hk
    · exact h
    · rw [not_not] at hk
      intro v hv
      split at hv
      · rcases hv with hv | hv
        · exact (Option.some.inj hv) ▸ hk
        · exact h v (.inr hv)
      · rcases hv with hv | hv
        · exact h v (.inl hv)
        · exact (Option.some.inj hv) ▸ hk
      · exact h v hv
      · exact h v hv
  unfold Cache.LateJoinCache.observeResponse
  split_ifs with hk
  · exact hobserve
  · exact hobserve
  · exact hobserve

lemma Echoes.step {s : SessionLoop} (h : Echoes s.cache) (i : Session.Input) :
    Echoes (s.step i).1.cache := by
  by_cases hu : ∃ m order, i = .upstream m order
  · obtain ⟨m, order, rfl⟩ := hu
    rw [SessionLoop.step, cache_upstream]
    exact h.upstream m
  · have hsame := remembered_step s i fun m order he => hu ⟨m, order, he⟩
    simp only [Remembered, Prod.mk.injEq] at hsame
    intro v hv
    rw [hsame.2.1, hsame.2.2] at hv
    exact h v hv

lemma echoes_run {inputs : List Session.Input} {u : SessionLoop × History}
    (h : run watched begin inputs = (u, .ok ())) : Echoes u.1.cache :=
  run_ok_inv (I := fun u : SessionLoop × History => Echoes u.1.cache) (P := fun _ => True)
    (fun s i t _ hs hstep => by
      have hnext := hs.step i
      rw [(watched_ok hstep).1] at hnext
      exact hnext)
    (fun v hv => by simp [SessionLoop.start, Cache.LateJoinCache.empty] at hv)
    (fun _ _ => trivial) h

/-- Nothing of the replay is the response to a request with a number of its own. -/
lemma Echoes.replay {cache : Cache.LateJoinCache} (h : Echoes cache) {v : Value}
    (hv : v ∈ cache.replay) : messageKind v = .event ∨ requestSeq v = some 0 := by
  simp only [Cache.LateJoinCache.replay, List.mem_append, Option.mem_toList] at hv
  rcases hv with (hv | hv) | hv
  · obtain ⟨body, -, rfl⟩ := Option.map_eq_some_iff.mp hv
    refine .inr ?_
    rw [requestSeq, Value.get_obj (by simp), Value.get_obj (by simp)]
    rfl
  · exact .inl (h v (.inl hv))
  · exact .inl (h v (.inr hv))

/-! ### Calls -/

section Calls

variable {pre post : List Session.Input} {x w : SessionLoop × History}

/-- What a client is due and reads as a response for a number is the adapter's response to the
request that has it. -/
lemma responds_of_appears {v : (SessionLoop × History) × Session.Input} {d : Due} {value : Value}
    {r : Response} (hdue : due id role v = some d) (happ : Appears d value) (hv : v.2 ∈ post)
    (hopen : ∀ b request, v.1.2.requests.outstanding.lookup b = some request →
      request.client = id → .op (.clientSend id request.message) ∈ post)
    (hn : Numbered id c asked post) (hasked : ¬ AnsweredLocally role asked)
    (hm : Message.ofValue value = some (.response r)) (hrc : r.requestSeq = c) :
    ∃ message, Responds id asked v message ∧
      Message.ofValue (setRequestSeq message c) = some (.response r) := by
  obtain ⟨hkind, hnumber⟩ := response_of_ofValue hm
  cases d with
  | event message =>
    obtain ⟨n, rfl⟩ := happ
    rw [messageKind_setSeq, kind_of_due hdue] at hkind
    cases hkind
  | answer b request message =>
    obtain ⟨hresponds, hout, hid⟩ := responds_of_due hdue
    obtain ⟨n, hn', hasks⟩ := hn _ (hopen b request hout hid)
    have happ' : value = setRequestSeq message n := by
      rw [show value = setRequestSeq message ((seq request.message).getD b) from happ, hn']
      rfl
    rw [happ'] at hm
    have hnc : n = c := (number_of_renumbered hresponds.kind hm).symm.trans hrc
    rw [hnc] at hm
    exact ⟨message, hasks hnc ▸ hresponds, hm⟩
  | snapshot request body =>
    -- the loop answers this one by itself, so it is not the one that is asked
    obtain ⟨hsends, hlocal⟩ := sends_of_due hdue
    obtain ⟨n, hn', hasks⟩ := hn _ (hsends ▸ hv)
    obtain ⟨k, rfl⟩ := happ
    have hnumber' := requestSeq_of_aliased hnumber
    rw [requestSeq_response, hn'] at hnumber'
    have hnc : n = c := (Option.some.inj hnumber').trans hrc
    exact absurd (hasks hnc ▸ hlocal) hasked

/-- What the client's channel has for a number is the adapter's response to the request that has
it. -/
theorem response_on_channel (hrole : role ≠ .editor)
    (hpre : run watched begin pre = (x, .ok ()))
    (hpost : run watched (joined x role) post = (w, .ok ()))
    (hstay : ∀ i ∈ post, i ≠ .op (.detach x.1.nextId)) (hc : c ≠ 0)
    (hasked : ¬ AnsweredLocally role asked) (hn : Numbered x.1.nextId c asked post) :
    (∀ value ∈ (w.1.recv x.1.nextId).sent, ∀ m, Message.ofValue value = some m →
      responseMatchesSeq c m = true →
      ∃ v ∈ visits watched (joined x role) post, ∃ message,
        Responds x.1.nextId asked v message ∧
          Message.ofValue (setRequestSeq message c) = some m) ∧
    ∀ v ∈ visits watched (joined x role) post, ∀ message,
      Responds x.1.nextId asked v message → seq asked = some c →
      ∃ value ∈ (w.1.recv x.1.nextId).sent,
        value = setRequestSeq message c := by
  have hinv := inv_run hpre
  have hjoined : (joined x role).1 = x.1.attached role := attach_eq x.1 role
  have hnote : (joined x role).2 =
      { x.2 with attached := x.2.attached ++ [(x.1.nextId, role)] } := rfl
  have hh : Here (joined x role).1 (joined x role).2 x.1.nextId role := by
    rw [hjoined, hnote]
    exact ⟨hinv.attach role, by simp [SessionLoop.attached], hrole⟩
  obtain ⟨more, hmore, hall⟩ := queue_run hh hstay hpost
  have hsent : (w.1.recv x.1.nextId).sent = x.1.cache.replay ++ more := by
    rw [hmore, hjoined]
    simp [SessionLoop.attached]
  -- what is open of this client's was sent after it attached
  have hopen := sent_of_open (u := joined x role) post
    (fun b r hr hid => not_issued hinv hr hid) hh.inv
  rw [hsent]
  refine ⟨fun value hv m hm hfits => ?_, fun v hv message hr hseq => ?_⟩
  · -- what fits the number is a response
    obtain ⟨r, rfl⟩ : ∃ r, m = .response r := by
      cases m with
      | response r => exact ⟨r, rfl⟩
      | request r => simp [responseMatchesSeq] at hfits
      | event e => simp [responseMatchesSeq] at hfits
    have hrc : r.requestSeq = c := by simpa [responseMatchesSeq] using hfits
    rcases List.mem_append.mp hv with hv | hv
    · -- in the replay there is none but under the number 0
      obtain ⟨hkind, hnumber⟩ := response_of_ofValue hm
      rcases (echoes_run hpre).replay hv with he | hzero
      · rw [hkind] at he
        cases he
      · have hsame := requestSeq_of_aliased hnumber
        rw [hzero] at hsame
        exact absurd (hrc.symm.trans (Option.some.inj hsame).symm) hc
    · -- and what came later is there because it concerns the client
      obtain ⟨d, hd, happ⟩ := exists_of_mem_right hall hv
      obtain ⟨v, hvisit, hdue⟩ := List.mem_filterMap.mp hd
      obtain ⟨before, after, hsplit, -⟩ := mem_visits_iff.mp hvisit
      have hmem : v.2 ∈ post := hsplit ▸ List.mem_append_right _ List.mem_cons_self
      exact ⟨v, hvisit, responds_of_appears hdue happ hmem (hopen v hvisit) hn hasked hm hrc⟩
  · obtain ⟨b, request, rfl, hdue⟩ := due_of_responds role hr
    obtain ⟨value, hvalue, happ⟩ := exists_of_mem_left hall (List.mem_filterMap.mpr ⟨v, hv, hdue⟩)
    refine ⟨value, List.mem_append_right _ hvalue, ?_⟩
    have happ' : value = setRequestSeq message ((seq request.message).getD b) := happ
    rw [happ', hseq]
    rfl

/-- What reads as a message with the kind of a response is one. -/
lemma exists_response {v : Value} {m : Message} (hk : messageKind v = .response)
    (h : Message.ofValue v = some m) : ∃ r, m = .response r := by
  have htype : (v.get "type").bind Value.asStr = some "response" := by
    unfold messageKind at hk
    split at hk <;> first | assumption | simp at hk
  simp only [Message.ofValue, htype, Option.bind_eq_bind, Option.bind_eq_some_iff,
    Option.pure_def, Option.some.injEq] at h
  obtain ⟨_, -, _, -, _, -, _, -, _, -, rfl⟩ := h
  exact ⟨_, rfl⟩

/-- The request that a call writes. -/
abbrev request (c : ℤ) (command : String) (arguments : Option Value) : Value :=
  (Message.request ⟨c, command, arguments⟩).toValue

lemma seq_request (c : ℤ) (command : String) (arguments : Option Value) :
    seq (request c command arguments) = some c := by
  rw [seq, request, Message.toValue, Value.get_obj (by simp)]
  rfl

lemma command_request (c : ℤ) (command : String) (arguments : Option Value) :
    MuxMessage.command (request c command arguments) = some command := by
  rw [MuxMessage.command, request, Message.toValue, Value.get_obj (by simp)]
  rfl

/-- **A call returns its own answer.** A client that is no editor attaches in any reachable state,
and numbers its requests. Whatever the other clients ask meanwhile, under whatever numbers, and
whichever stretch of its channel it reads: if a call returns, it returns the adapter's response to
this very request, with the client's number in place of the adapter's; and once the adapter has
responded, the response is on the channel, and a call that comes to read it without a pause
returns. The one request that the loop answers by itself is not meant. -/
theorem call_returns_its_answer (hrole : role ≠ .editor)
    (hpre : run watched begin pre = (x, .ok ()))
    (hpost : run watched (joined x role) post = (w, .ok ()))
    (hstay : ∀ i ∈ post, i ≠ .op (.detach x.1.nextId)) (hc : c ≠ 0) {command : String}
    {arguments : Option Value} (hcommand : command ≠ breakpointSnapshotCommand)
    (hn : Numbered x.1.nextId c (request c command arguments) post) :
    (∀ (cc cc' : ControlClient) answer values, cc.seq = c →
      values <:+: (w.1.recv x.1.nextId).sent → ReadAs values (items cc.inbox.arrivals) →
      dapRequest command arguments cc = .ok answer cc' ∨
        dapRequestPreserveEvents command arguments cc = .ok answer cc' →
      ∃ v ∈ visits watched (joined x role) post, ∃ message,
        Responds x.1.nextId (request c command arguments) v message ∧
          Message.ofValue (setRequestSeq message c) = some answer.1) ∧
    ∀ v ∈ visits watched (joined x role) post, ∀ message,
      Responds x.1.nextId (request c command arguments) v message →
      setRequestSeq message c ∈ (w.1.recv x.1.nextId).sent ∧
      ∀ (cc : ControlClient) values messages rest, cc.seq = c → cc.accepts c = .ok () →
        setRequestSeq message c ∈ values → ReadAs values messages →
        cc.inbox.arrivals = messages.map .item ++ rest →
        (∃ answer cc', dapRequest command arguments cc = .ok answer cc') ∧
          ∃ answer cc', dapRequestPreserveEvents command arguments cc = .ok answer cc' := by
  have hlocal : ¬ AnsweredLocally role (request c command arguments) := by
    rintro ⟨-, h⟩
    rw [command_request] at h
    exact hcommand (Option.some.inj h)
  obtain ⟨hsafe, hlive⟩ := response_on_channel hrole hpre hpost hstay hc hlocal hn
  constructor
  · -- whichever call it is, it returns a message of the stretch that it read
    intro cc cc' answer values hseq hvalues hread hcall
    have hanswers : ∃ l m rest, Control.Answers cc l m rest ∧ answer.1 = m := by
      rcases hcall with hcall | hcall
      · obtain ⟨l, m, rest, ha, rfl, -⟩ := Control.dapRequest_eq_ok.mp hcall
        exact ⟨l, m, rest, ha, rfl⟩
      · obtain ⟨l, m, rest, ha, rfl, -⟩ := Control.dapRequestPreserveEvents_eq_ok.mp hcall
        exact ⟨l, m, rest, ha, rfl⟩
    obtain ⟨l, m, rest, ⟨-, hbrings⟩, rfl⟩ := hanswers
    have hmem : answer.1 ∈ items cc.inbox.arrivals := by
      rw [items_of_brings hbrings]
      exact List.mem_append_right _ List.mem_cons_self
    obtain ⟨value, hvalue, hof⟩ := exists_of_mem_right hread hmem
    exact hsafe value (hvalues.subset hvalue) answer.1 hof (hseq ▸ hbrings.fits)
  · -- the response is on the channel, and reads as one that fits the number
    intro v hv message hresponds
    obtain ⟨value, hvalue, rfl⟩ := hlive v hv message hresponds (seq_request ..)
    refine ⟨hvalue, fun cc values messages rest hseq haccepts hmem hread harrivals => ?_⟩
    obtain ⟨m, hm, hof⟩ := exists_of_mem_left hread hmem
    have hkind : messageKind (setRequestSeq message c) = .response := by
      rw [messageKind, get_setRequestSeq_of_ne (by simp) (by simp)]
      exact hresponds.kind
    obtain ⟨r, rfl⟩ := exists_response hkind hof
    have hfits : responseMatchesSeq cc.seq (.response r) = true := by
      simp [responseMatchesSeq, number_of_renumbered hresponds.kind hof, hseq]
    obtain ⟨l, a, rest', hbrings⟩ := exists_brings hm hfits rest
    rw [← harrivals] at hbrings
    have hanswers : Control.Answers cc l a rest' := ⟨hseq ▸ haccepts, hbrings⟩
    exact ⟨⟨_, _, Control.dapRequest_eq_ok.mpr ⟨l, a, rest', hanswers, rfl, rfl⟩⟩,
      _, _, Control.dapRequestPreserveEvents_eq_ok.mpr ⟨l, a, rest', hanswers, rfl, rfl⟩⟩

end Calls

/-- The adapter's answer to the client. -/
def toClient : Value := MuxMessage.response 10 1 true none

/-- The client and the editor ask under one number, and the editor is answered first. -/
def bothAsk : List Session.Input :=
  [.op (.clientSend ⟨2⟩ (request 1 "threads" none)),
    .op (.clientSend ⟨1⟩ (request 1 "threads" none)),
    .upstream (MuxMessage.response 9 2 true none) .listed, .upstream toClient .listed]

/-- The control client with its answer on the way. -/
def waiting : ControlClient :=
  Control.fromDuplex [.item (.response ⟨10, 1, true, none, none, none⟩)] fun _ => .ok ()

/-- The loop and its observer as the client has attached. -/
abbrev attachedClient : SessionLoop × History := joined (run watched begin beforeJoining).1 .control

theorem call_returns_its_answer_bothAsk :
    ∃ (w : SessionLoop × History) (answer : Control.Received) (cc : ControlClient),
      run watched attachedClient bothAsk = (w, .ok ()) ∧
        dapRequest "threads" none waiting = .ok answer cc ∧
        ∃ v ∈ visits watched attachedClient bothAsk, ∃ message,
          Responds ⟨2⟩ (request 1 "threads" none) v message ∧
            Message.ofValue (setRequestSeq message 1) = some answer.1 := by
  have hpre : run watched begin beforeJoining = ((run watched begin beforeJoining).1, .ok ()) :=
    Prod.ext rfl (by rfl)
  have hpost : run watched attachedClient bothAsk =
      ((run watched attachedClient bothAsk).1, .ok ()) := Prod.ext rfl (by rfl)
  have hfront : run watched attachedClient (bothAsk.take 3) =
      ((run watched attachedClient (bothAsk.take 3)).1, .ok ()) := Prod.ext rfl (by rfl)
  have hn : Numbered ⟨2⟩ 1 (request 1 "threads" none) bothAsk := by
    intro message hm
    have hmessage : message = request 1 "threads" none := by simpa [bothAsk] using hm
    exact ⟨1, hmessage ▸ seq_request .., fun _ => hmessage⟩
  obtain ⟨hsafe, hlive⟩ := call_returns_its_answer (by simp) hpre hpost (by simp [bothAsk])
    (by decide) (by decide) hn
  have hr : Responds ⟨2⟩ (request 1 "threads" none)
      ((run watched attachedClient (bothAsk.take 3)).1, .upstream toClient .listed) toClient :=
    ⟨⟨_, rfl⟩, rfl, 1, _, rfl, by rfl, by rfl, by rfl⟩
  obtain ⟨hmem, hreturns⟩ := hlive _ (mem_visits_iff.mpr ⟨bothAsk.take 3, [], rfl, hfront⟩) _ hr
  have hread : ReadAs [setRequestSeq toClient 1] (items waiting.inbox.arrivals) :=
    .cons (by rfl) .nil
  obtain ⟨⟨answer, cc, hcall⟩, -⟩ := hreturns waiting [setRequestSeq toClient 1] _ [] rfl rfl
    List.mem_cons_self hread (by rfl)
  obtain ⟨front, back, hsplit⟩ := List.append_of_mem hmem
  exact ⟨_, answer, cc, hpost, hcall, hsafe waiting cc answer [setRequestSeq toClient 1] rfl
    ⟨front, back, by simp [hsplit]⟩ hread (.inl hcall)⟩

end DappyCore.Asking
