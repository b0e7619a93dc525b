import DappyCore.Observer

/-!
Response routing: every response goes back to the client that sent the request, under the
number that client gave it, and to nobody else.
-/

namespace DappyCore.Routing

open Lib Lib.Machine Json MuxMessage Remapper Session SessionLoop Observer

def AtMostOneEditor (inputs : List Input) : Prop :=
  (inputs.filterMap attachedRole).count .editor ≤ 1

/-- A request from a client carries an integer `seq`. -/
def NumberedInput : Input → Prop
  | .op (.clientSend _ message) => messageKind message = .request → (seq message).isSome
  | _ => True

/-- One more message for this client, answering its request `c`; nothing for the others. -/
structure RoutedTo (s t : SessionLoop) (id : Id) (c : ℤ) (message : Value) : Prop where
  delivered : ∃ m, (t.recv id).sent = (s.recv id).sent ++ [m] ∧ requestSeq m = some c ∧
    Renumbered message m
  others : ∀ id', id' ≠ id → t.recv id' = s.recv id'

/-- The response to an open request goes to the client that sent it, if that client is still
there; a response to no open request goes to nobody. -/
def Routed (s : SessionLoop) (h : History) (message : Value)
    (order : HashMap.Order Id ClientState) : Prop :=
  ∀ b, requestSeq message = some b →
    match h.requests.outstanding.lookup b with
    | some r => s.Listening r.client →
        ∃ t c, s.step (.upstream message order) = (t, .ok ()) ∧ seq r.message = some c ∧
          RoutedTo s t r.client c message
    | none => ∃ t, s.step (.upstream message order) = (t, .ok ()) ∧ t.recv = s.recv

variable {s t : SessionLoop} {h : History}

/-! ### Who is attached -/

lemma eq_of_count_le_one {log : List (Id × ClientRole)} {role : ClientRole}
    (hone : (log.map (·.2)).count role ≤ 1) {id id' : Id} (hid : (id, role) ∈ log)
    (hid' : (id', role) ∈ log) : id = id' := by
  induction log with
  | nil => simp at hid
  | cons e rest ih =>
    rw [List.map_cons, List.count_cons] at hone
    have hpos : ∀ i, (i, role) ∈ rest → 0 < (rest.map (·.2)).count role := fun i hi =>
      List.count_pos_iff.mpr (List.mem_map_of_mem (f := (·.2)) hi)
    rcases List.mem_cons.mp hid with rfl | hr <;> rcases List.mem_cons.mp hid' with he' | hr'
    · exact congrArg Prod.fst he'.symm
    · have h1 := hpos id' hr'
      simp only [beq_self_eq_true, if_true] at hone
      omega
    · have h1 := hpos id hr
      rw [← he'] at hone
      simp only [beq_self_eq_true, if_true] at hone
      omega
    · exact ih (by omega) hr hr'

/-- At most one client of a run is an editor. -/
lemma editor_unique {inputs : List Input} (hone : AtMostOneEditor inputs)
    {v : (SessionLoop × History) × Input} (hv : v ∈ visits watched begin inputs) {id id' : Id}
    (hid : (id, .editor) ∈ v.1.2.attached) (hid' : (id', .editor) ∈ v.1.2.attached) :
    id = id' := by
  obtain ⟨pre, post, rfl, hr⟩ := mem_visits_iff.mp hv
  refine eq_of_count_le_one ?_ hid hid'
  rw [attached_run hr]
  unfold AtMostOneEditor at hone
  rw [List.filterMap_append, List.count_append] at hone
  simp only [History.new, List.map_nil, List.nil_append]
  omega

/-! ### Numbered requests -/

/-- Every message written upstream and every request in the ledger has a number. -/
structure AllNumbered (s : SessionLoop) (h : History) : Prop where
  sent : ∀ m ∈ s.toUpstream.sent, (seq m).isSome
  issued : ∀ b r, (b, r) ∈ h.requests.issued → (seq r.message).isSome

lemma AllNumbered.of_same (hn : AllNumbered s h) {h' : History}
    (hs : t.toUpstream.sent = s.toUpstream.sent)
    (hq : h'.requests.issued = h.requests.issued) : AllNumbered t h' :=
  ⟨by rw [hs]; exact hn.sent, by rw [hq]; exact hn.issued⟩

lemma AllNumbered.forward (hn : AllNumbered s h) {id : Id} {state : ClientState}
    {message : Value} (hs : s.clients.lookup id = some state)
    (hk : messageKind message = .request) (hc : (seq message).isSome) :
    AllNumbered (s.forwarded id state.role message)
      (note h s (.op (.clientSend id message)) (s.forwarded id state.role message)) := by
  have hw : seq (s.assignSeq id state.role message).2 = some (s.backendSeq + 1) := by
    obtain ⟨c, hc⟩ := Option.isSome_iff_exists.mp hc
    obtain ⟨h1, h2⟩ := seq_assigned hk (s.backendSeq + 1) s.remapper
    by_cases he : isEditor state.role
    · rw [assignSeq_editor he hc]
      exact h2
    · rw [assignSeq_secondary he]
      exact h1
  rw [note_forwarded hs (by rw [written_forwarded]; exact hw)]
  refine ⟨fun m hm => ?_, fun b r hr => ?_⟩
  · rcases List.mem_append.mp hm with hm | hm
    · exact hn.sent m hm
    · rw [List.mem_singleton.mp hm, hw]
      rfl
  · rcases Ledger.mem_issue.mp hr with hr | ⟨rfl, rfl⟩
    · exact hn.issued b r hr
    · exact hc

lemma allNumbered_step {i : Input} (hn : AllNumbered s h) (hp : NumberedInput i)
    (hstep : s.step i = (t, .ok ())) : AllNumbered t (note h s i t) := by
  cases took_of_step hstep with
  | forwarded hs hk ha hu => exact hn.forward hs hk (hp hk)
  | attach role => exact hn.of_same rfl rfl
  | detach id => exact hn.of_same rfl rfl
  | ignored hs hk =>
    rw [note_unsent (by simp [written_of_same])]
    exact hn
  | answered hs hk ha hl =>
    rw [note_unsent (by rw [written_of_same (by rfl)]; rfl)]
    exact hn.of_same rfl rfl
  | event hk hh => exact hn.of_same rfl (issued_note_upstream h s _ _ _)
  | editor hk hb hm hh => exact hn.of_same rfl (issued_note_upstream h s _ _ _)
  | secondary hk hb hm hp hl => exact hn.of_same rfl (issued_note_upstream h s _ _ _)
  | unmatched hk hb hm hp => exact hn.of_same rfl (issued_note_upstream h s _ _ _)
  | unexpected hk hk' => exact hn.of_same rfl (issued_note_upstream h s _ _ _)
  | dropRecv id => exact hn.of_same rfl rfl
  | dropEvents id => exact hn.of_same rfl rfl
  | dropUpstream => exact hn.of_same rfl rfl

/-! ### One response -/

lemma routed_editor (hi : Inv s h) (hn : AllNumbered s h)
    (hone : ∀ id id', (id, .editor) ∈ h.attached → (id', .editor) ∈ h.attached → id = id')
    {message : Value} (hk : messageKind message = .response) {b : ℤ}
    (hb : requestSeq message = some b) {r : Request}
    (ho : h.requests.outstanding.lookup b = some r) (he : isEditor r.role)
    (hl : s.Listening r.client) (order : HashMap.Order Id ClientState) :
    ∃ t c, s.step (.upstream message order) = (t, .ok ()) ∧ seq r.message = some c ∧
      RoutedTo s t r.client c message := by
  have hr := hi.fresh.mem_issued b r ho
  obtain ⟨c, hc⟩ := Option.isSome_iff_exists.mp (hn.issued b r hr)
  have hm : s.remapper.lookupClient ⟨b⟩ = some ⟨c⟩ := by
    rw [hi.reverse, ho]
    simp [Option.filter_some, he, hc]
  have hed : r.role = .editor := of_decide_eq_true he
  have hsender : (r.client, .editor) ∈ h.attached := hed ▸ hi.senders b r hr
  -- the sender is the only client with the role
  have hwants : ∀ id, s.wants isEditor id ↔ id = r.client := by
    intro id
    rw [wants, Option.any_eq_true]
    constructor
    · rintro ⟨state, hs, hrole⟩
      have hrole : state.role = .editor := of_decide_eq_true hrole
      exact hone id _ (hrole ▸ hi.attached id state hs) hsender
    · rintro rfl
      obtain ⟨state, hs⟩ := Option.isSome_iff_exists.mp hl.1
      refine ⟨state, hs, ?_⟩
      rw [role_unique hi (hi.attached _ state hs) hsender]
      rfl
  have hh : s.Hears isEditor := by
    intro id state hs hrole
    have hw : s.wants isEditor id := by simp [wants, hs, hrole]
    rw [(hwants id).mp hw]
    exact hl.2
  refine ⟨_, c, handleUpstreamMessage_editor_ok hk order hb hm hh, hc, ?_, ?_⟩
  · refine ⟨s.outboundResponse message c, ?_, ?_, ?_⟩
    · simp [afterEditor, pushEach, (hwants r.client).mpr rfl, unmapped, SessionLoop.observed]
    · rw [outboundResponse, requestSeq_setSeq]
      exact requestSeq_setRequestSeq (isObject_of_kind (by simp [hk])) c
    · exact (renumbered_setRequestSeq _ _).trans (renumbered_setSeq _ _)
  · intro id hid
    have hw : ¬ s.wants isEditor id := fun hw => hid ((hwants id).mp hw)
    simp [afterEditor, pushEach, hw, unmapped, SessionLoop.observed]

lemma routed_secondary (hi : Inv s h) (hn : AllNumbered s h) {message : Value}
    (hk : messageKind message = .response) {b : ℤ} (hb : requestSeq message = some b)
    {r : Request} (ho : h.requests.outstanding.lookup b = some r) (he : ¬ isEditor r.role)
    (hl : s.Listening r.client) (order : HashMap.Order Id ClientState) :
    ∃ t c, s.step (.upstream message order) = (t, .ok ()) ∧ seq r.message = some c ∧
      RoutedTo s t r.client c message := by
  have hr := hi.fresh.mem_issued b r ho
  obtain ⟨c, hc⟩ := Option.isSome_iff_exists.mp (hn.issued b r hr)
  have hp : s.secondaryPending.lookup b = some (r.client, c) := by
    rw [hi.pending, ho]
    simp [Option.filter_some, he, hc]
  have hm := hi.mapped_of_pending hp
  refine ⟨_, c, handleUpstreamMessage_secondary_ok hk order hb hm hp hl, hc, ?_, ?_⟩
  · refine ⟨setRequestSeq message c, ?_, ?_, renumbered_setRequestSeq _ _⟩
    · simp [afterSecondary, push, unpended, SessionLoop.observed]
    · exact requestSeq_setRequestSeq (isObject_of_kind (by simp [hk])) c
  · intro id hid
    simp [afterSecondary, push, unpended, SessionLoop.observed, Function.update_of_ne hid]

lemma routed (hi : Inv s h) (hn : AllNumbered s h)
    (hone : ∀ id id', (id, .editor) ∈ h.attached → (id', .editor) ∈ h.attached → id = id')
    {message : Value} (hk : messageKind message = .response)
    (order : HashMap.Order Id ClientState) : Routed s h message order := by
  intro b hb
  cases ho : h.requests.outstanding.lookup b with
  | some r =>
    intro hl
    by_cases he : isEditor r.role
    · exact routed_editor hi hn hone hk hb ho he hl order
    · exact routed_secondary hi hn hk hb ho he hl order
  | none =>
    have hm : s.remapper.lookupClient ⟨b⟩ = none := by
      rw [hi.reverse, ho]
      rfl
    have hp : s.secondaryPending.lookup b = none := by
      rw [hi.pending, ho]
      rfl
    exact ⟨_, handleUpstreamMessage_unmatched hk order hb hm hp, rfl⟩

/-! ### Runs -/

/-- A step that fails has put nothing on the upstream channel. -/
lemma toUpstream_of_error {i : Input} {e : MuxError} (hstep : s.step i = (t, .error e)) :
    t.toUpstream = s.toUpstream := by
  match i with
  | .upstream message order =>
    have hf := (handleUpstreamMessage_frame s message order).1
    simp only [step] at hstep
    rwa [hstep] at hf
  | .op (.clientSend id message) =>
    simp only [step, handleOp] at hstep
    cases hs : s.clients.lookup id with
    | none =>
      rw [handleClientMessage_detached hs] at hstep
      rw [← (Prod.mk.inj hstep).1]
    | some state =>
      by_cases hk : messageKind message = .request
      · by_cases ha : AnsweredLocally state.role message
        · by_cases hl : s.Listening id
          · simp [handleClientMessage_answered hs hk ha hl] at hstep
          · rw [handleClientMessage_unheard hs hk ha hl] at hstep
            rw [← (Prod.mk.inj hstep).1]
        · rw [handleClientMessage_forwarded hs hk ha] at hstep
          split_ifs at hstep
          · simp at hstep
          · rw [← (Prod.mk.inj hstep).1, assignSeq_toUpstream]
      · simp [handleClientMessage_ignored hs hk] at hstep
  | .op (.attach role) => simp [step, handleOp] at hstep
  | .op (.detach id) => simp [step, handleOp] at hstep
  | .dropRecv id => simp [step] at hstep
  | .dropEvents id => simp [step] at hstep
  | .dropUpstream => simp [step] at hstep

/-- The numbers written upstream are pairwise distinct, and every message has one. -/
def DistinctSeqs (s : SessionLoop) : Prop :=
  ∃ seqs : List ℤ, s.toUpstream.sent.map seq = seqs.map some ∧ seqs.Nodup

lemma distinctSeqs (hi : Inv s h) (hn : AllNumbered s h) : DistinctSeqs s := by
  refine ⟨s.toUpstream.sent.filterMap seq, ?_, ?_⟩
  · have hsent := hn.sent
    generalize s.toUpstream.sent = sent at hsent
    induction sent with
    | nil => rfl
    | cons m rest ih =>
      obtain ⟨n, hm⟩ := Option.isSome_iff_exists.mp (hsent m List.mem_cons_self)
      simp [hm, ih fun m' h' => hsent m' (List.mem_cons_of_mem _ h')]
  · rw [hi.numbers, List.Nodup, List.pairwise_map]
    exact hi.fresh.increasing.imp fun hlt => by omega

lemma inv_numbered {inputs : List Input} (hnum : ∀ i ∈ inputs, NumberedInput i) :
    (∀ v ∈ visits watched begin inputs, Inv v.1.1 v.1.2 ∧ AllNumbered v.1.1 v.1.2) ∧
      ∀ u, run watched begin inputs = (u, .ok ()) → Inv u.1 u.2 ∧ AllNumbered u.1 u.2 := by
  have hbegin : Inv begin.1 begin.2 ∧ AllNumbered begin.1 begin.2 :=
    ⟨inv_begin, by simp [start, Mpsc.opened], by simp [History.new, Ledger.new]⟩
  have hstep : ∀ (u : SessionLoop × History) i v, NumberedInput i →
      Inv u.1 u.2 ∧ AllNumbered u.1 u.2 → watched u i = (v, .ok ()) →
      Inv v.1 v.2 ∧ AllNumbered v.1 v.2 := by
    rintro u i v hp ⟨hi, hn⟩ hw
    refine ⟨inv_watched hi hw, ?_⟩
    obtain ⟨h1, h2⟩ := watched_ok hw
    rw [h2]
    exact allNumbered_step hn hp h1
  exact ⟨fun v hv => (visits_inv hstep hbegin hnum v hv).1,
    fun u hu => run_ok_inv hstep hbegin hnum hu⟩

/-- **Response routing is exact.** -/
theorem responses_routed (inputs : List Input) (hone : AtMostOneEditor inputs)
    (hnum : ∀ i ∈ inputs, NumberedInput i) :
    DistinctSeqs (run step start inputs).1 ∧
      ∀ s h message order, ((s, h), .upstream message order) ∈ visits watched begin inputs →
        messageKind message = .response → Routed s h message order := by
  obtain ⟨hvisit, hrun⟩ := inv_numbered hnum
  constructor
  · rw [← (run_observed note start .new inputs).1]
    rcases run_cases watched begin inputs with ⟨u, hu⟩ | ⟨v, hv, e, he⟩
    · obtain ⟨hi, hn⟩ := hrun u hu
      have hd := distinctSeqs hi hn
      rwa [show u = (run watched begin inputs).1 by rw [hu]] at hd
    · obtain ⟨hi, hn⟩ := hvisit v hv
      have hd := distinctSeqs hi hn
      have hs : v.1.1.step v.2 = ((run watched begin inputs).1.1, .error e) :=
        Prod.ext (congrArg (·.1.1) he) (congrArg (·.2) he)
      unfold DistinctSeqs at hd ⊢
      rwa [← toUpstream_of_error hs] at hd
  · intro s h message order hv hk
    obtain ⟨hi, hn⟩ := hvisit _ hv
    exact routed hi hn (fun id id' hid hid' => editor_unique hone hv hid hid') hk order

/-- Two clients use the same number, and are answered in the other order. -/
def sameNumber : List Input :=
  [.op (.attach .editor), .op (.attach .control),
    .op (.clientSend ⟨1⟩ (request 1 "threads" none)),
    .op (.clientSend ⟨2⟩ (request 1 "threads" none)),
    .upstream (response 7 2 true none) .listed, .upstream (response 8 1 true none) .listed]

theorem responses_routed_sameNumber :
    DistinctSeqs (run step start sameNumber).1 ∧
      ∀ s h message order, ((s, h), .upstream message order) ∈ visits watched begin sameNumber →
        messageKind message = .response → Routed s h message order := by
  refine responses_routed sameNumber ?_ ?_
  · unfold AtMostOneEditor
    decide
  · intro i hi
    simp only [sameNumber, List.mem_cons, List.not_mem_nil, or_false] at hi
    rcases hi with rfl | rfl | rfl | rfl | rfl | rfl
    all_goals first
      | trivial
      | exact fun _ => rfl

end DappyCore.Routing
