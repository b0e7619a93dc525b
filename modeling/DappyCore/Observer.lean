import DappyCore.Lib.Ledger
import DappyCore.SessionSteps

/-!
What an observer of the multiplexer's loop writes down, and how the two pending tables of the
loop follow from it: the reverse table of the remapper holds the open requests of editors,
`secondaryPending` those of everyone else.
-/

namespace DappyCore.Observer

open Lib Lib.Machine Json MuxMessage Remapper Session SessionLoop

/-- A request a client sent: the message, and how many requests of this client with a number
went upstream before it. -/
structure Request where
  client : Id
  role : ClientRole
  message : Value
  ordinal : ℕ

/-- An upstream message that concerns an editor. -/
inductive Shown
  | event (message : Value)
  | answer (request : Request) (message : Value)

structure History where
  attached : List (Id × ClientRole)
  requests : Ledger Request
  shown : List Shown

/-- The message a step put on the upstream channel. -/
def written (s t : SessionLoop) : Option Value :=
  (t.toUpstream.sent.drop s.toUpstream.sent.length).head?

/-- The requests of one client that went upstream with a number, in order. -/
def requestsOf (requests : Ledger Request) (id : Id) : List Value :=
  (requests.issued.filter fun e => e.2.client = id).map fun e => e.2.message

def History.new : History := ⟨[], .new, []⟩

/-- A request is open from when it is written upstream until a response with its number
comes; a second response answers nothing. -/
def note (h : History) (s : SessionLoop) (i : Input) (t : SessionLoop) : History :=
  match i with
  | .op (.attach role) => { h with attached := h.attached ++ [(s.nextId, role)] }
  | .op (.clientSend id message) =>
    match s.clients.lookup id, (written s t).bind seq with
    | some state, some n =>
      let ordinal := (requestsOf h.requests id).length
      { h with requests := h.requests.issue n ⟨id, state.role, message, ordinal⟩ }
    | _, _ => h
  | .upstream message _ =>
    match messageKind message with
    | .event => { h with shown := h.shown ++ [.event message] }
    | .response =>
      match requestSeq message with
      | none => h
      | some b =>
        { h with
          requests := h.requests.close b
          shown := h.shown ++
            (((h.requests.outstanding.lookup b).filter fun r => isEditor r.role).map fun r =>
              .answer r message).toList }
    | _ => h
  | _ => h

/-- The loop with its observer. -/
abbrev watched : SessionLoop × History → Input → Result (SessionLoop × History) MuxError :=
  observed step note

/-- The role of the client that attaches. -/
def attachedRole : Input → Option ClientRole
  | .op (.attach role) => some role
  | _ => none

/-- The first step of a run. -/
abbrev begin : SessionLoop × History := (start, .new)

/-! ### What is written -/

variable {s t : SessionLoop} {h : History} {id : Id} {role : ClientRole} {message : Value}

lemma written_of_same (h : t.toUpstream.sent = s.toUpstream.sent) : written s t = none := by
  simp [written, h]

lemma written_forwarded (s : SessionLoop) (id : Id) (role : ClientRole) (message : Value) :
    written s (s.forwarded id role message) = some (s.assignSeq id role message).2 := by
  simp [written, forwarded]

lemma assignSeq_editor (hr : isEditor role) {c : ℤ} (hc : seq message = some c) :
    s.assignSeq id role message =
      ({ s with
          backendSeq := s.backendSeq + 1
          remapper := s.remapper.map ⟨c⟩ ⟨s.backendSeq + 1⟩
          cache := s.cache.observeClientRequest (s.backendSeq + 1)
            (setSeq (translateCancel message s.remapper).1 (s.backendSeq + 1)) },
        setSeq (translateCancel message s.remapper).1 (s.backendSeq + 1)) := by
  have hr' : usesSeqRemapping role = true := hr
  simp only [assignSeq, hr', if_true, hc]

lemma assignSeq_verbatim (hr : isEditor role) (hc : seq message = none) :
    s.assignSeq id role message = (s, message) := by
  have hr' : usesSeqRemapping role = true := hr
  simp only [assignSeq, hr', if_true, hc]

lemma assignSeq_secondary (hr : ¬ isEditor role) :
    s.assignSeq id role message =
      ({ s with
          backendSeq := s.backendSeq + 1
          secondaryPending := s.secondaryPending.insert (s.backendSeq + 1)
            (id, (seq message).getD (s.backendSeq + 1))
          cache := s.cache.observeClientRequest (s.backendSeq + 1)
            (setSeq message (s.backendSeq + 1)) },
        setSeq message (s.backendSeq + 1)) := by
  have hr' : usesSeqRemapping role = false := Bool.eq_false_iff.mpr hr
  simp only [assignSeq, hr']
  rfl

lemma seq_assigned (hk : messageKind message = .request) (n : ℤ) (r : MessageRemapper) :
    seq (setSeq message n) = some n ∧ seq (setSeq (translateCancel message r).1 n) = some n := by
  have hk' : messageKind (translateCancel message r).1 = .request := by
    rw [messageKind, get_translateCancel_of_ne (by decide)]
    exact hk
  exact ⟨seq_setSeq (isObject_of_kind (by simp [hk])) n,
    seq_setSeq (isObject_of_kind (by simp [hk'])) n⟩

/-! ### The invariant -/

/-- The two tables of the loop, and who sent what, as the observer's ledger has them. -/
structure Inv (s : SessionLoop) (h : History) : Prop where
  fresh : h.requests.Fresh s.backendSeq
  numbers : s.toUpstream.sent.filterMap seq = h.requests.issued.map (·.1)
  reverse : ∀ b, s.remapper.lookupClient ⟨b⟩ =
    ((h.requests.outstanding.lookup b).filter fun r => isEditor r.role).bind fun r =>
      (seq r.message).map ClientSeq.mk
  pending : ∀ b, s.secondaryPending.lookup b =
    ((h.requests.outstanding.lookup b).filter fun r => !isEditor r.role).map fun r =>
      (r.client, (seq r.message).getD b)
  sound : s.remapper.Sound
  numbered : ∀ b r, (b, r) ∈ h.requests.issued → isEditor r.role → (seq r.message).isSome
  ordinal : ∀ b r, (b, r) ∈ h.requests.issued →
    (requestsOf h.requests r.client)[r.ordinal]? = some r.message
  attached : ∀ id state, s.clients.lookup id = some state → (id, state.role) ∈ h.attached
  senders : ∀ b r, (b, r) ∈ h.requests.issued → (r.client, r.role) ∈ h.attached
  ids : ∀ e ∈ h.attached, e.1.raw ≤ s.nextClientId
  nodup : (h.attached.map (·.1)).Nodup
  count : h.attached.length = s.nextClientId

lemma inv_begin : Inv start .new where
  fresh := Ledger.fresh_new _
  numbers := rfl
  reverse _ := rfl
  pending _ := rfl
  sound := MessageRemapper.sound_new
  numbered := by simp [History.new, Ledger.new]
  ordinal := by simp [History.new, Ledger.new]
  attached := by simp [start]
  senders := by simp [History.new, Ledger.new]
  ids := by simp [History.new]
  nodup := by simp [History.new]
  count := rfl

variable {h' : History}

/-- Steps that neither forward a request nor answer one. -/
lemma Inv.frame (hi : Inv s h)
    (hsent : t.toUpstream.sent.filterMap seq = s.toUpstream.sent.filterMap seq)
    (hb : t.backendSeq = s.backendSeq) (hr : t.remapper = s.remapper)
    (hp : t.secondaryPending = s.secondaryPending) (hn : t.nextClientId = s.nextClientId)
    (hc : ∀ id state, t.clients.lookup id = some state → s.clients.lookup id = some state)
    (hq : h'.requests = h.requests) (ha : h'.attached = h.attached) : Inv t h' where
  fresh := by rw [hq, hb]; exact hi.fresh
  numbers := by rw [hq, hsent]; exact hi.numbers
  reverse b := by rw [hq, hr]; exact hi.reverse b
  pending b := by rw [hq, hp]; exact hi.pending b
  sound := by rw [hr]; exact hi.sound
  numbered := by rw [hq]; exact hi.numbered
  ordinal := by rw [hq]; exact hi.ordinal
  attached id state hs := by rw [ha]; exact hi.attached id state (hc id state hs)
  senders := by rw [hq, ha]; exact hi.senders
  ids := by rw [ha, hn]; exact hi.ids
  nodup := by rw [ha]; exact hi.nodup
  count := by rw [ha, hn]; exact hi.count

lemma Inv.attach (hi : Inv s h) (role : ClientRole) :
    Inv (s.attached role) { h with attached := h.attached ++ [(s.nextId, role)] } where
  fresh := hi.fresh
  numbers := hi.numbers
  reverse := hi.reverse
  pending := hi.pending
  sound := hi.sound
  numbered := hi.numbered
  ordinal := hi.ordinal
  attached id state hs := by
    simp only [SessionLoop.attached, HashMap.lookup_insert_of] at hs
    split_ifs at hs with e
    · obtain rfl := Option.some.inj hs
      exact List.mem_append_right _ (e ▸ List.mem_singleton_self _)
    · exact List.mem_append_left _ (hi.attached id state hs)
  senders b r hr := List.mem_append_left _ (hi.senders b r hr)
  ids e he := by
    rcases List.mem_append.mp he with he | he
    · have hle := hi.ids e he
      show e.1.raw ≤ s.nextClientId + 1
      omega
    · obtain rfl := List.mem_singleton.mp he
      exact le_refl (s.nextClientId + 1)
  nodup := by
    rw [List.map_append, List.nodup_append]
    -- the ids given so far are below the next
    refine ⟨hi.nodup, by simp, ?_⟩
    intro id hid id' hid' heq
    obtain ⟨e, he, rfl⟩ := List.mem_map.mp hid
    have hle := hi.ids e he
    simp only [List.map_cons, List.map_nil, List.mem_singleton] at hid'
    rw [heq, hid'] at hle
    simp only [nextId] at hle
    omega
  count := by
    rw [List.length_append, hi.count]
    rfl

/-- Steps that take a response to `b`: both tables lose the number. -/
lemma Inv.close (hi : Inv s h) {b : ℤ} (hsent : t.toUpstream.sent = s.toUpstream.sent)
    (hb : t.backendSeq = s.backendSeq)
    (hr : ∀ b', t.remapper.lookupClient ⟨b'⟩ =
      if b' = b then none else s.remapper.lookupClient ⟨b'⟩)
    (hp : ∀ b', t.secondaryPending.lookup b' =
      if b' = b then none else s.secondaryPending.lookup b')
    (hso : t.remapper.Sound) (hn : t.nextClientId = s.nextClientId)
    (hc : t.clients = s.clients) (hq : h'.requests = h.requests.close b)
    (ha : h'.attached = h.attached) : Inv t h' where
  fresh := by rw [hq, hb]; exact hi.fresh.close b
  numbers := by rw [hq, hsent]; exact hi.numbers
  reverse b' := by
    rw [hq, hr, Ledger.lookup_close, hi.reverse]
    split_ifs <;> rfl
  pending b' := by
    rw [hq, hp, Ledger.lookup_close, hi.pending]
    split_ifs <;> rfl
  sound := hso
  numbered := by rw [hq]; exact hi.numbered
  ordinal := by rw [hq]; exact hi.ordinal
  attached := by rw [hc, ha]; exact hi.attached
  senders := by rw [hq, ha]; exact hi.senders
  ids := by rw [ha, hn]; exact hi.ids
  nodup := by rw [ha]; exact hi.nodup
  count := by rw [ha, hn]; exact hi.count

lemma requestsOf_issue (l : Ledger Request) (n : ℤ) (r : Request) (id : Id) :
    requestsOf (l.issue n r) id =
      requestsOf l id ++ if r.client = id then [r.message] else [] := by
  unfold requestsOf Ledger.issue
  rw [List.filter_append, List.map_append]
  split_ifs with hc <;> simp [hc]

/-- Steps that put a request upstream under the next number. -/
lemma Inv.issue (hi : Inv s h) {r : Request} {w : Value}
    (hsent : t.toUpstream.sent = s.toUpstream.sent ++ [w]) (hw : seq w = some (s.backendSeq + 1))
    (hb : t.backendSeq = s.backendSeq + 1)
    (hr : ∀ b, t.remapper.lookupClient ⟨b⟩ =
      if b = s.backendSeq + 1 then
        if isEditor r.role then (seq r.message).map ClientSeq.mk else none
      else s.remapper.lookupClient ⟨b⟩)
    (hp : ∀ b, t.secondaryPending.lookup b =
      if b = s.backendSeq + 1 then
        if isEditor r.role then none else some (r.client, (seq r.message).getD b)
      else s.secondaryPending.lookup b)
    (hso : t.remapper.Sound) (hn : t.nextClientId = s.nextClientId)
    (hc : t.clients = s.clients) (hnum : isEditor r.role → (seq r.message).isSome)
    (hord : r.ordinal = (requestsOf h.requests r.client).length)
    (hat : (r.client, r.role) ∈ h.attached)
    (hq : h'.requests = h.requests.issue (s.backendSeq + 1) r)
    (ha : h'.attached = h.attached) : Inv t h' where
  fresh := by rw [hq, hb]; exact hi.fresh.issue (by omega) r
  numbers := by
    rw [hq, hsent, List.filterMap_append, hi.numbers]
    simp [hw, Ledger.issue]
  reverse b := by
    rw [hq, hr, Ledger.lookup_issue, hi.reverse]
    by_cases hbn : b = s.backendSeq + 1
    · by_cases he : isEditor r.role <;> simp [hbn, he, Option.filter_some]
    · simp [hbn]
  pending b := by
    rw [hq, hp, Ledger.lookup_issue, hi.pending]
    by_cases hbn : b = s.backendSeq + 1
    · by_cases he : isEditor r.role <;> simp [hbn, he, Option.filter_some]
    · simp [hbn]
  sound := hso
  numbered b r' hr' := by
    rw [hq] at hr'
    rcases Ledger.mem_issue.mp hr' with hr' | ⟨rfl, rfl⟩
    · exact hi.numbered b r' hr'
    · exact hnum
  ordinal b r' hr' := by
    rw [hq] at hr' ⊢
    rw [requestsOf_issue]
    -- an earlier request keeps its place among those of its client
    rcases Ledger.mem_issue.mp hr' with hr' | ⟨rfl, rfl⟩
    · have hold := hi.ordinal b r' hr'
      have hlt := (List.getElem?_eq_some_iff.mp hold).1
      rw [List.getElem?_append_left hlt, hold]
    · simp [hord]
  attached := by rw [hc, ha]; exact hi.attached
  senders b r' hr' := by
    rw [hq] at hr'
    rw [ha]
    rcases Ledger.mem_issue.mp hr' with hr' | ⟨rfl, rfl⟩
    · exact hi.senders b r' hr'
    · exact hat
  ids := by rw [ha, hn]; exact hi.ids
  nodup := by rw [ha]; exact hi.nodup
  count := by rw [ha, hn]; exact hi.count

/-! ### Which table a number is in -/

section Inv

variable {b : ℤ} (hi : Inv s h)
include hi

lemma Inv.pending_of_mapped {c : ClientSeq} (hm : s.remapper.lookupClient ⟨b⟩ = some c) :
    s.secondaryPending.lookup b = none := by
  rw [hi.reverse] at hm
  rw [hi.pending]
  cases ho : h.requests.outstanding.lookup b with
  | none => rfl
  | some r =>
    by_cases he : isEditor r.role
    · simp [he]
    · simp [ho, he, Option.filter_some] at hm

lemma Inv.mapped_of_pending {p : Id × ℤ} (hp : s.secondaryPending.lookup b = some p) :
    s.remapper.lookupClient ⟨b⟩ = none := by
  rw [Option.eq_none_iff_forall_ne_some]
  intro c hm
  simp [hi.pending_of_mapped hm] at hp

lemma Inv.unused (hb : s.backendSeq < b) :
    s.remapper.lookupClient ⟨b⟩ = none ∧ s.secondaryPending.lookup b = none := by
  rw [hi.reverse, hi.pending, hi.fresh.lookup_of_lt hb]
  exact ⟨rfl, rfl⟩

/-- What the reverse table has is an open request of an editor. -/
lemma Inv.request_of_mapped {c : ClientSeq} (hm : s.remapper.lookupClient ⟨b⟩ = some c) :
    ∃ r, h.requests.outstanding.lookup b = some r ∧ isEditor r.role ∧
      seq r.message = some c.raw := by
  rw [hi.reverse b, Option.bind_eq_some_iff] at hm
  obtain ⟨r, hf, hq⟩ := hm
  obtain ⟨n, hn, rfl⟩ := Option.map_eq_some_iff.mp hq
  obtain ⟨ho, he⟩ := Option.filter_eq_some_iff.mp hf
  exact ⟨r, ho, he, hn⟩

/-- What `secondaryPending` has is an open request of another client. -/
lemma Inv.request_of_pending {c : ℤ} (hp : s.secondaryPending.lookup b = some (id, c)) :
    ∃ r, h.requests.outstanding.lookup b = some r ∧ ¬ isEditor r.role ∧ r.client = id := by
  rw [hi.pending b, Option.map_eq_some_iff] at hp
  obtain ⟨r, hf, hq⟩ := hp
  obtain ⟨ho, he⟩ := Option.filter_eq_some_iff.mp hf
  refine ⟨r, ho, ?_, congrArg Prod.fst hq⟩
  simpa using he

lemma Inv.not_editor_of_unmapped (hm : s.remapper.lookupClient ⟨b⟩ = none) :
    (h.requests.outstanding.lookup b).filter (fun r => isEditor r.role) = none := by
  rw [Option.eq_none_iff_forall_ne_some]
  intro r hr
  obtain ⟨ho, he⟩ := Option.filter_eq_some_iff.mp hr
  obtain ⟨c, hc⟩ := Option.isSome_iff_exists.mp
    (hi.numbered b r (hi.fresh.mem_issued b r ho) he)
  rw [hi.reverse b, hr] at hm
  simp [hc] at hm

/-- The request the editor's table finds is open and has the number asked for. -/
lemma Inv.mapped_request {c : ℤ} {backend : BackendSeq}
    (hb : s.remapper.lookupBackend ⟨c⟩ = some backend) :
    ∃ r, h.requests.outstanding.lookup backend.raw = some r ∧ seq r.message = some c := by
  obtain ⟨r, ho, -, hq⟩ := hi.request_of_mapped (hi.sound _ _ hb)
  exact ⟨r, ho, hq⟩

end Inv

/-! ### Steps and runs -/

lemma note_forwarded {state : ClientState} (hs : s.clients.lookup id = some state) {n : ℤ}
    (hw : (written s t).bind seq = some n) (h : History) :
    note h s (.op (.clientSend id message)) t =
      { h with requests :=
          h.requests.issue n ⟨id, state.role, message, (requestsOf h.requests id).length⟩ } := by
  simp only [note, hs, hw]

lemma note_unsent (hw : (written s t).bind seq = none) (h : History) :
    note h s (.op (.clientSend id message)) t = h := by
  simp only [note, hw]
  split <;> simp_all

lemma note_response {b : ℤ} (hk : messageKind message = .response)
    (hb : requestSeq message = some b) (h : History) (order : HashMap.Order Id ClientState) :
    (note h s (.upstream message order) t).requests = h.requests.close b ∧
      (note h s (.upstream message order) t).attached = h.attached := by
  simp [note, hk, hb]

lemma note_upstream (hk : messageKind message ≠ .response) (h : History)
    (order : HashMap.Order Id ClientState) :
    (note h s (.upstream message order) t).requests = h.requests ∧
      (note h s (.upstream message order) t).attached = h.attached := by
  unfold note
  cases hm : messageKind message <;> simp_all

lemma issued_note_upstream (h : History) (s : SessionLoop) (message : Value)
    (order : HashMap.Order Id ClientState) (t : SessionLoop) :
    (note h s (.upstream message order) t).requests.issued = h.requests.issued := by
  by_cases hk : messageKind message = .response
  · cases hb : requestSeq message with
    | none => simp [note, hk, hb]
    | some b => rw [(note_response hk hb h _).1]; rfl
  · rw [(note_upstream hk h _).1]

lemma Inv.forward (hi : Inv s h) {state : ClientState} (hs : s.clients.lookup id = some state)
    (hk : messageKind message = .request) :
    Inv (s.forwarded id state.role message)
      (note h s (.op (.clientSend id message)) (s.forwarded id state.role message)) := by
  obtain ⟨hm, hp⟩ := hi.unused (b := s.backendSeq + 1) (by omega)
  have hat := hi.attached id state hs
  have hw := written_forwarded s id state.role message
  by_cases he : isEditor state.role
  · cases hc : seq message with
    | none =>
      -- an editor's request without a number goes upstream as it is
      rw [note_unsent (by rw [hw, assignSeq_verbatim he hc]; exact hc)]
      refine hi.frame ?_ ?_ ?_ ?_ ?_ ?_ rfl rfl
      all_goals simp [forwarded, assignSeq_verbatim he hc, hc]
    | some c =>
      have hw2 := (seq_assigned hk (s.backendSeq + 1) s.remapper).2
      rw [note_forwarded hs (by rw [hw, assignSeq_editor he hc]; exact hw2)]
      refine hi.issue (by simp [forwarded, assignSeq_editor he hc]) hw2
        (by simp [forwarded, assignSeq_editor he hc]) ?_ ?_ ?_ ?_ ?_ (by simp [hc]) rfl hat rfl rfl
      all_goals simp only [forwarded, assignSeq_editor he hc]
      · intro b
        simp [MessageRemapper.lookupClient_map, he, hc]
      · intro b
        split_ifs with hb
        · rw [hb, hp]
        · rfl
      · exact hi.sound.map hm _
  · have hw2 := (seq_assigned hk (s.backendSeq + 1) s.remapper).1
    rw [note_forwarded hs (by rw [hw, assignSeq_secondary he]; exact hw2)]
    refine hi.issue (by simp [forwarded, assignSeq_secondary he]) hw2
      (by simp [forwarded, assignSeq_secondary he]) ?_ ?_ ?_ ?_ ?_ (by simp [he]) rfl hat rfl rfl
    all_goals simp only [forwarded, assignSeq_secondary he]
    · intro b
      split_ifs with hb
      · rw [hb, hm]
      · rfl
    · intro b
      rw [HashMap.lookup_insert_of]
      split_ifs with hb
      · rw [hb]
      · rfl
    · exact hi.sound

/-- **One step** keeps the tables in line with the ledger. -/
theorem inv_step {i : Input} (hi : Inv s h) (hstep : s.step i = (t, .ok ())) :
    Inv t (note h s i t) := by
  cases took_of_step hstep with
  | attach role => exact hi.attach role
  | detach id =>
    refine hi.frame rfl rfl rfl rfl rfl ?_ rfl rfl
    -- who is attached still was so before
    intro id' state hs
    rw [HashMap.lookup_erase_of] at hs
    split_ifs at hs
    exact hs
  | ignored hs hk =>
    rw [note_unsent (by simp [written_of_same])]
    exact hi
  | answered hs hk ha hl =>
    rw [note_unsent (by rw [written_of_same (by rfl)]; rfl)]
    exact hi.frame rfl rfl rfl rfl rfl (fun _ _ h => h) rfl rfl
  | forwarded hs hk ha hu => exact hi.forward hs hk
  | event hk hh =>
    have hk' : messageKind _ ≠ .response := fun e => MessageKind.noConfusion (hk.symm.trans e)
    obtain ⟨hq, ha⟩ := note_upstream hk' h _
    exact hi.frame rfl rfl rfl rfl rfl (fun _ _ h => h) hq ha
  | unexpected hk hk' =>
    obtain ⟨hq, ha⟩ := note_upstream hk h _
    exact hi.frame rfl rfl rfl rfl rfl (fun _ _ h => h) hq ha
  | editor hk hb hm hh =>
    obtain ⟨hq, ha⟩ := note_response hk hb h _
    refine hi.close rfl rfl (fun b' => ?_) (fun b' => ?_) (hi.sound.unmap _) rfl rfl hq ha
    · exact (MessageRemapper.lookupClient_unmap _ _ _).trans (by simp)
    · split_ifs with e
      · -- a number in the remapper's table is not in the other one
        subst e
        exact hi.pending_of_mapped hm
      · rfl
  | secondary hk hb hm hp hl =>
    obtain ⟨hq, ha⟩ := note_response hk hb h _
    refine hi.close rfl rfl (fun b' => ?_) (fun b' => HashMap.lookup_erase_of) hi.sound rfl rfl
      hq ha
    split_ifs with e
    · exact e ▸ hm
    · rfl
  | unmatched hk hb hm hp =>
    obtain ⟨hq, ha⟩ := note_response hk hb h _
    refine hi.close rfl rfl (fun b' => ?_) (fun b' => ?_) hi.sound rfl rfl hq ha
    all_goals
      split_ifs with e
      · exact e ▸ by assumption
      · rfl
  | dropRecv id => exact hi.frame rfl rfl rfl rfl rfl (fun _ _ h => h) rfl rfl
  | dropEvents id => exact hi.frame rfl rfl rfl rfl rfl (fun _ _ h => h) rfl rfl
  | dropUpstream => exact hi.frame rfl rfl rfl rfl rfl (fun _ _ h => h) rfl rfl

lemma watched_ok {i : Input} {u v : SessionLoop × History}
    (hstep : watched u i = (v, .ok ())) :
    u.1.step i = (v.1, .ok ()) ∧ v.2 = note u.2 u.1 i v.1 := by
  unfold watched Machine.observed at hstep
  obtain ⟨rfl, h2⟩ := Prod.mk.inj hstep
  exact ⟨Prod.ext rfl h2, rfl⟩

lemma inv_watched {i : Input} {u v : SessionLoop × History} (hi : Inv u.1 u.2)
    (hstep : watched u i = (v, .ok ())) : Inv v.1 v.2 := by
  obtain ⟨h1, h2⟩ := watched_ok hstep
  rw [h2]
  exact inv_step hi h1

/-- **Every run** keeps the tables in line with the ledger. -/
theorem inv_run {inputs : List Input} {u : SessionLoop × History}
    (h : run watched begin inputs = (u, .ok ())) : Inv u.1 u.2 :=
  run_ok_inv (I := fun u => Inv u.1 u.2) (P := fun _ => True)
    (fun _ _ _ _ hi hstep => inv_watched hi hstep) inv_begin (fun _ _ => trivial) h

/-! ### Who is attached -/

lemma attached_note (h : History) (s : SessionLoop) (i : Input) (t : SessionLoop) :
    (note h s i t).attached.map (·.2) = h.attached.map (·.2) ++ (attachedRole i).toList := by
  match i with
  | .op (.attach role) => simp [note, attachedRole]
  | .op (.detach _) => simp [note, attachedRole]
  | .op (.clientSend _ _) =>
    simp only [note, attachedRole]
    split <;> simp
  | .upstream message _ =>
    by_cases hk : messageKind message = .response
    · cases hb : requestSeq message with
      | none => simp [note, attachedRole, hk, hb]
      | some b => rw [(note_response hk hb h _).2]; simp [attachedRole]
    · rw [(note_upstream hk h _).2]
      simp [attachedRole]
  | .dropRecv _ => simp [note, attachedRole]
  | .dropEvents _ => simp [note, attachedRole]
  | .dropUpstream => simp [note, attachedRole]

/-- The log of a run has the roles its inputs attach, in order. -/
lemma attached_run {u v : SessionLoop × History} {is : List Input}
    (hr : run watched u is = (v, .ok ())) :
    v.2.attached.map (·.2) = u.2.attached.map (·.2) ++ is.filterMap attachedRole := by
  induction is generalizing u with
  | nil =>
    obtain rfl := congrArg Prod.fst hr
    simp
  | cons i is ih =>
    rcases step_ok_or_error watched u i with ⟨w, hw⟩ | ⟨w, e, hw⟩
    · rw [run_cons_ok hw] at hr
      rw [ih hr, (watched_ok hw).2, attached_note]
      cases hi : attachedRole i <;> simp [hi]
    · simp [run_cons_error hw] at hr

/-- A client has one role for good. -/
lemma role_unique (hi : Inv s h) {id : Id} {role role' : ClientRole}
    (hr : (id, role) ∈ h.attached) (hr' : (id, role') ∈ h.attached) : role = role' :=
  congrArg Prod.snd (List.inj_on_of_nodup_map hi.nodup hr hr' rfl)

end DappyCore.Observer
