import DappyCore.PluginInfo

/-!
The operations on the loop's queue: a client's bridge puts the client's messages on it, and then
its detach, so the loop finds the client attached whenever it takes one of its messages.
-/

namespace DappyCore.ClientBridge

open Lib Json MuxMessage Protocol Session SessionLoop MuxBridge

/-- The operation concerns this client. -/
def Concerns (id : Id) : SessionOp → Prop
  | .clientSend id' _ | .detach id' => id' = id
  | .attach _ => False

/-- The client's bridge has not come to its detach. -/
def Stage.Early : Stage → Prop
  | .ingesting | .ended => True
  | .detached | .finished => False

/-- What is on the queue of a client, against whether the loop has it attached. -/
structure Ordered (s : System) (id : Id) : Prop where
  last : ∀ front back message, s.ops = front ++ .detach id :: back →
    .clientSend id message ∉ back
  attached : .detach id ∉ s.ops.take s.taken → (s.bridge.session.clients.lookup id).isSome

/-- Every client's queue is in order, and who is not a client has none. -/
structure Queued (s : System) : Prop where
  ordered : ∀ id client, s.clients id = some client → Ordered s id
  early : ∀ id client, s.clients id = some client → client.stage.Early → .detach id ∉ s.ops
  known : ∀ id client, s.clients id = some client → id.raw ≤ s.bridge.session.nextClientId
  strangers : ∀ id, s.clients id = none → ∀ op ∈ s.ops, ¬ Concerns id op
  taken : s.taken ≤ s.ops.length

variable {options : Options} {s t : System} {id : Id} {client : Client}

/-! ### The loop's clients -/

lemma clients_clientMessage (session : SessionLoop) (id : Id) (message : Value) :
    (session.handleClientMessage id message).1.clients = session.clients := by
  rcases handleClientMessage_cases session id message with hleft | ⟨-, role, hleft⟩
  · simp only [List.mem_cons, List.not_mem_nil, or_false] at hleft
    rcases hleft with hleft | hleft | hleft
    all_goals exact (congrArg SessionLoop.clients hleft).trans rfl
  · have hc := (assignSeq_frame session id role message).2.1
    simp only [List.mem_cons, List.not_mem_nil, or_false] at hleft
    rcases hleft with hleft | hleft
    · rw [hleft]
      exact hc
    · rw [hleft, hc]

/-- **Who is attached** changes with a detach of its own, and with nobody else's step. -/
lemma attached_step {session : SessionLoop} (j : Session.Input)
    (hid : id.raw ≤ session.nextClientId) (hd : j ≠ .op (.detach id)) :
    ((session.step j).1.clients.lookup id).isSome = (session.clients.lookup id).isSome := by
  match j with
  | .op (.attach role) =>
    have hne : id ≠ session.nextId := by
      rintro rfl
      simp only [nextId] at hid
      omega
    simp only [SessionLoop.step, handleOp, attach_eq, SessionLoop.attached,
      AList.lookup_insert_ne hne]
  | .op (.detach id') =>
    have hne : id ≠ id' := by
      rintro rfl
      exact hd rfl
    simp only [SessionLoop.step, handleOp, AList.lookup_erase_ne hne]
  | .op (.clientSend id' message) =>
    simp only [SessionLoop.step, handleOp, clients_clientMessage]
  | .upstream message order =>
    simp only [SessionLoop.step, (handleUpstreamMessage_frame session message order).2.1]
  | .dropRecv _ | .dropEvents _ | .dropUpstream => rfl

/-! ### Steps that only the loop's state sees -/

lemma queued_start : Queued start where
  ordered := by simp [start]
  early := by simp [start]
  known := by simp [start]
  strangers := by simp [start]
  taken := Nat.le_refl _

/-- A step of the loop that takes nothing from the queue. -/
lemma Queued.session (h : Queued s) (ho : t.ops = s.ops) (ht : t.taken = s.taken)
    (hc : t.clients = s.clients) {j : Session.Input} (hj : ∀ id, j ≠ .op (.detach id))
    (hs : t.bridge.session = (s.bridge.session.step j).1 ∨ t.bridge.session = s.bridge.session) :
    Queued t := by
  have hattached : ∀ id : Id, id.raw ≤ s.bridge.session.nextClientId →
      (t.bridge.session.clients.lookup id).isSome =
        (s.bridge.session.clients.lookup id).isSome := by
    intro id hid
    rcases hs with hs | hs
    · rw [hs, attached_step j hid (hj id)]
    · rw [hs]
  have hnext : s.bridge.session.nextClientId ≤ t.bridge.session.nextClientId := by
    rcases hs with hs | hs
    · rw [hs, nextClientId_step]
      exact Nat.le_add_right _ _
    · rw [hs]
  refine ⟨fun id client hid => ?_, ?_, fun id client hid => ?_, ?_, ?_⟩
  · rw [hc] at hid
    have hold := h.ordered id client hid
    refine ⟨by rw [ho]; exact hold.last, ?_⟩
    rw [ho, ht, hattached id (h.known id client hid)]
    exact hold.attached
  · rw [ho, hc]
    exact h.early
  · rw [hc] at hid
    exact Nat.le_trans (h.known id client hid) hnext
  · rw [ho, hc]
    exact h.strangers
  · rw [ho, ht]
    exact h.taken

/-- A client's bridge that goes on to a stage that is no earlier. -/
lemma Queued.setClient (h : Queued s) (hc : s.clients id = some client) {client' : Client}
    (he : client'.stage.Early → client.stage.Early) : Queued (s.setClient id client') := by
  have hcases : ∀ {id' : Id} {other : Client},
      (s.setClient id client').clients id' = some other →
        ∃ before, s.clients id' = some before ∧ (other.stage.Early → before.stage.Early) := by
    intro id' other hother
    simp only [System.setClient, Function.update_apply] at hother
    split_ifs at hother with heq
    · obtain rfl := Option.some.inj hother
      exact ⟨client, heq ▸ hc, he⟩
    · exact ⟨other, hother, fun hearly => hearly⟩
  refine ⟨fun id' other hother => ?_, fun id' other hother hearly => ?_,
    fun id' other hother => ?_, fun id' hnone => ?_, h.taken⟩
  · obtain ⟨before, hbefore, -⟩ := hcases hother
    exact ⟨(h.ordered id' before hbefore).last, (h.ordered id' before hbefore).attached⟩
  · obtain ⟨before, hbefore, hstage⟩ := hcases hother
    exact h.early id' before hbefore (hstage hearly)
  · obtain ⟨before, hbefore, -⟩ := hcases hother
    exact h.known id' before hbefore
  · simp only [System.setClient, Function.update_apply] at hnone
    split_ifs at hnone
    exact h.strangers id' hnone

/-! ### Operations that are put on the queue -/

/-- A queue with one more operation at its end. -/
lemma not_mem_back_of_concat {ops front back : List SessionOp} {op : SessionOp} {x y : SessionOp}
    (hsplit : ops ++ [op] = front ++ x :: back) (hop : y ≠ op)
    (hlast : ∀ front back, ops = front ++ x :: back → y ∉ back) : y ∉ back := by
  rcases List.eq_nil_or_concat back with rfl | ⟨back', z, rfl⟩
  · simp
  · rw [List.concat_eq_append, ← List.cons_append, ← List.append_assoc] at hsplit
    obtain ⟨hfront, hz⟩ := List.append_inj' hsplit rfl
    obtain rfl : op = z := List.singleton_inj.mp hz
    rw [List.concat_eq_append, List.mem_append, List.mem_singleton, not_or]
    exact ⟨hlast front back' hfront, hop⟩

/-- An operation that keeps the queue in order: one about a client says nothing after a detach,
and a detach comes from a bridge that has come to it. -/
lemma Queued.push (h : Queued s) {op : SessionOp}
    (hsend : ∀ id message, op = .clientSend id message →
      (s.clients id).isSome ∧ .detach id ∉ s.ops)
    (hdetach : ∀ id, op = .detach id → ∃ client, s.clients id = some client ∧
      ¬ client.stage.Early) :
    Queued { s with ops := s.ops ++ [op] } where
  ordered id client hid := by
    have hold := h.ordered id client hid
    refine ⟨fun front back message hsplit => ?_, fun hno => hold.attached ?_⟩
    · -- what is put on the queue is a message of this client, or is not about it
      by_cases hop : op = .clientSend id message
      · obtain ⟨-, hnone⟩ := hsend id message hop
        have hmem : SessionOp.detach id ∈ s.ops ++ [op] := by
          rw [show s.ops ++ [op] = front ++ .detach id :: back from hsplit]
          exact List.mem_append_right _ List.mem_cons_self
        rcases List.mem_append.mp hmem with hmem | hmem
        · exact absurd hmem hnone
        · rw [List.mem_singleton, hop] at hmem
          cases hmem
      · exact not_mem_back_of_concat hsplit (fun he => hop he.symm) fun front back hs =>
          hold.last front back message hs
    · have htake : (s.ops ++ [op]).take s.taken = s.ops.take s.taken :=
        List.take_append_of_le_length h.taken
      rwa [← htake]
  early id client hid hearly := by
    have hold := h.early id client hid hearly
    rw [List.mem_append, List.mem_singleton, not_or]
    refine ⟨hold, fun he => ?_⟩
    obtain ⟨client', hid', hlate⟩ := hdetach id he.symm
    obtain rfl : client = client' := Option.some.inj (hid.symm.trans hid')
    exact hlate hearly
  known := h.known
  strangers id hnone op' hop' hconcerns := by
    rcases List.mem_append.mp hop' with hop' | hop'
    · exact h.strangers id hnone op' hop' hconcerns
    · obtain rfl := List.mem_singleton.mp hop'
      cases op' with
      | attach role => exact hconcerns
      | clientSend id' message =>
        obtain rfl : id' = id := hconcerns
        have hsome := (hsend id' message rfl).1
        rw [hnone] at hsome
        cases hsome
      | detach id' =>
        obtain rfl : id' = id := hconcerns
        obtain ⟨client, hid, -⟩ := hdetach id' rfl
        rw [hnone] at hid
        cases hid
  taken := by
    rw [List.length_append]
    exact Nat.le_add_right_of_le h.taken

/-- The same, if the loop is still there to be sent anything. -/
lemma Queued.send (h : Queued s) {op : SessionOp}
    (hsend : ∀ id message, op = .clientSend id message →
      (s.clients id).isSome ∧ .detach id ∉ s.ops)
    (hdetach : ∀ id, op = .detach id → ∃ client, s.clients id = some client ∧
      ¬ client.stage.Early) : Queued (s.send op).1 := by
  unfold System.send
  split_ifs
  · exact h.push hsend hdetach
  · exact h

/-! ### Steps -/

/-- The loop takes the operation at the head of what it has not taken. -/
lemma Queued.take (h : Queued s) {op : SessionOp} (hop : s.ops[s.taken]? = some op)
    (hattach : ∀ role, op ≠ .attach role) :
    Queued { s with taken := s.taken + 1, bridge := serve s.bridge (.op op) } := by
  have hsession := session_serve s.bridge (.op op)
  have htake : s.ops.take (s.taken + 1) = s.ops.take s.taken ++ [op] := by
    rw [List.take_add_one, hop]
    rfl
  have hnext : (s.bridge.session.step (.op op)).1.nextClientId =
      s.bridge.session.nextClientId := by
    rw [nextClientId_step]
    cases op with
    | attach role => exact absurd rfl (hattach role)
    | clientSend id message => rfl
    | detach id => rfl
  refine ⟨fun id client hid => ?_, h.early, fun id client hid => ?_, h.strangers, ?_⟩
  · have hold := h.ordered id client hid
    refine ⟨hold.last, fun hno => ?_⟩
    rw [htake, List.mem_append, List.mem_singleton, not_or] at hno
    rw [hsession, attached_step (.op op) (h.known id client hid)]
    · exact hold.attached hno.1
    · intro he
      exact hno.2 (Session.Input.op.inj he).symm
  · rw [hsession, hnext]
    exact h.known id client hid
  · exact (List.getElem?_eq_some_iff.mp hop).1

lemma queued_takeOp (h : Queued s) : Queued s.takeOp := by
  unfold System.takeOp
  split_ifs
  · split
    · next op hop =>
      cases op with
      | clientSend id message => exact h.take hop (by simp)
      | detach id => exact h.take hop (by simp)
      | attach role =>
        have hsession := session_serve s.bridge (.op (.attach role))
        -- nobody is known under the id that is given next
        have hnew : s.clients s.bridge.session.nextId = none := by
          rw [Option.eq_none_iff_forall_ne_some]
          intro client hc
          have hle := h.known _ _ hc
          simp only [nextId] at hle
          omega
        have htake : s.ops.take (s.taken + 1) = s.ops.take s.taken ++ [.attach role] := by
          rw [List.take_add_one, hop]
          rfl
        have hnone : ∀ op ∈ s.ops, ¬ Concerns s.bridge.session.nextId op :=
          h.strangers _ hnew
        refine ⟨fun id client hid => ?_, fun id client hid hearly => ?_,
          fun id client hid => ?_, fun id hid => ?_, ?_⟩
        all_goals try simp only [System.setClient, Function.update_apply] at hid
        · -- the newcomer has nothing on the queue; of the others nothing changes
          by_cases he : id = s.bridge.session.nextId
          · refine ⟨fun front back message hsplit hmem => ?_, fun _ => ?_⟩
            · have hops : SessionOp.clientSend id message ∈ s.ops := by
                rw [show s.ops = front ++ .detach id :: back from hsplit]
                exact List.mem_append_right _ (List.mem_cons_of_mem _ hmem)
              exact hnone _ hops he
            · show ((serve s.bridge (.op (.attach role))).session.clients.lookup id).isSome
              rw [hsession, SessionLoop.step, handleOp, attach_eq, SessionLoop.attached, he,
                AList.lookup_insert]
              rfl
          · rw [if_neg he] at hid
            have hold := h.ordered id client hid
            refine ⟨hold.last, fun hno => ?_⟩
            show ((serve s.bridge (.op (.attach role))).session.clients.lookup id).isSome
            rw [hsession, attached_step _ (h.known id client hid) (by simp)]
            refine hold.attached fun hmem => hno ?_
            show SessionOp.detach id ∈ s.ops.take (s.taken + 1)
            rw [htake]
            exact List.mem_append_left _ hmem
        · split_ifs at hid with he
          · exact fun hmem => hnone _ hmem he
          · exact h.early id client hid hearly
        · show id.raw ≤ (serve s.bridge (.op (.attach role))).session.nextClientId
          rw [hsession, nextClientId_step]
          split_ifs at hid with he
          · rw [he]
            exact Nat.le_refl _
          · exact Nat.le_add_right_of_le (h.known id client hid)
        · split_ifs at hid
          exact h.strangers id hid
        · exact (List.getElem?_eq_some_iff.mp hop).1
    · exact h
  · exact h

lemma queued_ingest (h : Queued s) (hc : s.clients id = some client)
    (hstage : client.stage = .ingesting) (message : Message) (write : Write) :
    Queued (s.ingest options id client message write) := by
  have hearly : client.stage.Early := by
    rw [hstage]
    trivial
  unfold System.ingest
  split
  · cases write with
    | ok u => exact h.setClient hc fun he => he
    | error e => exact h.setClient hc fun _ => hearly
  · have hsent : Queued (s.send (.clientSend id message.toValue)).1 := by
      refine h.send ?_ (by simp)
      intro id' message' he
      obtain ⟨rfl, rfl⟩ := SessionOp.clientSend.inj he
      exact ⟨by rw [hc]; rfl, h.early id client hc hearly⟩
    have hclients := clients_send s (.clientSend id message.toValue)
    rcases hs : s.send (.clientSend id message.toValue) with ⟨t, _ | _⟩
    all_goals
      rw [hs] at hsent hclients
      exact hsent.setClient (by rw [hclients, hc]) fun _ => hearly

/-- A bridge that detaches its client is not early from then on. -/
lemma queued_detach (h : Queued s) (hc : s.clients id = some client) {client' : Client}
    (hlate : ¬ client'.stage.Early) : Queued ((s.send (.detach id)).1.setClient id client') := by
  have hset : Queued (s.setClient id client') :=
    h.setClient hc fun he => absurd he hlate
  have hcomm : (s.send (.detach id)).1.setClient id client' =
      ((s.setClient id client').send (.detach id)).1 := by
    by_cases hs : s.bridge.serving = true <;> simp [System.send, System.setClient, hs]
  rw [hcomm]
  refine hset.send (by simp) ?_
  intro id' he
  obtain rfl := SessionOp.detach.inj he
  exact ⟨client', Function.update_self .., hlate⟩

lemma queued_finish (h : Queued s) (hc : s.clients id = some client) :
    Queued (s.finish id client) := by
  unfold System.finish
  split
  · exact queued_detach h hc (by simp [Stage.Early])
  · split_ifs
    · exact h
    · exact queued_detach h hc (by simp [Stage.Early])
    · exact h.setClient hc (by simp [Stage.Early])
  · exact h
  · exact h

lemma queued_stopEgress (h : Queued s) (hc : s.clients id = some client) :
    Queued (s.stopEgress id client) := by
  have hdropped : Queued { s with bridge := serve s.bridge (.dropRecv id) } :=
    h.session rfl rfl rfl (j := .dropRecv id) (by simp) (.inl (session_serve _ _))
  exact hdropped.setClient hc fun he => he

lemma queued_egress (h : Queued s) (hc : s.clients id = some client) (write : Write) :
    Queued (s.egress id client write) := by
  unfold System.egress
  split
  · split
    · exact h.setClient hc fun he => he
    · exact queued_stopEgress h hc
  · split_ifs
    · exact h
    · exact queued_stopEgress h hc

/-- **One step** keeps the queue in order. -/
theorem queued_step (h : Queued s) (i : Input) : Queued (s.step options i) := by
  match i with
  | .connect role => exact h.send (by simp) (by simp)
  | .takeOp => exact queued_takeOp h
  | .ingest id message write =>
    simp only [System.step]
    split
    · next client hc =>
      split_ifs with hstage
      · exact queued_ingest h hc hstage message write
      · exact h
    · exact h
  | .hangUp id =>
    simp only [System.step]
    split
    · next client hc =>
      split_ifs with hstage
      · exact h.setClient hc fun _ => by simp [hstage, Stage.Early]
      · exact h
    · exact h
  | .finish id =>
    simp only [System.step]
    split
    · next client hc => exact queued_finish h hc
    · exact h
  | .egress id write =>
    simp only [System.step]
    split
    · next client hc =>
      split_ifs
      · exact queued_egress h hc write
      · exact h
    · exact h
  | .backend input =>
    simp only [System.step]
    split_ifs with hi
    · -- the session takes a step of its own, which is no operation
      rcases session_step options.setup s.bridge input with hsame | ⟨j, hcomes, hj⟩
      · exact h.session rfl rfl rfl (j := .dropUpstream) (by simp) (.inr hsame)
      · refine h.session rfl rfl rfl (j := j) ?_ (.inl hj)
        rintro id rfl
        obtain rfl : input = .client _ := hcomes
        cases hi
    · exact h

/-- **The operations go through**: whenever the loop takes a client's message from its queue, the
client is attached, so that it can only fail when the channel to the adapter is gone, or when it
asks for the snapshot and its own channel is. -/
theorem operations_go_through (options : Options) (inputs : List Input) {id : Id}
    {message : Value}
    (hop : (exec options inputs).ops[(exec options inputs).taken]? =
      some (.clientSend id message)) :
    ((exec options inputs).bridge.session.clients.lookup id).isSome ∧
      ∀ e, ((exec options inputs).bridge.session.step (.op (.clientSend id message))).2 =
        .error e →
      (e = .upstreamNotConnected ∧
        (exec options inputs).bridge.session.toUpstream.alive = false) ∨
      (command message = some breakpointSnapshotCommand ∧
        ((exec options inputs).bridge.session.recv id).alive = false) := by
  have hqueued : Queued (exec options inputs) :=
    Trace.inv_foldl (I := Queued) (fun _ i h => queued_step h i) queued_start inputs
  obtain ⟨client, hc⟩ : ∃ client, (exec options inputs).clients id = some client := by
    rw [← Option.isSome_iff_exists, Option.isSome_iff_ne_none]
    intro hnone
    exact hqueued.strangers id hnone _ (List.mem_of_getElem? hop) rfl
  have hattached := (hqueued.ordered id client hc).attached fun hmem => by
    obtain ⟨front, back, hsplit⟩ := List.append_of_mem hmem
    refine (hqueued.ordered id client hc).last front
      (back ++ (exec options inputs).ops.drop (exec options inputs).taken) message ?_ ?_
    · rw [← List.cons_append, ← List.append_assoc, ← hsplit, List.take_append_drop]
    · refine List.mem_append_right _ ?_
      exact List.mem_of_getElem? (i := 0) (by rw [List.getElem?_drop]; exact hop)
  refine ⟨hattached, fun e hfails => ?_⟩
  obtain ⟨state, hs⟩ := Option.isSome_iff_exists.mp hattached
  simp only [SessionLoop.step, handleOp] at hfails
  by_cases hk : messageKind message = .request
  · by_cases ha : AnsweredLocally state.role message
    · refine .inr ⟨ha.2, ?_⟩
      by_contra halive
      rw [handleClientMessage_answered hs hk ha ⟨hattached, by simpa using halive⟩] at hfails
      cases hfails
    · rw [handleClientMessage_forwarded hs hk ha] at hfails
      split_ifs at hfails with hu
      obtain rfl := Except.error.inj hfails
      exact .inl ⟨rfl, by simpa using hu⟩
  · rw [handleClientMessage_ignored hs hk] at hfails
    cases hfails

/-- A proxy with nothing to serve. -/
def plainOptions : Options := ⟨none, none, none, fun _ => ""⟩

/-- The proxy shuts down while a request of the editor is on the queue. -/
def shutDown : List Input :=
  [.connect .editor, .takeOp, .ingest ⟨1⟩ (.request ⟨1, "threads", none⟩) (.ok ()),
    .backend (.shutdown (.ok ()))]

theorem operations_go_through_shutDown : ∃ message,
    (exec plainOptions shutDown).ops[(exec plainOptions shutDown).taken]? =
        some (.clientSend ⟨1⟩ message) ∧
      ((exec plainOptions shutDown).bridge.session.clients.lookup ⟨1⟩).isSome ∧
      ((MuxError.upstreamNotConnected = .upstreamNotConnected ∧
          (exec plainOptions shutDown).bridge.session.toUpstream.alive = false) ∨
        (command message = some breakpointSnapshotCommand ∧
          ((exec plainOptions shutDown).bridge.session.recv ⟨1⟩).alive = false)) :=
  have hop : (exec plainOptions shutDown).ops[(exec plainOptions shutDown).taken]? =
      some (.clientSend ⟨1⟩ (Message.request ⟨1, "threads", none⟩).toValue) := rfl
  have hthrough := operations_go_through plainOptions shutDown hop
  ⟨_, hop, hthrough.1, hthrough.2 _ (by rfl)⟩

end DappyCore.ClientBridge
