import DappyCore.ClientBridge

/-!
The requests for plugin metadata: the bridge of a client answers each of them itself, in the
client's own order, and passes everything else on, while it also writes what the multiplexer has
for the client; so no such request ever comes to the adapter.
-/

namespace DappyCore.ClientBridge

open Lib Json MuxMessage Protocol Session SessionLoop MuxBridge

/-! ### The multiplexer's loop in the bridge -/

/-- What an input of the loop comes from. -/
def Comes (b : Bridge) (i : MuxBridge.Input) : Session.Input → Prop
  | .upstream value _ => value ∈ b.toMux
  | .op op => i = .client op
  | .dropRecv _ | .dropEvents _ | .dropUpstream => True

/-- A message that is written to the adapter: an answer, the farewell, or a request of a client. -/
def Sendable (b : Bridge) (message : Message) : Prop :=
  ∀ request, message = .request request → request.command = "disconnect" ∨
    ∃ v ∈ b.session.toUpstream.sent, command v = some request.command

variable {setup : Setup} {b : Bridge} {options : Options} {s : System} {id : Id}
  {client : Client}

lemma session_disconnect (b : Bridge) (write : Write) :
    (requestAdapterDisconnect b write).session = b.session := by
  unfold requestAdapterDisconnect
  cases write <;> rfl

lemma session_forward (setup : Setup) (b : Bridge) (write : Write) :
    (forward setup b write).session = b.session ∨
      (forward setup b write).session = (b.session.step .dropUpstream).1 := by
  unfold forward
  split
  · dsimp only
    split
    · exact .inl rfl
    · exact .inr rfl
  · split_ifs
    · exact .inl rfl
    · refine .inr ?_
      simp only [stopForwarding, session_disconnect, SessionLoop.step]

/-- **The loop in the bridge** takes one of its own steps, or none. -/
theorem session_step (setup : Setup) (b : Bridge) (i : MuxBridge.Input) :
    (MuxBridge.step setup b i).session = b.session ∨
      ∃ j, Comes b i j ∧ (MuxBridge.step setup b i).session = (b.session.step j).1 := by
  match i with
  | .adapter message terminal spawner write =>
    simp only [MuxBridge.step]
    split_ifs
    · exact .inl (session_read ..)
    · exact .inl rfl
  | .serve order =>
    simp only [MuxBridge.step]
    split
    · next value rest _ hq =>
      exact .inr ⟨.upstream value order, by simp [Comes, hq], session_serve _ _⟩
    · exact .inl rfl
  | .client op =>
    simp only [MuxBridge.step]
    split_ifs
    · exact .inr ⟨.op op, rfl, session_serve _ _⟩
    · exact .inl rfl
  | .dropRecv id => exact .inr ⟨.dropRecv id, trivial, session_serve _ _⟩
  | .dropEvents id => exact .inr ⟨.dropEvents id, trivial, session_serve _ _⟩
  | .forward write =>
    simp only [MuxBridge.step]
    split_ifs
    · exact (session_forward setup b write).imp_right fun h => ⟨.dropUpstream, trivial, h⟩
    · exact .inl rfl
  | .shutdown write =>
    simp only [MuxBridge.step]
    split_ifs
    · refine .inr ⟨.dropUpstream, trivial, ?_⟩
      simp only [stopForwarding, session_disconnect, SessionLoop.step]
    · exact .inl rfl
  | .muxEnds => exact .inl rfl

/-! ### What is written to the adapter -/

/-- A typed request has the command of its JSON form. -/
lemma command_ofValue {v : Value} {request : Request}
    (h : Message.ofValue v = some (.request request)) : command v = some request.command := by
  unfold Message.ofValue at h
  split at h
  · simp only [Option.bind_eq_bind, Option.bind_eq_some_iff, Option.pure_def, Option.some.injEq,
      Message.request.injEq] at h
    obtain ⟨n, -, name, hname, rfl⟩ := h
    exact Option.bind_eq_some_iff.mpr hname
  · simp only [Option.bind_eq_bind, Option.bind_eq_some_iff, Option.pure_def, Option.some.injEq]
      at h
    obtain ⟨_, -, _, -, _, -, _, -, _, -, h⟩ := h
    cases h
  · simp only [Option.bind_eq_bind, Option.bind_eq_some_iff, Option.pure_def, Option.some.injEq]
      at h
    obtain ⟨_, -, _, -, h⟩ := h
    cases h
  · cases h

/-- The defaults of the target do not change what is asked. -/
lemma request_of_merged {message : Message} {defaults : Value} {request : Request}
    (h : mergeDebugRequestArguments message defaults = .request request) :
    ∃ request', message = .request request' ∧ request'.command = request.command := by
  cases message with
  | request request' =>
    refine ⟨request', rfl, ?_⟩
    simp only [mergeDebugRequestArguments] at h
    split_ifs at h
    · rw [← Message.request.inj h]
    · rw [← Message.request.inj h]
  | response response => cases h
  | event event => cases h

lemma sendable_answered {message : Message} {n : ℤ} (h : answered message = some n) :
    Sendable b message := by
  rintro request rfl
  cases h

lemma sendable_disconnect (write : Write) :
    (requestAdapterDisconnect b write).toAdapter = b.toAdapter ∨
      ∃ m, (requestAdapterDisconnect b write).toAdapter = b.toAdapter ++ [m] ∧ Sendable b m := by
  unfold requestAdapterDisconnect
  cases write with
  | ok u => exact .inr ⟨_, rfl, fun request h => .inl (by cases h; rfl)⟩
  | error e => exact .inl rfl

lemma sendable_forward (setup : Setup) (b : Bridge) (write : Write) :
    (forward setup b write).toAdapter = b.toAdapter ∨
      ∃ m, (forward setup b write).toAdapter = b.toAdapter ++ [m] ∧ Sendable b m := by
  unfold forward
  split
  · next v hv =>
    have hmem := List.mem_of_getElem? hv
    dsimp only
    split
    · next m hm =>
      refine .inr ⟨_, rfl, fun request hr => .inr ⟨v, hmem, ?_⟩⟩
      cases hd : setup.attachDefaults with
      | none =>
        rw [hd] at hr
        obtain rfl : m = .request request := hr
        exact command_ofValue hm
      | some defaults =>
        rw [hd] at hr
        obtain ⟨request', rfl, hc⟩ := request_of_merged hr
        rw [command_ofValue hm, hc]
    · exact .inl rfl
  · split_ifs
    · exact .inl rfl
    · exact sendable_disconnect write

/-- What the bridge answers itself is a request, and with a response. -/
lemma answered_of_answer {terminal : ReverseRequest.Terminal}
    {spawner : ChildSession.ChildSessionSpawner} {active n : ℕ} {message m : Message}
    (hm : answer setup terminal spawner active message = some (m, n)) :
    ∃ k, answered m = some k := by
  cases message with
  | request request =>
    rcases answer_request setup terminal spawner active request with
      ⟨-, m', n', ha, hk⟩ | ⟨-, ha⟩
    · rw [ha] at hm
      obtain ⟨rfl, rfl⟩ := Prod.mk.inj (Option.some.inj hm)
      exact ⟨_, hk⟩
    · rw [ha] at hm
      cases hm
  | response response =>
    rw [answer_of_not_request (by simp)] at hm
    cases hm
  | event event =>
    rw [answer_of_not_request (by simp)] at hm
    cases hm

lemma sendable_read (setup : Setup) (b : Bridge) (message : Message)
    (terminal : ReverseRequest.Terminal) (spawner : ChildSession.ChildSessionSpawner)
    (write : Write) :
    (MuxBridge.read setup b message terminal spawner write).toAdapter = b.toAdapter ∨
      ∃ m, (MuxBridge.read setup b message terminal spawner write).toAdapter =
        b.toAdapter ++ [m] ∧ Sendable b m := by
  unfold MuxBridge.read
  split
  · next m n hm =>
    obtain ⟨k, hk⟩ := answered_of_answer hm
    cases write with
    | ok u => exact .inr ⟨m, rfl, sendable_answered hk⟩
    | error e => exact .inl rfl
  · dsimp only
    split_ifs <;> exact .inl rfl

theorem toAdapter_step (setup : Setup) (b : Bridge) (i : MuxBridge.Input) :
    (MuxBridge.step setup b i).toAdapter = b.toAdapter ∨
      ∃ m, (MuxBridge.step setup b i).toAdapter = b.toAdapter ++ [m] ∧ Sendable b m := by
  match i with
  | .adapter message terminal spawner write =>
    simp only [MuxBridge.step]
    split_ifs
    · exact sendable_read setup b message terminal spawner write
    · exact .inl rfl
  | .serve order =>
    simp only [MuxBridge.step]
    split
    · exact .inl (toAdapter_serve _ _)
    · exact .inl rfl
  | .client op =>
    simp only [MuxBridge.step]
    split_ifs
    · exact .inl (toAdapter_serve _ _)
    · exact .inl rfl
  | .dropRecv id => exact .inl (toAdapter_serve _ _)
  | .dropEvents id => exact .inl (toAdapter_serve _ _)
  | .forward write =>
    simp only [MuxBridge.step]
    split_ifs
    · exact sendable_forward setup b write
    · exact .inl rfl
  | .shutdown write =>
    simp only [MuxBridge.step]
    split_ifs
    · exact sendable_disconnect write
    · exact .inl rfl
  | .muxEnds => exact .inl rfl

/-! ### The bridge of a client -/

/-- What a client's bridge has handed to the loop. -/
def sentBy (id : Id) : SessionOp → Option Value
  | .clientSend id' message => if id' = id then some message else none
  | .attach _ | .detach _ => none

/-- What a client has been written are the answers to its requests for plugin metadata and the
beginning of its channel, each in order; what the loop is handed for it is everything else that
the client sent. -/
structure Bridged (options : Options) (s : System) (id : Id) (client : Client) : Prop where
  shown : ∃ delivered,
    Interleave (client.read.filterMap options.answer) delivered client.written ∧
      ((s.bridge.session.recv id).sent.take client.taken).map Message.ofValue =
        delivered.map some
  taken : client.taken ≤ (s.bridge.session.recv id).sent.length
  passed : s.ops.filterMap (sentBy id) =
    (client.read.filter fun m => (options.answer m).isNone).map Message.toValue

/-- Every client has its place, and nobody else is spoken for. -/
structure Inv (options : Options) (s : System) : Prop where
  bridged : ∀ id client, s.clients id = some client → Bridged options s id client
  known : ∀ id client, s.clients id = some client → id.raw ≤ s.bridge.session.nextClientId
  senders : ∀ id, s.clients id = none → s.ops.filterMap (sentBy id) = []

lemma inv_start : Inv options start where
  bridged := by simp [start]
  known := by simp [start]
  senders := by simp [start]

/-- The channels of the clients go on, and no id is given twice. -/
def Onward (s t : System) : Prop :=
  s.bridge.session.nextClientId ≤ t.bridge.session.nextClientId ∧
    ∀ id : Id, id.raw ≤ s.bridge.session.nextClientId →
      (s.bridge.session.recv id).sent <+: (t.bridge.session.recv id).sent

lemma Onward.of_eq {t : System} (h : t.bridge.session = s.bridge.session) : Onward s t := by
  rw [Onward, h]
  exact ⟨Nat.le_refl _, fun _ _ => List.prefix_rfl⟩

lemma Onward.of_step {t : System} (j : Session.Input)
    (h : t.bridge.session = (s.bridge.session.step j).1) : Onward s t := by
  rw [Onward, h, nextClientId_step]
  exact ⟨Nat.le_add_right _ _, fun id hid => recv_prefix _ j hid⟩

variable {t : System}

/-- A bridge that does nothing while the channels go on. -/
lemma Bridged.onward (h : Bridged options s id client) (ho : Onward s t)
    (hid : id.raw ≤ s.bridge.session.nextClientId)
    (hops : t.ops.filterMap (sentBy id) = s.ops.filterMap (sentBy id)) :
    Bridged options t id client := by
  obtain ⟨new, hnew⟩ := ho.2 id hid
  refine ⟨?_, ?_, by rw [hops]; exact h.passed⟩
  · obtain ⟨delivered, hi, hd⟩ := h.shown
    refine ⟨delivered, hi, ?_⟩
    rw [← hnew, List.take_append_of_le_length h.taken]
    exact hd
  · have hlen := congrArg List.length hnew
    rw [List.length_append] at hlen
    have htaken := h.taken
    omega

/-- Steps that leave the bridges of the clients as they are. -/
lemma Inv.frame (h : Inv options s) (ho : Onward s t) (hc : t.clients = s.clients)
    (hops : ∀ id, t.ops.filterMap (sentBy id) = s.ops.filterMap (sentBy id)) : Inv options t where
  bridged id client hid := by
    rw [hc] at hid
    exact (h.bridged id client hid).onward ho (h.known id client hid) (hops id)
  known id client hid := by
    rw [hc] at hid
    exact Nat.le_trans (h.known id client hid) ho.1
  senders id hid := by
    rw [hops]
    exact h.senders id (hc ▸ hid)

/-- Steps of one client's bridge. -/
lemma Inv.setClient (h : Inv options s) (ho : Onward s t) {client' : Client}
    (hc : t.clients = Function.update s.clients id (some client'))
    (hid : id.raw ≤ t.bridge.session.nextClientId)
    (hops : ∀ id', id' ≠ id → t.ops.filterMap (sentBy id') = s.ops.filterMap (sentBy id'))
    (hb : Bridged options t id client') : Inv options t where
  bridged id' other hother := by
    by_cases he : id' = id
    · subst he
      rw [hc, Function.update_self] at hother
      exact Option.some.inj hother ▸ hb
    · rw [hc, Function.update_of_ne he] at hother
      exact (h.bridged id' other hother).onward ho (h.known id' other hother) (hops id' he)
  known id' other hother := by
    by_cases he : id' = id
    · exact he ▸ hid
    · rw [hc, Function.update_of_ne he] at hother
      exact Nat.le_trans (h.known id' other hother) ho.1
  senders id' hnone := by
    by_cases he : id' = id
    · subst he
      rw [hc, Function.update_self] at hnone
      cases hnone
    · rw [hc, Function.update_of_ne he] at hnone
      rw [hops id' he]
      exact h.senders id' hnone

/-! ### Steps -/

lemma sentBy_concat (l : List SessionOp) (op : SessionOp) (id : Id) :
    (l ++ [op]).filterMap (sentBy id) = l.filterMap (sentBy id) ++ (sentBy id op).toList := by
  rw [List.filterMap_append]
  cases h : sentBy id op <;> simp [h]

/-- An operation that carries no message of a client. -/
lemma sentBy_send {op : SessionOp} (h : ∀ id, sentBy id op = none) (s : System) (id : Id) :
    (s.send op).1.ops.filterMap (sentBy id) = s.ops.filterMap (sentBy id) := by
  unfold System.send
  split_ifs
  · rw [sentBy_concat, h]
    exact List.append_nil _
  · rfl

lemma bridge_send (s : System) (op : SessionOp) : (s.send op).1.bridge = s.bridge := by
  unfold System.send
  split_ifs <;> rfl

lemma clients_send (s : System) (op : SessionOp) : (s.send op).1.clients = s.clients := by
  unfold System.send
  split_ifs <;> rfl

lemma Onward.send (s : System) (op : SessionOp) : Onward s (s.send op).1 :=
  .of_eq (congrArg Bridge.session (bridge_send s op))

/-- The bridge of a client that changes its stage, or ends one of its loops. -/
lemma Bridged.restage (h : Bridged options s id client) {client' : Client}
    (hr : client'.read = client.read) (ht : client'.taken = client.taken)
    (hw : client'.written = client.written) : Bridged options s id client' where
  shown := by
    rw [hr, ht, hw]
    exact h.shown
  taken := ht ▸ h.taken
  passed := by
    rw [hr]
    exact h.passed

lemma Inv.restage (h : Inv options s) (hc : s.clients id = some client) {client' : Client}
    (hr : client'.read = client.read) (ht : client'.taken = client.taken)
    (hw : client'.written = client.written) : Inv options (s.setClient id client') := by
  have hid := h.known id client hc
  refine h.setClient (.of_eq rfl) rfl hid (fun _ _ => rfl) ?_
  exact Bridged.onward ((h.bridged id client hc).restage hr ht hw) (.of_eq rfl) hid rfl

lemma inv_takeOp (h : Inv options s) : Inv options s.takeOp := by
  unfold System.takeOp
  split_ifs
  · split
    · next op hop =>
      have hsession := session_serve s.bridge (.op op)
      cases op with
      | attach role =>
        have ho : Onward s { s with
            taken := s.taken + 1, bridge := serve s.bridge (.op (.attach role)) } :=
          .of_step (.op (.attach role)) hsession
        have hnone : s.clients s.bridge.session.nextId = none := by
          rw [Option.eq_none_iff_forall_ne_some]
          intro client hc
          have hle := h.known _ _ hc
          simp only [nextId] at hle
          omega
        refine h.setClient ho rfl ?_ (fun _ _ => rfl) ?_
        · show s.bridge.session.nextId.raw ≤ _
          simp only [System.setClient, hsession, nextClientId_step, nextId,
            Observer.attachedRole, Option.isSome_some, if_true, Nat.le_refl]
        · refine ⟨⟨[], by simpa [Client.new] using Interleave.nil, by simp [Client.new]⟩,
            Nat.zero_le _, ?_⟩
          exact h.senders _ hnone
      | clientSend id message => exact h.frame (.of_step _ hsession) rfl fun _ => rfl
      | detach id => exact h.frame (.of_step _ hsession) rfl fun _ => rfl
    · exact h
  · exact h

lemma inv_ingest (h : Inv options s) (hc : s.clients id = some client) (message : Message)
    (write : Write) : Inv options (s.ingest options id client message write) := by
  have hb := h.bridged id client hc
  have hid := h.known id client hc
  unfold System.ingest
  cases ha : options.answer message with
  | some response =>
    cases write with
    | ok u =>
      refine h.setClient (.of_eq rfl) rfl hid (fun _ _ => rfl) ⟨?_, hb.taken, ?_⟩
      · -- the answer is written to the client at once
        obtain ⟨delivered, hi, hd⟩ := hb.shown
        refine ⟨delivered, ?_, hd⟩
        rw [List.filterMap_append]
        simpa [ha] using hi.left response
      · -- and the request itself is not put on the queue
        show s.ops.filterMap (sentBy id) = _
        rw [List.filter_append, hb.passed]
        simp [ha]
    | error e => exact h.restage hc rfl rfl rfl
  | none =>
    dsimp only
    by_cases hs : s.bridge.serving = true
    · rw [System.send, if_pos hs]
      refine h.setClient (.of_eq rfl) rfl hid (fun id' hne => ?_) ⟨?_, hb.taken, ?_⟩
      · -- the queue has nothing new of the other clients
        show (s.ops ++ [_]).filterMap (sentBy id') = _
        rw [sentBy_concat, sentBy, if_neg (Ne.symm hne)]
        exact List.append_nil _
      · -- the client is written nothing
        obtain ⟨delivered, hi, hd⟩ := hb.shown
        refine ⟨delivered, ?_, hd⟩
        rw [List.filterMap_append]
        simpa [ha] using hi
      · -- the message is the next of this client
        show (s.ops ++ [_]).filterMap (sentBy id) = _
        rw [sentBy_concat, List.filter_append, hb.passed]
        simp [sentBy, ha]
    · rw [System.send, if_neg hs]
      exact h.restage hc rfl rfl rfl

lemma inv_finish (h : Inv options s) (hc : s.clients id = some client) :
    Inv options (s.finish id client) := by
  have hb := h.bridged id client hc
  have hid := h.known id client hc
  have hsent : ∀ client', client'.read = client.read → client'.taken = client.taken →
      client'.written = client.written →
      Inv options ((s.send (.detach id)).1.setClient id client') := by
    intro client' hr ht hw
    have ho := Onward.send s (.detach id)
    refine h.setClient ho (by rw [System.setClient, clients_send]) ?_ (fun id' _ => ?_) ?_
    · exact Nat.le_trans hid ho.1
    · exact sentBy_send (fun _ => rfl) s id'
    · exact Bridged.onward (hb.restage hr ht hw) ho hid (sentBy_send (fun _ => rfl) s id)
  unfold System.finish
  cases client.stage with
  | ingesting => exact h
  | ended => exact hsent _ rfl rfl rfl
  | detached =>
    dsimp only
    split_ifs
    · exact h
    · exact hsent _ rfl rfl rfl
    · exact h.restage hc rfl rfl rfl
  | finished => exact h

lemma inv_stopEgress (h : Inv options s) (hc : s.clients id = some client) :
    Inv options (s.stopEgress id client) := by
  have hb := h.bridged id client hc
  have hid := h.known id client hc
  have ho : Onward s (s.stopEgress id client) :=
    .of_step (.dropRecv id) (session_serve s.bridge (.dropRecv id))
  refine h.setClient ho rfl (Nat.le_trans hid ho.1) (fun _ _ => rfl) ?_
  exact Bridged.onward (hb.restage rfl rfl rfl) ho hid rfl

lemma inv_egress (h : Inv options s) (hc : s.clients id = some client) (write : Write) :
    Inv options (s.egress id client write) := by
  have hb := h.bridged id client hc
  have hid := h.known id client hc
  unfold System.egress
  split
  · next v hv =>
    split
    · next m hm =>
      refine h.setClient (.of_eq rfl) rfl hid (fun _ _ => rfl) ⟨?_, ?_, hb.passed⟩
      · obtain ⟨delivered, hi, hd⟩ := hb.shown
        refine ⟨delivered ++ [m], hi.right m, ?_⟩
        show ((s.bridge.session.recv id).sent.take (client.taken + 1)).map Message.ofValue = _
        rw [List.take_add_one, hv, List.map_append, hd]
        simp [hm]
      · exact (List.getElem?_eq_some_iff.mp hv).1
    · exact inv_stopEgress h hc
  · split_ifs
    · exact h
    · exact inv_stopEgress h hc

/-- **One step** keeps every client's bridge exact. -/
theorem inv_step (h : Inv options s) (i : Input) : Inv options (s.step options i) := by
  match i with
  | .connect role =>
    exact h.frame (.send s _) (clients_send s _) (sentBy_send (fun _ => rfl) s)
  | .takeOp => exact inv_takeOp h
  | .ingest id message write =>
    simp only [System.step]
    split
    · next client hc =>
      split_ifs
      · exact inv_ingest h hc message write
      · exact h
    · exact h
  | .hangUp id =>
    simp only [System.step]
    split
    · next client hc =>
      split_ifs
      · exact h.restage hc rfl rfl rfl
      · exact h
    · exact h
  | .finish id =>
    simp only [System.step]
    split
    · next client hc => exact inv_finish h hc
    · exact h
  | .egress id write =>
    simp only [System.step]
    split
    · next client hc =>
      split_ifs
      · exact inv_egress h hc write
      · exact h
    · exact h
  | .backend input =>
    simp only [System.step]
    split_ifs
    · -- no client's bridge moves, and the session takes a step of its own or none
      refine h.frame ?_ rfl fun _ => rfl
      rcases session_step options.setup s.bridge input with hsame | ⟨j, -, hj⟩
      · exact .of_eq hsame
      · exact .of_step j hj
    · exact h

/-! ### What never comes to the adapter -/

/-- A request for plugin metadata is neither on its way to the adapter nor has been written. -/
structure KeptBack (s : System) : Prop where
  sent : ∀ v ∈ s.bridge.session.toUpstream.sent, command v ≠ some dapProxyPluginInfoCommand
  written : ∀ request, .request request ∈ s.bridge.toAdapter →
    request.command ≠ dapProxyPluginInfoCommand

lemma keptBack_start : KeptBack start where
  sent := by simp [start, MuxBridge.start, SessionLoop.start, Mpsc.opened]
  written := by simp [start, MuxBridge.start]

/-- A message on the loop's queue is none that the proxy answers. -/
lemma unanswered_of_queued (h : Inv options s) {v : Value}
    (hv : .clientSend id v ∈ s.ops) : ∃ m, options.answer m = none ∧ m.toValue = v := by
  have hmem : v ∈ s.ops.filterMap (sentBy id) :=
    List.mem_filterMap.mpr ⟨_, hv, by simp [sentBy]⟩
  cases hc : s.clients id with
  | none =>
    rw [h.senders id hc] at hmem
    cases hmem
  | some client =>
    rw [(h.bridged id client hc).passed] at hmem
    obtain ⟨m, hm, rfl⟩ := List.mem_map.mp hmem
    exact ⟨m, by simpa using (List.mem_filter.mp hm).2, rfl⟩

lemma command_toValue (request : Request) :
    command (Message.request request).toValue = some request.command := by
  have hget : (Message.request request).toValue.get "command" =
      some (.string request.command) := by
    rw [Message.toValue, Value.get_obj (by simp)]
    simp [lookupField]
  simp [command, hget, Value.asStr]

lemma command_of_unanswered (hcontext : options.pluginContext.isSome) {m : Message}
    (ha : options.answer m = none) (hk : messageKind m.toValue = .request) :
    command m.toValue ≠ some dapProxyPluginInfoCommand := by
  obtain ⟨context, hcontext⟩ := Option.isSome_iff_exists.mp hcontext
  have hkind : (m.toValue.get "type").bind Value.asStr = some "request" := by
    unfold messageKind at hk
    split at hk <;> simp_all
  match m with
  | .request request =>
    intro hcommand
    rw [command_toValue] at hcommand
    simp [Options.answer, hcontext, tryHandleClientRequest, Option.some.inj hcommand] at ha
  | .response ⟨n, rn, ok, name, text, payload⟩ =>
    have htype : (Message.response ⟨n, rn, ok, name, text, payload⟩).toValue.get "type" =
        some (.string "response") := by
      cases name <;> cases text <;> cases payload <;>
        simp [Message.toValue, optField, Value.obj, Value.get, lookup_insertField]
    simp [htype, Value.asStr] at hkind
  | .event ⟨n, name, payload⟩ =>
    have htype : (Message.event ⟨n, name, payload⟩).toValue.get "type" =
        some (.string "event") := by
      cases payload <;>
        simp [Message.toValue, optField, Value.obj, Value.get, lookup_insertField]
    simp [htype, Value.asStr] at hkind

/-- A step of the loop that takes no request for plugin metadata sends none. -/
lemma sent_step {session : SessionLoop} (j : Session.Input)
    (hsent : ∀ v ∈ session.toUpstream.sent, command v ≠ some dapProxyPluginInfoCommand)
    (hj : ∀ id v, j = .op (.clientSend id v) → messageKind v = .request →
      command v ≠ some dapProxyPluginInfoCommand) :
    ∀ v ∈ (session.step j).1.toUpstream.sent, command v ≠ some dapProxyPluginInfoCommand := by
  rcases toUpstream_step session j with hsame | ⟨id, v, role, rfl, hk, hmore⟩
  · rw [hsame]
    exact hsent
  · rw [hmore]
    intro w hw
    rcases List.mem_append.mp hw with hw | hw
    · exact hsent w hw
    · rw [List.mem_singleton.mp hw, command_assigned]
      exact hj id v rfl hk

lemma KeptBack.backend (h : KeptBack s) {input : MuxBridge.Input}
    (hi : System.ofBackend input) :
    KeptBack { s with bridge := MuxBridge.step options.setup s.bridge input } where
  sent := by
    rcases session_step options.setup s.bridge input with hsame | ⟨j, hcomes, hj⟩
    · simp only [hsame]
      exact h.sent
    · simp only [hj]
      refine sent_step j h.sent fun id v he _ => ?_
      subst he
      obtain rfl : input = .client _ := hcomes
      cases hi
  written request hr := by
    rcases toAdapter_step options.setup s.bridge input with hsame | ⟨m, hmore, hm⟩
    · exact h.written request (hsame ▸ hr)
    · rw [hmore] at hr
      rcases List.mem_append.mp hr with hr | hr
      · exact h.written request hr
      · rcases hm request (List.mem_singleton.mp hr).symm with hd | ⟨v, hv, hc⟩
        · rw [hd]
          decide
        · intro he
          exact h.sent v hv (by rw [hc, he])

/-- Steps that neither move the loop's queue to the adapter nor write to the adapter. -/
lemma KeptBack.of_eq {t : System} (h : KeptBack s)
    (hs : t.bridge.session.toUpstream.sent = s.bridge.session.toUpstream.sent)
    (ha : t.bridge.toAdapter = s.bridge.toAdapter) : KeptBack t where
  sent := by
    rw [hs]
    exact h.sent
  written := by
    rw [ha]
    exact h.written

lemma KeptBack.takeOp (h : KeptBack s) (hcontext : options.pluginContext.isSome)
    (hinv : Inv options s) : KeptBack s.takeOp := by
  unfold System.takeOp
  split_ifs
  · split
    · next op hop =>
      have hkept : KeptBack { s with
          taken := s.taken + 1, bridge := serve s.bridge (.op op) } := by
        refine ⟨?_, ?_⟩
        · simp only [session_serve]
          refine sent_step (.op op) h.sent fun id v he hk => ?_
          obtain rfl := Session.Input.op.inj he
          obtain ⟨m, ha, rfl⟩ := unanswered_of_queued hinv (List.mem_of_getElem? hop)
          exact command_of_unanswered hcontext ha hk
        · simp only [toAdapter_serve]
          exact h.written
      cases op with
      | attach role => exact hkept.of_eq rfl rfl
      | clientSend id message => exact hkept
      | detach id => exact hkept
    · exact h
  · exact h

lemma KeptBack.stopEgress (h : KeptBack s) : KeptBack (s.stopEgress id client) := by
  refine h.of_eq ?_ (toAdapter_serve _ _)
  simp only [System.stopEgress, System.setClient, session_serve, SessionLoop.step]

lemma keptBack_step (h : KeptBack s) (hcontext : options.pluginContext.isSome)
    (hinv : Inv options s) (i : Input) : KeptBack (s.step options i) := by
  -- a bridge that puts an operation on the queue leaves the session alone
  have hsend : ∀ op, KeptBack (s.send op).1 := fun op =>
    h.of_eq (by rw [bridge_send]) (by rw [bridge_send])
  match i with
  | .connect role => exact hsend _
  | .takeOp => exact h.takeOp hcontext hinv
  | .ingest id message write =>
    simp only [System.step]
    split
    · next client _ =>
      split_ifs
      · unfold System.ingest
        split
        · cases write <;> exact h.of_eq rfl rfl
        · have hs := hsend (.clientSend id message.toValue)
          rcases hsent : s.send (.clientSend id message.toValue) with ⟨t, _ | _⟩
          all_goals
            rw [hsent] at hs
            exact hs.of_eq rfl rfl
      · exact h
    · exact h
  | .hangUp id =>
    simp only [System.step]
    split
    · split_ifs
      · exact h.of_eq rfl rfl
      · exact h
    · exact h
  | .finish id =>
    simp only [System.step]
    split
    · next client _ =>
      unfold System.finish
      split
      · exact (hsend _).of_eq rfl rfl
      · split_ifs
        · exact h
        · exact (hsend _).of_eq rfl rfl
        · exact h.of_eq rfl rfl
      · exact h
      · exact h
    · exact h
  | .egress id write =>
    simp only [System.step]
    split
    · next client _ =>
      split_ifs
      · unfold System.egress
        split
        · split
          · exact h.of_eq rfl rfl
          · exact h.stopEgress
        · split_ifs
          · exact h
          · exact h.stopEgress
      · exact h
    · exact h
  | .backend input =>
    simp only [System.step]
    split_ifs with hi
    · exact h.backend hi
    · exact h

lemma inv_exec (options : Options) (inputs : List Input) : Inv options (exec options inputs) :=
  Trace.inv_foldl (I := Inv options) (fun _ i h => inv_step h i) inv_start inputs

/-- **Plugin metadata** is served by the bridge of the client that asks: whatever the order of
steps, a client is written the answers to its requests, once and in order, among what the
multiplexer has for it; the multiplexer is handed exactly the rest; and with metadata to serve, no
such request is ever written to the adapter. -/
theorem plugin_info_answered (options : Options) (inputs : List Input) :
    (∀ id client, (exec options inputs).clients id = some client →
      Bridged options (exec options inputs) id client) ∧
    (options.pluginContext.isSome → ∀ request,
      .request request ∈ (exec options inputs).bridge.toAdapter →
        request.command ≠ dapProxyPluginInfoCommand) := by
  refine ⟨(inv_exec options inputs).bridged, fun hcontext => ?_⟩
  have hboth : Inv options (exec options inputs) ∧ KeptBack (exec options inputs) :=
    Trace.inv_foldl (I := fun s => Inv options s ∧ KeptBack s)
      (fun s i h => ⟨inv_step h.1 i, keptBack_step h.2 hcontext h.1 i⟩)
      ⟨inv_start, keptBack_start⟩ inputs
  exact hboth.2.written

end DappyCore.ClientBridge
