import DappyCore.Observer

/-!
What one step of the multiplexer's loop, also one that fails, puts on the channels it writes to:
the `recv` channels of its clients, and the one to the adapter.
-/

namespace DappyCore.Session.SessionLoop

open Lib Lib.Machine Json MuxMessage Remapper

/-- How an upstream message is passed on to a client. -/
inductive Outbound (message : Value) : Value → Prop
  | event (n : ℤ) : Outbound message (setSeq message n)
  | editor (c n : ℤ) : Outbound message (setSeq (setRequestSeq message c) n)
  | secondary (c : ℤ) : Outbound message (setRequestSeq message c)

/-- What the loop itself answers. -/
def IsSnapshot (value : Value) : Prop :=
  ∃ n c body, value = response n c true (some body)

/-- What a step may put on the channels of the clients that are attached. -/
def Passed (i : Input) (value : Value) : Prop :=
  match i with
  | .upstream message _ => Outbound message value
  | .op (.clientSend _ _) => IsSnapshot value
  | .op (.attach _) | .op (.detach _) | .dropRecv _ | .dropEvents _ | .dropUpstream => False

/-- Each channel has what it had, and after it only what `P` says. -/
def Grown (P : Value → Prop) (r r' : Id → Mpsc Value) : Prop :=
  ∀ id, ∃ new, (r' id).sent = (r id).sent ++ new ∧ ∀ v ∈ new, P v

variable {P : Value → Prop} {r r' r'' : Id → Mpsc Value} {s : SessionLoop}

lemma Grown.of_eq (h : ∀ id, (r' id).sent = (r id).sent) : Grown P r r' :=
  fun id => ⟨[], by rw [h id, List.append_nil], by simp⟩

lemma Grown.trans (h : Grown P r r') (h' : Grown P r' r'') : Grown P r r'' := by
  intro id
  obtain ⟨new, hn, hp⟩ := h id
  obtain ⟨new', hn', hp'⟩ := h' id
  refine ⟨new ++ new', by rw [hn', hn, List.append_assoc], fun v hv => ?_⟩
  rcases List.mem_append.mp hv with hv | hv
  · exact hp v hv
  · exact hp' v hv

lemma grown_deliver (s : SessionLoop) (id : Id) {message : Value} (h : P message) :
    Grown P s.recv (s.deliverToClient id message).1.recv := by
  by_cases hl : s.Listening id
  · rw [deliverToClient_ok hl]
    intro id'
    by_cases he : id' = id
    · exact ⟨[message], by simp [push, he], by simpa using h⟩
    · exact ⟨[], by simp [push, Function.update_of_ne he], by simp⟩
  · rw [deliverToClient_error hl]
    exact .of_eq fun _ => rfl

lemma grown_deliverEach (wanted : ClientRole → Bool) {message : Value} (h : P message)
    (entries : List (Σ _ : Id, ClientState)) (s : SessionLoop) :
    Grown P s.recv (deliverEach wanted message entries s).1.recv := by
  induction entries generalizing s with
  | nil => exact .of_eq fun _ => rfl
  | cons e rest ih =>
    obtain ⟨id, state⟩ := e
    have hone := grown_deliver s id h
    by_cases hw : wanted state.role
    · by_cases hl : s.Listening id
      · rw [deliverToClient_ok hl] at hone
        simp only [deliverEach, hw, if_true, deliverToClient_ok hl]
        exact hone.trans (ih _)
      · simp only [deliverEach, hw, if_true, deliverToClient_error hl]
        exact .of_eq fun _ => rfl
    · simp only [deliverEach, hw]
      exact ih s

lemma grown_upstream (s : SessionLoop) (message : Value) (order : HashMap.Order Id ClientState) :
    Grown (Outbound message) s.recv (s.handleUpstreamMessage message order).1.recv := by
  rcases hk : messageKind message with _ | _ | _ | _
  case request =>
    rw [handleUpstreamMessage_other (by simp [hk]) (by simp [hk])]
    exact .of_eq fun _ => rfl
  case unknown =>
    rw [handleUpstreamMessage_other (by simp [hk]) (by simp [hk])]
    exact .of_eq fun _ => rfl
  case event =>
    rw [handleUpstreamMessage_event hk]
    exact grown_deliverEach receivesEvents (.event _) _ (s.noted message)
  case response =>
    cases hb : requestSeq message with
    | none =>
      rw [handleUpstreamMessage_malformed hk order hb]
      exact .of_eq fun _ => rfl
    | some b =>
      cases hm : s.remapper.lookupClient ⟨b⟩ with
      | some c =>
        rw [handleUpstreamMessage_editor hk order hb hm]
        exact grown_deliverEach isEditor (.editor _ _) _ (s.unmapped message b)
      | none =>
        cases hp : s.secondaryPending.lookup b with
        | none =>
          rw [handleUpstreamMessage_unmatched hk order hb hm hp]
          exact .of_eq fun _ => rfl
        | some p =>
          obtain ⟨id, c⟩ := p
          rw [handleUpstreamMessage_secondary hk order hb hm hp]
          exact grown_deliver (s.unpended message b) id (.secondary c)

/-- Giving a request its number leaves the clients alone. -/
lemma assignSeq_frame (s : SessionLoop) (id : Id) (role : ClientRole) (message : Value) :
    let t := (s.assignSeq id role message).1
    t.recv = s.recv ∧ t.clients = s.clients ∧ t.nextClientId = s.nextClientId := by
  unfold assignSeq
  split
  · split <;> exact ⟨rfl, rfl, rfl⟩
  · exact ⟨rfl, rfl, rfl⟩

lemma grown_clientMessage (s : SessionLoop) (id : Id) (message : Value) :
    Grown IsSnapshot s.recv (s.handleClientMessage id message).1.recv := by
  rcases handleClientMessage_cases s id message with hleft | ⟨-, role, hleft⟩
  · simp only [List.mem_cons, List.not_mem_nil, or_false] at hleft
    rcases hleft with hleft | hleft | hleft <;> rw [hleft]
    · exact .of_eq fun _ => rfl
    · intro id'
      by_cases he : id' = id
      · refine ⟨[response (s.displaySeq + 1) ((seq message).getD 0) true
          (some s.cache.breakpointSnapshot)], by rw [he]; simp [answered, push], ?_⟩
        intro v hv
        exact ⟨_, _, _, List.mem_singleton.mp hv⟩
      · exact ⟨[], by simp [answered, push, Function.update_of_ne he], by simp⟩
    · exact .of_eq fun _ => rfl
  · simp only [List.mem_cons, List.not_mem_nil, or_false] at hleft
    refine .of_eq fun id' => ?_
    have hr := (assignSeq_frame s id role message).1
    rcases hleft with hleft | hleft <;> rw [hleft]
    · simp only [forwarded, hr]
    · rw [hr]

/-- **One step and the clients' channels**: a client that attaches finds the replay; else every
channel keeps what it has, and gets what the step passes on. -/
theorem recv_step (s : SessionLoop) (i : Input) :
    (∃ role, i = .op (.attach role) ∧
        (s.step i).1.recv = Function.update s.recv s.nextId ⟨s.cache.replay, true⟩) ∨
      Grown (Passed i) s.recv (s.step i).1.recv := by
  match i with
  | .op (.attach role) =>
    refine .inl ⟨role, rfl, ?_⟩
    simp only [step, handleOp, attach_eq]
    rfl
  | .upstream message order => exact .inr (grown_upstream s message order)
  | .op (.clientSend id message) => exact .inr (grown_clientMessage s id message)
  | .dropRecv id =>
    refine .inr (.of_eq fun id' => ?_)
    by_cases he : id' = id
    · simp [step, he]
    · simp [step, Function.update_of_ne he]
  | .op (.detach id) => exact .inr (.of_eq fun _ => rfl)
  | .dropEvents id => exact .inr (.of_eq fun _ => rfl)
  | .dropUpstream => exact .inr (.of_eq fun _ => rfl)

/-- Only a client that attaches takes an id. -/
lemma nextClientId_step (s : SessionLoop) (i : Input) :
    (s.step i).1.nextClientId =
      s.nextClientId + if (Observer.attachedRole i).isSome then 1 else 0 := by
  match i with
  | .op (.attach role) =>
    simp only [step, handleOp, attach_eq]
    rfl
  | .upstream message order => exact (handleUpstreamMessage_frame s message order).2.2.2.1
  | .op (.clientSend id message) =>
    simp only [step, handleOp, Observer.attachedRole]
    rcases handleClientMessage_cases s id message with hleft | ⟨-, role, hleft⟩
    · simp only [List.mem_cons, List.not_mem_nil, or_false] at hleft
      rcases hleft with hleft | hleft | hleft <;> rw [hleft] <;> rfl
    · simp only [List.mem_cons, List.not_mem_nil, or_false] at hleft
      rcases hleft with hleft | hleft <;> rw [hleft]
      · exact (assignSeq_frame s id role message).2.2
      · exact (assignSeq_frame s id role message).2.2
  | .op (.detach _) | .dropRecv _ | .dropEvents _ | .dropUpstream => rfl

/-- A client that is attached keeps what is on its channel. -/
lemma recv_prefix (s : SessionLoop) (i : Input) {id : Id} (hid : id.raw ≤ s.nextClientId) :
    (s.recv id).sent <+: ((s.step i).1.recv id).sent := by
  rcases recv_step s i with ⟨role, -, hr⟩ | hg
  · have hne : id ≠ s.nextId := by
      rintro rfl
      simp only [nextId] at hid
      omega
    have hsame : (s.step i).1.recv id = s.recv id := by rw [hr, Function.update_of_ne hne]
    exact hsame ▸ List.prefix_rfl
  · obtain ⟨new, hn, -⟩ := hg id
    exact ⟨new, hn.symm⟩

/-! ### The channel to the adapter -/

/-- The number is all that a forwarded request differs in, but for the request a `cancel` names. -/
lemma command_assigned (s : SessionLoop) (id : Id) (role : ClientRole) (message : Value) :
    command (s.assignSeq id role message).2 = command message := by
  by_cases he : isEditor role
  · cases hc : seq message with
    | none => rw [Observer.assignSeq_verbatim he hc]
    | some c =>
      rw [Observer.assignSeq_editor he hc, command_setSeq, command, command,
        get_translateCancel_of_ne (by decide)]
  · rw [Observer.assignSeq_secondary he, command_setSeq]

/-- **One step and the adapter's channel**: a request of a client is put on it, or nothing. -/
theorem toUpstream_step (s : SessionLoop) (i : Input) :
    (s.step i).1.toUpstream.sent = s.toUpstream.sent ∨
      ∃ id message role, i = .op (.clientSend id message) ∧ messageKind message = .request ∧
        (s.step i).1.toUpstream.sent =
          s.toUpstream.sent ++ [(s.assignSeq id role message).2] := by
  match i with
  | .op (.attach role) =>
    simp only [step, handleOp, attach_eq]
    exact .inl rfl
  | .upstream message order =>
    exact .inl (congrArg Mpsc.sent (handleUpstreamMessage_frame s message order).1)
  | .op (.clientSend id message) =>
    simp only [step, handleOp]
    rcases handleClientMessage_cases s id message with hleft | ⟨hk, role, hleft⟩
    · simp only [List.mem_cons, List.not_mem_nil, or_false] at hleft
      rcases hleft with hleft | hleft | hleft
      all_goals exact .inl (congrArg (fun t => t.toUpstream.sent) hleft)
    · simp only [List.mem_cons, List.not_mem_nil, or_false] at hleft
      rcases hleft with hleft | hleft
      · exact .inr ⟨id, message, role, rfl, hk, by rw [hleft]; rfl⟩
      · exact .inl (by rw [hleft, assignSeq_toUpstream])
  | .op (.detach _) | .dropRecv _ | .dropEvents _ | .dropUpstream => exact .inl rfl

/-! ### The cache -/

/-- An upstream message is shown to the cache, delivered or not. -/
theorem cache_upstream (s : SessionLoop) (message : Value)
    (order : HashMap.Order Id ClientState) :
    (s.handleUpstreamMessage message order).1.cache =
      (s.cache.observe message).observeResponse message := by
  rcases hk : messageKind message with _ | _ | _ | _
  case request =>
    rw [handleUpstreamMessage_other (by simp [hk]) (by simp [hk])]
    simp [Cache.LateJoinCache.observe, Cache.LateJoinCache.observeResponse, hk]
  case unknown =>
    rw [handleUpstreamMessage_other (by simp [hk]) (by simp [hk])]
    simp [Cache.LateJoinCache.observe, Cache.LateJoinCache.observeResponse, hk]
  case event =>
    obtain ⟨r, hr⟩ := deliverEach_frame receivesEvents (s.outboundEvent message)
      (order.visit s.clients) (s.noted message)
    rw [handleUpstreamMessage_event hk, hr]
    simp [Cache.LateJoinCache.observeResponse, hk, noted]
  case response =>
    -- a response is no event
    have hsame : s.cache.observe message = s.cache := by
      simp [Cache.LateJoinCache.observe, hk]
    rw [hsame]
    cases hb : requestSeq message with
    | none =>
      rw [handleUpstreamMessage_malformed hk order hb]
      rfl
    | some b =>
      cases hm : s.remapper.lookupClient ⟨b⟩ with
      | some c =>
        obtain ⟨r, hr⟩ := deliverEach_frame isEditor (s.outboundResponse message c.raw)
          (order.visit s.clients) (s.unmapped message b)
        rw [handleUpstreamMessage_editor hk order hb hm, hr]
        rfl
      | none =>
        cases hp : s.secondaryPending.lookup b with
        | none =>
          rw [handleUpstreamMessage_unmatched hk order hb hm hp]
          rfl
        | some p =>
          obtain ⟨id, c⟩ := p
          obtain ⟨r, hr⟩ := deliverToClient_frame (s.unpended message b) id
            (setRequestSeq message c)
          rw [handleUpstreamMessage_secondary hk order hb hm hp, hr]
          rfl

/-- What the cache has for the replay. -/
def Remembered (c : Cache.LateJoinCache) : Option Value × Option Value × Option Value :=
  (c.initializeBody, c.initialized, c.lastStopped)

lemma remembered_assignSeq (s : SessionLoop) (id : Id) (role : ClientRole) (message : Value) :
    Remembered (s.assignSeq id role message).1.cache = Remembered s.cache := by
  have hobserve : ∀ n v, Remembered (s.cache.observeClientRequest n v) = Remembered s.cache := by
    intro n v
    unfold Cache.LateJoinCache.observeClientRequest
    split <;> rfl
  unfold assignSeq
  split
  · split
    · rfl
    · exact hobserve _ _
  · exact hobserve _ _

/-- **One step and the replay**: only upstream messages change it. -/
theorem remembered_step (s : SessionLoop) (i : Input)
    (hi : ∀ message order, i ≠ .upstream message order) :
    Remembered (s.step i).1.cache = Remembered s.cache := by
  match i with
  | .upstream message order => exact absurd rfl (hi message order)
  | .op (.attach role) =>
    simp only [step, handleOp, attach_eq]
    rfl
  | .op (.clientSend id message) =>
    simp only [step, handleOp]
    rcases handleClientMessage_cases s id message with hleft | ⟨-, role, hleft⟩
    · simp only [List.mem_cons, List.not_mem_nil, or_false] at hleft
      rcases hleft with hleft | hleft | hleft
      all_goals exact congrArg (fun t => Remembered t.cache) hleft
    · simp only [List.mem_cons, List.not_mem_nil, or_false] at hleft
      rcases hleft with hleft | hleft
      all_goals
        rw [hleft]
        exact remembered_assignSeq s id role message
  | .op (.detach _) | .dropRecv _ | .dropEvents _ | .dropUpstream => rfl

end DappyCore.Session.SessionLoop
