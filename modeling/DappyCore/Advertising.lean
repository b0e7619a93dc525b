import DappyCore.PluginInfo

/-!
The capability that the proxy adds to the adapter's `initialize` response. Every client is told of
it: the one that asked, the ones that only hear the response replayed, and also after the adapter
was initialized again.
-/

namespace DappyCore.ClientBridge

open Lib Json MuxMessage Protocol Session SessionLoop MuxBridge

/-- Capability flag advertised in the proxied `initialize` response body. -/
def supportsDapProxyPluginInfoRequest : String := "supportsDapProxyPluginInfoRequest"

/-- A body that has the flag. -/
def Capable (body : Option Value) : Prop :=
  ∃ b, body = some b ∧ b.get supportsDapProxyPluginInfoRequest = some (.bool true)

/-- A message that has the flag, if it is the response to `initialize`. -/
def Advertises : Message → Prop
  | .response response => response.command = some "initialize" → Capable response.body
  | .request _ | .event _ => True

/-- The adapter answers `initialize` with an object for a body, or without a body. -/
def AnswersWithObject : Input → Prop
  | .backend (.adapter (.response response) _ _ _) =>
    response.command = some "initialize" → ∀ body, response.body = some body → body.IsObject
  | _ => True

/-- The same of a message in JSON. -/
def Flagged (value : Value) : Prop :=
  messageKind value = .response → command value = some "initialize" →
    Capable (value.get "body")

variable {options : Options} {s : System} {v : Value}

/-! ### Messages -/

lemma Flagged.of_get {w : Value} (h : Flagged v)
    (hg : ∀ key, key = "type" ∨ key = "command" ∨ key = "body" → w.get key = v.get key) :
    Flagged w := by
  intro hk hc
  rw [hg "body" (by simp)]
  refine h ?_ ?_
  · rw [← hk, messageKind, messageKind, hg "type" (by simp)]
  · rw [← hc, command, command, hg "command" (by simp)]

lemma Flagged.outbound {m : Value} (h : Flagged m) (hv : Outbound m v) : Flagged v := by
  have hseq : ∀ {w : Value} (n : ℤ), Flagged w → Flagged (setSeq w n) := by
    intro w n hw
    refine hw.of_get fun key hkey => get_setSeq_of_ne ?_ w n
    rcases hkey with rfl | rfl | rfl <;> decide
  have hrequest : ∀ c : ℤ, Flagged (setRequestSeq m c) := by
    intro c
    refine h.of_get fun key hkey => get_setRequestSeq_of_ne ?_ ?_ m c
    · rcases hkey with rfl | rfl | rfl <;> decide
    · rcases hkey with rfl | rfl | rfl <;> decide
  cases hv with
  | event n => exact hseq n h
  | editor c n => exact hseq n (hrequest c)
  | secondary c => exact hrequest c

lemma flagged_snapshot (h : IsSnapshot v) : Flagged v := by
  obtain ⟨n, c, body, rfl⟩ := h
  intro _ hc
  simp [command, response, Value.obj, Value.get, lookup_insertField, lookupField] at hc

/-- **The flag is added** to what the adapter says. -/
lemma flagged_augmented {message : Message} (h : ∀ r, message = .response r →
    r.command = some "initialize" → ∀ body, r.body = some body → body.IsObject) :
    Flagged (augmentInitializeResponse message).toValue := by
  match message with
  | .request ⟨n, name, args⟩ =>
    intro hk
    cases args <;>
      simp [augmentInitializeResponse, messageKind, Message.toValue, Value.obj, Value.get,
        lookup_insertField, Value.ofOption, Value.asStr] at hk
  | .event ⟨n, name, payload⟩ =>
    intro hk
    cases payload <;>
      simp [augmentInitializeResponse, messageKind, Message.toValue, optField, Value.obj,
        Value.get, lookup_insertField, Value.asStr] at hk
  | .response ⟨n, rn, ok, name, text, payload⟩ =>
    by_cases hi : name = some "initialize"
    · -- the adapter's body, or an empty object in its place, gets the flag
      subst hi
      intro _ _
      refine ⟨(payload.getD (.obj [])).set supportsDapProxyPluginInfoRequest (.bool true), ?_,
        Value.get_set_self ?_ _ _⟩
      · cases text <;>
          simp [augmentInitializeResponse, Message.toValue, optField, Value.obj, Value.get,
            lookup_insertField, supportsDapProxyPluginInfoRequest]
      · cases payload with
        | none => exact ⟨_, rfl⟩
        | some body => exact h _ rfl rfl body rfl
    · -- a response to something else stays as it is
      intro _ hc
      have hname : command (Message.response ⟨n, rn, ok, name, text, payload⟩).toValue = name := by
        cases name <;> cases text <;> cases payload <;>
          simp [command, Message.toValue, optField, Value.obj, Value.get, lookup_insertField,
            lookupField, Value.asStr]
      rw [augmentInitializeResponse, if_neg hi, hname] at hc
      exact absurd hc hi

/-- What a client is written of a message that has the flag has it. -/
lemma advertises_ofValue (h : Flagged v) {m : Message} (hm : Message.ofValue v = some m) :
    Advertises m := by
  unfold Message.ofValue at hm
  split at hm
  · simp only [Option.bind_eq_bind, Option.bind_eq_some_iff, Option.pure_def, Option.some.injEq]
      at hm
    obtain ⟨_, -, _, -, rfl⟩ := hm
    trivial
  · next htype =>
    simp only [Option.bind_eq_bind, Option.bind_eq_some_iff, Option.pure_def, Option.some.injEq]
      at hm
    obtain ⟨_, -, _, -, _, -, name, hname, _, -, rfl⟩ := hm
    intro hc
    obtain rfl : name = some "initialize" := hc
    -- the typed message has the command that the value has
    have hcommand : command v = some "initialize" := by
      unfold optString at hname
      split at hname
      · simp at hname
      · simp at hname
      · next text htext => simp_all [command, Value.asStr]
      · simp at hname
    have hkind : messageKind v = .response := by simp [messageKind, htype]
    obtain ⟨body, hbody, hflag⟩ := h hkind hcommand
    refine ⟨body, ?_, hflag⟩
    simp only [optValue, hbody]
    split
    · -- a body that is null has no flag
      next hnull =>
      obtain rfl := Option.some.inj hnull
      simp [Value.get] at hflag
    · rfl
  · simp only [Option.bind_eq_bind, Option.bind_eq_some_iff, Option.pure_def, Option.some.injEq]
      at hm
    obtain ⟨_, -, _, -, rfl⟩ := hm
    trivial
  · cases hm

/-! ### The loop -/

/-- What is on the clients' channels, and what is kept for the ones to come, has the flag. -/
structure Spread (session : SessionLoop) : Prop where
  queues : ∀ id, ∀ v ∈ (session.recv id).sent, Flagged v
  replay : ∀ v ∈ session.cache.replay, Flagged v

/-- What is kept for the replay is an upstream message, or has the body of one. -/
lemma flagged_replay {cache : Cache.LateJoinCache} (h : ∀ w ∈ cache.replay, Flagged w)
    (hm : Flagged v) : ∀ w ∈ ((cache.observe v).observeResponse v).replay, Flagged w := by
  -- what is kept of an event is the event itself
  have hevent : ∀ w ∈ (cache.observe v).replay, Flagged w := by
    unfold Cache.LateJoinCache.observe
    split_ifs with hk
    · exact h
    · intro w hw
      split at hw
      · simp only [Cache.LateJoinCache.replay, List.mem_append, Option.toList_some,
          List.mem_singleton] at h hw
        rcases hw with (hw | rfl) | hw
        · exact h w (.inl (.inl hw))
        · exact hm
        · exact h w (.inr hw)
      · simp only [Cache.LateJoinCache.replay, List.mem_append, Option.toList_some,
          List.mem_singleton] at h hw
        rcases hw with (hw | hw) | rfl
        · exact h w (.inl (.inl hw))
        · exact h w (.inl (.inr hw))
        · exact hm
      · exact h w hw
      · exact h w hw
  intro w hw
  unfold Cache.LateJoinCache.observeResponse at hw
  split_ifs at hw with hk hi
  · exact hevent w hw
  · simp only [Cache.LateJoinCache.replay, List.mem_append] at hevent hw
    rcases hw with (hw | hw) | hw
    · -- the response that is rebuilt has the body of the adapter's
      obtain ⟨body, hbody, rfl⟩ := Option.map_eq_some_iff.mp (Option.mem_toList.mp hw)
      intro _ _
      have hcapable := hm (not_not.mp hk) hi.1
      rw [hbody] at hcapable
      rw [Value.get_obj (by simp)]
      simpa [lookupField] using hcapable
    · exact hevent w (.inl (.inr hw))
    · exact hevent w (.inr hw)
  · exact hevent w hw

lemma spread_start : Spread SessionLoop.start where
  queues := by simp [SessionLoop.start, Mpsc.closed]
  replay := by simp [SessionLoop.start, Cache.LateJoinCache.replay, Cache.LateJoinCache.empty]

lemma replay_of_remembered {c c' : Cache.LateJoinCache} (h : Remembered c' = Remembered c) :
    c'.replay = c.replay := by
  simp only [Remembered, Prod.mk.injEq] at h
  simp only [Cache.LateJoinCache.replay, h]

/-- **One step of the loop** spreads nothing without the flag. -/
theorem Spread.step {session : SessionLoop} (h : Spread session) (i : Session.Input)
    (hi : ∀ v order, i = .upstream v order → Flagged v) : Spread (session.step i).1 where
  queues id v hv := by
    rcases recv_step session i with ⟨role, -, hr⟩ | hg
    · rw [hr] at hv
      by_cases he : id = session.nextId
      · rw [he, Function.update_self] at hv
        exact h.replay v hv
      · rw [Function.update_of_ne he] at hv
        exact h.queues id v hv
    · obtain ⟨new, hnew, hpassed⟩ := hg id
      rw [hnew] at hv
      rcases List.mem_append.mp hv with hv | hv
      · exact h.queues id v hv
      · have hp := hpassed v hv
        match i with
        | .upstream m order => exact (hi m order rfl).outbound hp
        | .op (.clientSend _ _) => exact flagged_snapshot hp
        | .op (.attach _) | .op (.detach _) | .dropRecv _ | .dropEvents _ | .dropUpstream =>
          exact hp.elim
  replay := by
    by_cases hu : ∃ m order, i = .upstream m order
    · obtain ⟨m, order, rfl⟩ := hu
      rw [SessionLoop.step, cache_upstream]
      exact flagged_replay h.replay (hi m order rfl)
    · rw [replay_of_remembered (remembered_step session i fun m order he => hu ⟨m, order, he⟩)]
      exact h.replay

/-! ### The proxy -/

/-- Everything on its way from the adapter to a client has the flag. -/
structure Advertising (s : System) : Prop where
  toMux : ∀ v ∈ s.bridge.toMux, Flagged v
  session : Spread s.bridge.session

lemma advertising_start : Advertising start where
  toMux := by simp [start, MuxBridge.start]
  session := spread_start

lemma toMux_serve (b : Bridge) (j : Session.Input) : (serve b j).toMux = b.toMux := by
  unfold serve
  split <;> rfl

lemma toMux_forward (setup : Setup) (b : Bridge) (write : Write) :
    (forward setup b write).toMux = b.toMux := by
  unfold forward
  split
  · dsimp only
    split <;> rfl
  · split_ifs
    · rfl
    · cases write <;> rfl

/-- What the loop is given more is a message of the adapter, with the flag added. -/
lemma toMux_step (setup : Setup) (b : Bridge) (i : MuxBridge.Input) (hc : setup.pluginContext)
    (v : Value) (hv : v ∈ (MuxBridge.step setup b i).toMux) :
    v ∈ b.toMux ∨ ∃ message terminal spawner write, i = .adapter message terminal spawner write ∧
      v = (augmentInitializeResponse message).toValue := by
  match i with
  | .adapter message terminal spawner write =>
    simp only [MuxBridge.step] at hv
    split_ifs at hv
    · unfold MuxBridge.read at hv
      split at hv
      · -- a reverse request that the bridge answers is not passed on
        cases write <;> exact .inl hv
      · -- any other message goes to the loop with the flag added
        simp only [hc, if_true] at hv
        split_ifs at hv
        · rcases List.mem_append.mp hv with hv | hv
          · exact .inl hv
          · exact .inr ⟨message, terminal, spawner, write, rfl, List.mem_singleton.mp hv⟩
        · exact .inl hv
    · exact .inl hv
  | .serve order =>
    simp only [MuxBridge.step] at hv
    split at hv
    · next value rest _ hq =>
      rw [toMux_serve] at hv
      exact .inl (hq ▸ List.mem_cons_of_mem _ hv)
    · exact .inl hv
  | .client op =>
    simp only [MuxBridge.step] at hv
    split_ifs at hv
    · exact .inl (toMux_serve b _ ▸ hv)
    · exact .inl hv
  | .dropRecv id => exact .inl (toMux_serve b _ ▸ hv)
  | .dropEvents id => exact .inl (toMux_serve b _ ▸ hv)
  | .forward write =>
    simp only [MuxBridge.step] at hv
    split_ifs at hv
    · exact .inl (toMux_forward setup b write ▸ hv)
    · exact .inl hv
  | .shutdown write =>
    simp only [MuxBridge.step] at hv
    split_ifs at hv
    · cases write <;> exact .inl hv
    · exact .inl hv
  | .muxEnds => exact .inl hv

lemma Advertising.of_serve (h : Advertising s) (j : Session.Input)
    (hj : ∀ v order, j ≠ .upstream v order) {t : System} (ht : t.bridge = serve s.bridge j) :
    Advertising t where
  toMux := by
    rw [ht, toMux_serve]
    exact h.toMux
  session := by
    rw [ht, session_serve]
    exact h.session.step j fun v order he => absurd he (hj v order)

lemma Advertising.of_eq (h : Advertising s) {t : System} (ht : t.bridge = s.bridge) :
    Advertising t where
  toMux := by
    rw [ht]
    exact h.toMux
  session := by
    rw [ht]
    exact h.session

/-- What a step of the clients' bridges does to the bridge to the adapter. -/
lemma bridge_step (options : Options) (s : System) (i : Input) :
    (s.step options i).bridge = s.bridge ∨
      (∃ j, (∀ v order, j ≠ Session.Input.upstream v order) ∧
        (s.step options i).bridge = serve s.bridge j) ∨
      ∃ input, i = .backend input ∧
        (s.step options i).bridge = MuxBridge.step options.setup s.bridge input := by
  -- a bridge that can write no more drops its client's receiver
  have hstop : ∀ id client, ∃ j, (∀ v order, j ≠ Session.Input.upstream v order) ∧
      (s.stopEgress id client).bridge = serve s.bridge j :=
    fun id client => ⟨.dropRecv id, by simp, rfl⟩
  match i with
  | .connect role => exact .inl (bridge_send s _)
  | .takeOp =>
    simp only [System.step, System.takeOp]
    split_ifs
    · split
      · next op _ =>
        refine .inr (.inl ⟨.op op, by simp, ?_⟩)
        cases op <;> rfl
      · exact .inl rfl
    · exact .inl rfl
  | .ingest id message write =>
    simp only [System.step]
    split
    · next client _ =>
      split_ifs
      · unfold System.ingest
        split
        · -- answered on the spot: nothing goes to the session
          cases write <;> exact .inl rfl
        · -- put on the queue of the operations
          have hb := bridge_send s (.clientSend id message.toValue)
          rcases hsent : s.send (.clientSend id message.toValue) with ⟨t, _ | _⟩
          all_goals
            rw [hsent] at hb
            exact .inl hb
      · exact .inl rfl
    · exact .inl rfl
  | .hangUp id =>
    simp only [System.step]
    split
    · split_ifs <;> exact .inl rfl
    · exact .inl rfl
  | .finish id =>
    simp only [System.step]
    split
    · unfold System.finish
      split
      · exact .inl (bridge_send s _)
      · split_ifs
        · exact .inl rfl
        · exact .inl (bridge_send s _)
        · exact .inl rfl
      · exact .inl rfl
      · exact .inl rfl
    · exact .inl rfl
  | .egress id write =>
    simp only [System.step]
    split
    · split_ifs
      · unfold System.egress
        split
        · split
          · exact .inl rfl
          · exact .inr (.inl (hstop _ _))
        · split_ifs
          · exact .inl rfl
          · exact .inr (.inl (hstop _ _))
      · exact .inl rfl
    · exact .inl rfl
  | .backend input =>
    simp only [System.step]
    split_ifs
    · exact .inr (.inr ⟨input, rfl, rfl⟩)
    · exact .inl rfl

lemma advertising_step (hcontext : options.pluginContext.isSome) (i : Input)
    (hi : AnswersWithObject i) (h : Advertising s) : Advertising (s.step options i) := by
  rcases bridge_step options s i with hsame | ⟨j, hj, hserve⟩ | ⟨input, rfl, hbridge⟩
  · exact h.of_eq hsame
  · exact h.of_serve j hj hserve
  · refine ⟨fun v hv => ?_, ?_⟩
    · rw [hbridge] at hv
      rcases toMux_step options.setup s.bridge input hcontext v hv with
        hold | ⟨message, terminal, spawner, write, rfl, rfl⟩
      · exact h.toMux v hold
      · refine flagged_augmented ?_
        rintro r rfl
        exact hi
    · rw [hbridge]
      rcases session_step options.setup s.bridge input with hsame | ⟨j, hcomes, hj⟩
      · rw [hsame]
        exact h.session
      · rw [hj]
        refine h.session.step j ?_
        rintro v order rfl
        exact h.toMux v hcomes

/-- **The capability reaches every client**: with plugin metadata to serve, each `initialize`
response that any client is ever written, asked for or replayed, says so, whatever the order of
steps and whoever attaches when. -/
theorem initialize_advertises (options : Options) (inputs : List Input)
    (hcontext : options.pluginContext.isSome) (hadapter : ∀ i ∈ inputs, AnswersWithObject i)
    {id : Id} {client : Client} (hc : (exec options inputs).clients id = some client) :
    ∀ message ∈ client.written, Advertises message := by
  have had : Advertising (exec options inputs) :=
    Trace.inv_foldl_of (I := Advertising) (R := AnswersWithObject)
      (fun s i hi h => advertising_step hcontext i hi h) advertising_start hadapter
  obtain ⟨delivered, hmerged, hqueue⟩ := ((inv_exec options inputs).bridged id client hc).shown
  intro message hm
  rcases (hmerged.mem message).mp hm with hm | hm
  · obtain ⟨m, -, ha⟩ := List.mem_filterMap.mp hm
    obtain ⟨context, -, ha⟩ := Option.bind_eq_some_iff.mp ha
    unfold tryHandleClientRequest at ha
    split at ha
    · split_ifs at ha
      obtain rfl := Option.some.inj ha
      intro hcommand
      exact absurd (Option.some.inj hcommand) (by decide)
    · cases ha
    · cases ha
  · have hmem : some message ∈ delivered.map some := List.mem_map_of_mem hm
    rw [← hqueue] at hmem
    obtain ⟨v, hv, hof⟩ := List.mem_map.mp hmem
    exact advertises_ofValue (had.session.queues id v (List.mem_of_mem_take hv)) hof

/-- A proxy with a plugin's metadata to serve. -/
def pythonOptions : Options where
  child := none
  pluginContext := some
    { manifest :=
        { id := "python", name := "Python", version := "0.1.0", languages := ["python"]
          launchTypes := ["python"], fileExtensions := ["py"], initializeSpec := none
          launch := none, init := none
          adapter := { transport := .stdio, command := "python3", args := [] }
          attachment := none, sourcePath := none }
      canonicalize := fun _ => none }
  attachDefaults := none
  toText := fun _ => ""

/-- The editor initializes the adapter, then a control client attaches. -/
def joinedLate : List Input :=
  [.connect .editor, .takeOp, .ingest ⟨1⟩ (.request ⟨1, "initialize", none⟩) (.ok ()), .takeOp,
    .backend (.forward (.ok ())),
    .backend (.adapter (.response ⟨7, 1, true, some "initialize", none, some (.obj [])⟩)
      ⟨"/tmp", fun _ _ => .error (.spawn, "")⟩ (fun _ => .error "") (.ok ())),
    .backend (.serve .listed), .egress ⟨1⟩ (.ok ()), .connect .control, .takeOp,
    .egress ⟨2⟩ (.ok ())]

lemma answersWithObject_joinedLate : ∀ i ∈ joinedLate, AnswersWithObject i := by
  intro i hi
  simp only [joinedLate, List.mem_cons, List.not_mem_nil, or_false] at hi
  rcases hi with rfl | rfl | rfl | rfl | rfl | rfl | rfl | rfl | rfl | rfl | rfl
  case inr.inr.inr.inr.inr.inl =>
    intro _ body hbody
    exact ⟨_, (Option.some.inj hbody).symm⟩
  all_goals trivial

theorem initialize_advertises_joinedLate : ∃ client,
    (exec pythonOptions joinedLate).clients ⟨2⟩ = some client ∧ client.written.length = 1 ∧
      ∀ message ∈ client.written, Advertises message := by
  have hone : ((exec pythonOptions joinedLate).clients ⟨2⟩).map (·.written.length) = some 1 := rfl
  obtain ⟨client, hc, hlen⟩ := Option.map_eq_some_iff.mp hone
  exact ⟨client, hc, hlen,
    initialize_advertises pythonOptions joinedLate rfl answersWithObject_joinedLate hc⟩

end DappyCore.ClientBridge
