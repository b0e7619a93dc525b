import DappyCore.Observer

/-!
What a `cancel` refers to once it is upstream. The id is translated only for an editor whose
table has it; in all other cases it goes upstream as the client wrote it, and there it may be
the number of anyone's request.
-/

namespace DappyCore.CancelIsolation

open Lib Lib.Machine Json MuxMessage Remapper Session SessionLoop Observer

/-- The `cancel` written upstream, if this step writes one, never names a request of another
client, and it names each open request of the sender that has the number the sender gave. -/
def CancelIsolated (s : SessionLoop) (h : History) (t : SessionLoop) : Input → Prop
  | .op (.clientSend id message) => ∀ w, written s t = some w →
      (∀ n r, cancelRequestId w = some n → (n, r) ∈ h.requests.issued → r.client = id) ∧
      ∀ c b r, cancelRequestId message = some c → h.requests.outstanding.lookup b = some r →
        r.client = id → seq r.message = some c → cancelRequestId w = some b
  | _ => True

/-- What a step does with the number `c` of editors: it goes with a request to `b` upstream, or a
request that has it is answered. -/
def renames (c : ℤ) (v : (SessionLoop × History) × Input) : Option (Option ℤ) :=
  match v.2 with
  | .op (.clientSend id message) =>
    (v.1.1.clients.lookup id).bind fun state =>
      if isEditor state.role ∧ seq message = some c then
        ((written v.1.1 (v.1.1.step v.2).1).bind seq).map some
      else none
  | .upstream message _ =>
    if messageKind message = .response then
      ((requestSeq message).bind v.1.2.requests.outstanding.lookup).bind fun r =>
        if isEditor r.role ∧ seq r.message = some c then some none else none
    else none
  | _ => none

/-- The request that an editor's number `c` stands for after a run: the last that an editor sent
under it, unless one of that number was answered since. -/
def standing (done : List Input) (c : ℤ) : Option ℤ :=
  ((visits watched begin done).filterMap (renames c)).getLast?.getD none

/-- Where the number an editor gives stands for a request, that request is the sender's, and the
sender has no other request open under this number. Everywhere else the number is not the upstream
number of another client's request, and what the sender has open under it went upstream under the
same number. -/
def CancelSafe (done : List Input) (s : SessionLoop) (h : History) : Input → Prop
  | .op (.clientSend id message) => ∀ state c, s.clients.lookup id = some state →
      messageKind message = .request → s.toUpstream.alive → cancelRequestId message = some c →
      (match (if isEditor state.role ∧ (seq message).isSome then standing done c else none) with
      | some b => (∀ r, h.requests.outstanding.lookup b = some r → r.client = id) ∧
          ∀ b' r, h.requests.outstanding.lookup b' = some r → r.client = id →
            seq r.message = some c → b' = b
      | none => (∀ r, (c, r) ∈ h.requests.issued → r.client = id) ∧
          ∀ b r, h.requests.outstanding.lookup b = some r → r.client = id →
            seq r.message = some c → b = c)
  | _ => True

variable {s t : SessionLoop} {h : History} {id : Id} {message : Value}

/-! ### What a number stands for -/

/-- One step: the forward table has what the step makes of the number, or what it had. -/
lemma lookupBackend_step (c : ℤ) {i : Input} (hi : Inv s h) (hstep : s.step i = (t, .ok ())) :
    (t.remapper.lookupBackend ⟨c⟩).map BackendSeq.raw =
      (renames c ((s, h), i)).getD ((s.remapper.lookupBackend ⟨c⟩).map BackendSeq.raw) := by
  -- a response to anything but an open request of an editor says nothing of the number
  have hother : ∀ {message : Value} {order : HashMap.Order Id ClientState} {b : ℤ},
      requestSeq message = some b → s.remapper.lookupClient ⟨b⟩ = none →
      renames c ((s, h), .upstream message order) = none := by
    intro message order b hb hm
    have hnone := hi.not_editor_of_unmapped hm
    simp only [renames, hb, Option.bind_some]
    split_ifs
    · cases ho : h.requests.outstanding.lookup b with
      | none => rfl
      | some r =>
        rw [ho, Option.filter_some] at hnone
        split_ifs at hnone with he
        simp [he]
    · rfl
  cases took_of_step hstep with
  | attach role => rfl
  | detach id => rfl
  | ignored hs hk =>
    simp [renames, hs, hstep, written_of_same]
  | @answered id state message hs hk ha hl =>
    have hnone : written s (s.answered id message) = none := written_of_same rfl
    simp only [renames, hs, hstep, hnone, Option.bind_some, Option.bind_none, Option.map_none,
      ite_self, Option.getD_none]
    rfl
  | @forwarded id state message hs hk ha hu =>
    simp only [renames, hs, hstep, Option.bind_some, written_forwarded]
    by_cases he : isEditor state.role
    · cases hq : seq message with
      | none => simp [forwarded, assignSeq_verbatim he hq]
      | some n =>
        have hw := (seq_assigned hk (s.backendSeq + 1) s.remapper).2
        simp only [forwarded, assignSeq_editor he hq, MessageRemapper.lookupBackend_map, hw, he,
          true_and, Option.some.injEq, ClientSeq.mk.injEq]
        by_cases hc : c = n
        · simp [hc]
        · simp [hc, Ne.symm hc]
    · simp [forwarded, assignSeq_secondary he, he]
  | event hk hh =>
    simp only [renames, hk, reduceCtorEq, if_false, Option.getD_none]
    rfl
  | unexpected hk hk' => simp [renames, hk]
  | editor hk hb hm hh =>
    obtain ⟨r, ho, he, hq⟩ := hi.request_of_mapped hm
    have hafter := MessageRemapper.lookupBackend_unmap hm ⟨c⟩
    simp only [renames, hk, if_true, hb, Option.bind_some, ho, he, hq, true_and,
      Option.some.injEq]
    refine (congrArg (Option.map BackendSeq.raw) hafter).trans ?_
    split_ifs with hc hn hn
    · rfl
    · exact absurd (congrArg ClientSeq.raw hc).symm hn
    · exact absurd (congrArg ClientSeq.mk hn).symm hc
    · rfl
  | secondary hk hb hm hp hl => rw [hother hb hm]; rfl
  | unmatched hk hb hm hp => rw [hother hb hm]; rfl
  | dropRecv id => rfl
  | dropEvents id => rfl
  | dropUpstream => rfl

/-- **The forward table has what the number stands for.** -/
theorem lookupBackend_eq_standing {done : List Input} {u : SessionLoop × History}
    (hrun : run watched begin done = (u, .ok ())) (c : ℤ) :
    (u.1.remapper.lookupBackend ⟨c⟩).map BackendSeq.raw = standing done c :=
  run_register (I := fun u => Inv u.1 u.2)
    (g := fun u : SessionLoop × History => (u.1.remapper.lookupBackend ⟨c⟩).map BackendSeq.raw)
    (fun _ _ _ hi hstep => inv_watched hi hstep)
    (fun _ _ _ hi hstep => lookupBackend_step c hi (watched_ok hstep).1) inv_begin hrun

/-! ### The id of the written request -/

/-- What the remapper makes of the number a client wants cancelled. -/
def translated (s : SessionLoop) (role : ClientRole) (message : Value) (c : ℤ) :
    Option BackendSeq :=
  if isEditor role ∧ (seq message).isSome then s.remapper.lookupBackend ⟨c⟩ else none

lemma cancelRequestId_setSeq (v : Value) (n : ℤ) :
    cancelRequestId (setSeq v n) = cancelRequestId v := by
  rw [cancelRequestId, cancelRequestId, command_setSeq, get_setSeq_of_ne (by decide)]

lemma cancelRequestId_set {v : Value} {c : ℤ} (hc : cancelRequestId v = some c) (n : ℤ) :
    cancelRequestId (setCancelRequestId v n).1 = some n := by
  have hcmd : command v = some "cancel" := by
    by_contra hne
    simp [cancelRequestId, hne] at hc
  have hcmd' : command (setCancelRequestId v n).1 = some "cancel" := by
    rw [command, get_setCancelRequestId_of_ne (by decide)]
    exact hcmd
  cases ha : (v.get "arguments").bind Value.asObject with
  | none => simp [cancelRequestId, hcmd, ha] at hc
  | some args =>
    obtain ⟨w, hw, -⟩ := Option.bind_eq_some_iff.mp ha
    have hset : (setCancelRequestId v n).1 =
        v.set "arguments" (.object (insertField "requestId" (.int n) args)) := by
      simp [setCancelRequestId, hcmd, ha]
    rw [cancelRequestId, hcmd', hset, Value.get_set_self (Value.isObject_of_get hw)]
    simp [Value.asObject, lookup_insertField, Value.asI64]

lemma cancelRequestId_translateCancel {c : ℤ} (hc : cancelRequestId message = some c)
    (r : MessageRemapper) :
    cancelRequestId (translateCancel message r).1 =
      some ((r.lookupBackend ⟨c⟩).elim c BackendSeq.raw) := by
  simp only [translateCancel, hc]
  cases r.lookupBackend ⟨c⟩ with
  | none => exact hc
  | some b => exact cancelRequestId_set hc b.raw

lemma cancelRequestId_assignSeq (s : SessionLoop) (id : Id) (role : ClientRole) {c : ℤ}
    (hc : cancelRequestId message = some c) :
    cancelRequestId (s.assignSeq id role message).2 =
      some ((translated s role message c).elim c BackendSeq.raw) := by
  by_cases he : isEditor role
  · cases hq : seq message with
    | none =>
      rw [assignSeq_verbatim he hq, hc]
      simp [translated, hq]
    | some n =>
      rw [assignSeq_editor he hq, cancelRequestId_setSeq, cancelRequestId_translateCancel hc]
      simp [translated, he, hq]
  · rw [assignSeq_secondary he, cancelRequestId_setSeq, hc]
    simp [translated, he]

lemma cancelRequestId_assignSeq_none (s : SessionLoop) (id : Id) (role : ClientRole)
    (hc : cancelRequestId message = none) :
    cancelRequestId (s.assignSeq id role message).2 = none := by
  by_cases he : isEditor role
  · cases hq : seq message with
    | none => rwa [assignSeq_verbatim he hq]
    | some n =>
      rw [assignSeq_editor he hq, cancelRequestId_setSeq]
      simp only [translateCancel, hc]
  · rwa [assignSeq_secondary he, cancelRequestId_setSeq]

/-! ### One step -/

/-- What a step writes upstream: a forwarded request, or nothing. -/
lemma written_clientSend (s : SessionLoop) (id : Id) (message w : Value) :
    written s (s.step (.op (.clientSend id message))).1 = some w ↔
      ∃ state, s.clients.lookup id = some state ∧ messageKind message = .request ∧
        ¬ AnsweredLocally state.role message ∧ s.toUpstream.alive ∧
        w = (s.assignSeq id state.role message).2 := by
  simp only [step, handleOp]
  cases hs : s.clients.lookup id with
  | none => simp [handleClientMessage_detached hs, written_of_same]
  | some state =>
    simp only [Option.some.injEq, exists_eq_left']
    by_cases hk : messageKind message = .request
    · by_cases ha : AnsweredLocally state.role message
      · have hnone : written s (s.handleClientMessage id message).1 = none := by
          refine written_of_same ?_
          by_cases hl : s.Listening id
          · rw [handleClientMessage_answered hs hk ha hl]
            rfl
          · rw [handleClientMessage_unheard hs hk ha hl]
        simp [hnone, ha]
      · rw [handleClientMessage_forwarded hs hk ha]
        split_ifs with hu
        · rw [written_forwarded, Option.some.injEq]
          simp only [hk, ha, hu, not_false_eq_true, true_and]
          exact eq_comm
        · simp [written_of_same, assignSeq_toUpstream, hu]
    · simp [handleClientMessage_ignored hs hk, written_of_same, hk]

lemma isolated_iff_of_written (hi : Inv s h) {done : List Input} {state : ClientState} {c : ℤ}
    (hstands : (s.remapper.lookupBackend ⟨c⟩).map BackendSeq.raw = standing done c)
    (hc : cancelRequestId message = some c) :
    ((∀ n r, cancelRequestId (s.assignSeq id state.role message).2 = some n →
        (n, r) ∈ h.requests.issued → r.client = id) ∧
      ∀ c b r, cancelRequestId message = some c → h.requests.outstanding.lookup b = some r →
        r.client = id → seq r.message = some c →
        cancelRequestId (s.assignSeq id state.role message).2 = some b) ↔
      match (if isEditor state.role ∧ (seq message).isSome then standing done c else none) with
      | some b => (∀ r, h.requests.outstanding.lookup b = some r → r.client = id) ∧
          ∀ b' r, h.requests.outstanding.lookup b' = some r → r.client = id →
            seq r.message = some c → b' = b
      | none => (∀ r, (c, r) ∈ h.requests.issued → r.client = id) ∧
          ∀ b r, h.requests.outstanding.lookup b = some r → r.client = id →
            seq r.message = some c → b = c := by
  have hnumber : (if isEditor state.role ∧ (seq message).isSome then standing done c else none) =
      (translated s state.role message c).map BackendSeq.raw := by
    rw [translated, ← hstands]
    split_ifs <;> rfl
  rw [cancelRequestId_assignSeq s id state.role hc, hnumber]
  -- either the id goes as it is, or as the number it stands for
  cases htr : translated s state.role message c with
  | none =>
    constructor
    · rintro ⟨h1, h2⟩
      refine ⟨fun r hr => h1 c r rfl hr, fun b r ho hcl hq => ?_⟩
      exact (Option.some.inj (h2 c b r hc ho hcl hq)).symm
    · rintro ⟨h1, h2⟩
      refine ⟨?_, ?_⟩
      · intro n r hn hr
        obtain rfl := Option.some.inj hn
        exact h1 r hr
      · intro c' b r hc' ho hcl hq
        obtain rfl := Option.some.inj (hc.symm.trans hc')
        exact congrArg some (h2 b r ho hcl hq).symm
  | some backend =>
    have hb : s.remapper.lookupBackend ⟨c⟩ = some backend := by
      unfold translated at htr
      split_ifs at htr
      exact htr
    obtain ⟨r₀, ho₀, -⟩ := hi.mapped_request hb
    have hmem := hi.fresh.mem_issued _ _ ho₀
    constructor
    · rintro ⟨h1, h2⟩
      refine ⟨fun r hr => h1 _ r rfl (hi.fresh.mem_issued _ _ hr), fun b r ho hcl hq => ?_⟩
      exact (Option.some.inj (h2 c b r hc ho hcl hq)).symm
    · rintro ⟨h1, h2⟩
      refine ⟨?_, ?_⟩
      · intro n r hn hr
        obtain rfl := Option.some.inj hn
        obtain rfl := hi.fresh.unique hmem hr
        exact h1 r₀ ho₀
      · intro c' b r hc' ho hcl hq
        obtain rfl := Option.some.inj (hc.symm.trans hc')
        exact congrArg some (h2 b r ho hcl hq).symm

lemma cancelIsolated_iff (hi : Inv s h) {done : List Input}
    (hstands : ∀ c, (s.remapper.lookupBackend ⟨c⟩).map BackendSeq.raw = standing done c)
    (i : Input) : CancelIsolated s h (s.step i).1 i ↔ CancelSafe done s h i := by
  match i with
  | .upstream _ _ => exact Iff.rfl
  | .op (.attach _) => exact Iff.rfl
  | .op (.detach _) => exact Iff.rfl
  | .dropRecv _ => exact Iff.rfl
  | .dropEvents _ => exact Iff.rfl
  | .dropUpstream => exact Iff.rfl
  | .op (.clientSend id message) =>
    simp only [CancelIsolated, CancelSafe, written_clientSend]
    constructor
    · intro hall state c hs hk hu hc
      -- a `cancel` is not the command the loop answers itself
      have ha : ¬ AnsweredLocally state.role message := by
        rintro ⟨-, hcmd⟩
        simp [cancelRequestId, hcmd, breakpointSnapshotCommand] at hc
      exact (isolated_iff_of_written hi (hstands c) hc).mp (hall _ ⟨state, hs, hk, ha, hu, rfl⟩)
    · rintro hsafe w ⟨state, hs, hk, -, hu, rfl⟩
      cases hc : cancelRequestId message with
      | some c =>
        have hwritten := hsafe state c hs hk hu hc
        simpa only [hc] using (isolated_iff_of_written hi (hstands c) hc).mpr hwritten
      | none =>
        simp [cancelRequestId_assignSeq_none s id state.role hc]

/-! ### Runs -/

/-- No step of the run sends a `cancel` upstream with an id that means another request. -/
def Isolates (inputs : List Input) : Prop :=
  ∀ v ∈ visits watched begin inputs, CancelIsolated v.1.1 v.1.2 (v.1.1.step v.2).1 v.2

/-- **Cancels are isolated exactly in the runs where each names the right request**: an editor's by
the number under which the request was sent last, everyone else's by the number upstream. -/
theorem isolates_iff (inputs : List Input) :
    Isolates inputs ↔ ∀ done i rest u, inputs = done ++ i :: rest →
      run watched begin done = (u, .ok ()) → CancelSafe done u.1 u.2 i := by
  constructor
  · intro hall done i rest u hinputs hrun
    have hv := hall (u, i) (mem_visits_iff.mpr ⟨done, rest, hinputs, hrun⟩)
    exact (cancelIsolated_iff (inv_run hrun) (lookupBackend_eq_standing hrun) i).mp hv
  · intro hall v hv
    obtain ⟨done, rest, hinputs, hrun⟩ := mem_visits_iff.mp hv
    exact (cancelIsolated_iff (inv_run hrun) (lookupBackend_eq_standing hrun) v.2).mpr
      (hall done v.2 rest v.1 hinputs hrun)

/-- A control client cancels its own request, which has the number of the editor's upstream. -/
def controlCancel : List Input :=
  [.op (.attach .editor), .op (.attach .control),
    .op (.clientSend ⟨1⟩ (request 1 "threads" none)),
    .op (.clientSend ⟨2⟩ (request 1 "threads" none)),
    .op (.clientSend ⟨2⟩ (request 2 "cancel" (some (.obj [("requestId", .int 1)]))))]

theorem control_cancels_for_the_editor : ¬ Isolates controlCancel := by
  intro hall
  have hv := hall ((run watched begin (controlCancel.take 4)).1,
      .op (.clientSend ⟨2⟩ (request 2 "cancel" (some (.obj [("requestId", .int 1)])))))
    (mem_visits_iff.mpr ⟨controlCancel.take 4, [], rfl, rfl⟩)
  have hclient := (hv _ rfl).1 1 ⟨⟨1⟩, .editor, request 1 "threads" none, 0⟩ rfl (.head _)
  exact absurd (congrArg Id.raw hclient) (by decide)

end DappyCore.CancelIsolation
