import DappyCore.Lib.Selection
import DappyCore.MuxBridge

/-!
The adapter's requests and the answers to them. Only the loop that reads the adapter ever writes
a response to it, and it has one for two commands; the multiplexer drops every other request.
-/

namespace DappyCore.MuxBridge

open Lib Lib.Machine Json MuxMessage Protocol Transport Session SessionLoop ChildSession
  ReverseRequest
open scoped List

/-- The request that a message answers. -/
def answered : Message → Option ℤ
  | .response response => some response.requestSeq
  | _ => none

/-- The requests that the messages written to the adapter answer. -/
def answers (messages : List Message) : List ℤ := messages.filterMap answered

/-- The request that the adapter makes. -/
def asked : Input → Option ℤ
  | .adapter (.request request) _ _ _ => some request.seq
  | _ => none

/-- The steps of a run. -/
abbrev steps (setup : Setup) (inputs : List Input) : List (Bridge × Input) :=
  visits (machine setup) start inputs

/-- What has been written to the adapter at the end of a run. -/
def writtenTo (setup : Setup) (inputs : List Input) : List Message :=
  (run (machine setup) start inputs).1.toAdapter

/-- Each request of the adapter is answered once, and a message that is no request is not
answered. -/
structure EveryRequestAnswered (setup : Setup) (inputs : List Input) : Prop where
  once : answers (writtenTo setup inputs) ~ inputs.filterMap asked
  only : ∀ v ∈ steps setup inputs, asked v.2 = none →
    answers (step setup v.1 v.2).toAdapter = answers v.1.toAdapter

/-- The commands that the proxy handles. -/
def Handled (command : String) : Prop := command = "startDebugging" ∨ command = "runInTerminal"

instance : DecidablePred Handled := fun command =>
  inferInstanceAs (Decidable (command = "startDebugging" ∨ command = "runInTerminal"))

/-- Each request comes while the adapter is being read, has one of the two commands, and its
answer can be written. -/
def EveryRequestHandled (setup : Setup) (inputs : List Input) : Prop :=
  ∀ v ∈ steps setup inputs, ∀ request terminal spawner write,
    v.2 = .adapter (.request request) terminal spawner write →
      v.1.reading ∧ Handled request.command ∧ write = .ok ()

/-! ### Answers -/

variable {setup : Setup} {b : Bridge} {request : Request} {terminal : Terminal}
  {spawner : ChildSessionSpawner} {n : ℕ} {message : Message}

lemma answered_handleStartDebugging (toText : Value → String) (request : Request)
    (config : ChildSessionConfig) (remainingDepth : ℕ) (parent : ParentSessionContext)
    (spawner : ChildSessionSpawner) (activeChildren : ℕ) :
    answered (handleStartDebugging toText request config remainingDepth parent spawner
      activeChildren).1 = some request.seq := by
  unfold handleStartDebugging
  split
  · rfl
  · split
    · rfl
    · split <;> rfl

lemma answered_handleRunInTerminal (terminal : Terminal) (request : Request) :
    answered (handleRunInTerminal terminal request) = some request.seq := by
  unfold handleRunInTerminal
  split
  · rfl
  · dsimp only
    split <;> rfl

/-- **The two commands** have an answer, which is to the request. -/
theorem handleReverseRequest_request (terminal : Terminal) (request : Request) :
    (Handled request.command ∧ ∃ m, handleReverseRequest terminal (.request request) = some m ∧
        answered m = some request.seq) ∨
      (¬ Handled request.command ∧ handleReverseRequest terminal (.request request) = none) := by
  unfold handleReverseRequest Handled
  by_cases hs : request.command = "startDebugging"
  · exact .inl ⟨.inl hs, declineReverseRequest request, by simp only [hs], rfl⟩
  · by_cases hr : request.command = "runInTerminal"
    · exact .inl ⟨.inr hr, _, by simp only [hr], answered_handleRunInTerminal terminal request⟩
    · refine .inr ⟨by tauto, ?_⟩
      dsimp only
      split
      · contradiction
      · contradiction
      · rfl

theorem answer_request (setup : Setup) (terminal : Terminal) (spawner : ChildSessionSpawner)
    (n : ℕ) (request : Request) :
    (Handled request.command ∧ ∃ m n', answer setup terminal spawner n (.request request) =
        some (m, n') ∧ answered m = some request.seq) ∨
      (¬ Handled request.command ∧ answer setup terminal spawner n (.request request) = none) := by
  have hreverse := handleReverseRequest_request terminal request
  unfold answer
  cases setup.child with
  | none =>
    rcases hreverse with ⟨hh, m, hm, ha⟩ | ⟨hh, hm⟩
    · exact .inl ⟨hh, m, n, by simp [hm], ha⟩
    · exact .inr ⟨hh, by simp [hm]⟩
  | some child =>
    by_cases hs : request.command = "startDebugging"
    · exact .inl ⟨.inl hs, _, _, if_pos hs, answered_handleStartDebugging ..⟩
    · rcases hreverse with ⟨hh, m, hm, ha⟩ | ⟨hh, hm⟩
      · exact .inl ⟨hh, m, n, by simp [hs, hm], ha⟩
      · exact .inr ⟨hh, by simp [hs, hm]⟩

/-- Nothing else has one. -/
lemma answer_of_not_request (h : ∀ request, message ≠ .request request) :
    answer setup terminal spawner n message = none := by
  have hreverse : handleReverseRequest terminal message = none := by
    cases message with
    | request request => exact absurd rfl (h request)
    | _ => rfl
  unfold answer
  cases setup.child with
  | none => simp [hreverse]
  | some child =>
    cases message with
    | request request => exact absurd rfl (h request)
    | _ => simp [hreverse]

/-! ### What the multiplexer forwards -/

/-- The multiplexer has put only requests on its upstream channel. -/
def OnlyRequests (s : SessionLoop) : Prop := ∀ v ∈ s.toUpstream.sent, messageKind v = .request

lemma kind_assigned {s : SessionLoop} {id : Id} {role : ClientRole} {message : Value}
    (hk : messageKind message = .request) :
    messageKind (s.assignSeq id role message).2 = .request := by
  by_cases he : isEditor role
  · cases hc : seq message with
    | none => rw [Observer.assignSeq_verbatim he hc]; exact hk
    | some c =>
      rw [Observer.assignSeq_editor he hc, messageKind, get_setSeq_of_ne (by decide),
        Remapper.get_translateCancel_of_ne (by decide)]
      exact hk
  · rw [Observer.assignSeq_secondary he, messageKind, get_setSeq_of_ne (by decide)]
    exact hk

lemma OnlyRequests.handleClientMessage {s : SessionLoop} (h : OnlyRequests s) (id : Id)
    (message : Value) : OnlyRequests (s.handleClientMessage id message).1 := by
  rcases handleClientMessage_cases s id message with hleft | ⟨hk, role, hleft⟩
  · simp only [List.mem_cons, List.not_mem_nil, or_false] at hleft
    rcases hleft with hleft | hleft | hleft <;> rw [hleft] <;> exact h
  · simp only [List.mem_cons, List.not_mem_nil, or_false] at hleft
    rcases hleft with hleft | hleft
    · intro v hv
      rw [hleft] at hv
      rcases List.mem_append.mp hv with hv | hv
      · exact h v hv
      · rw [List.mem_singleton.mp hv]
        exact kind_assigned hk
    · intro v hv
      rw [hleft, assignSeq_toUpstream] at hv
      exact h v hv

lemma OnlyRequests.step {s : SessionLoop} (h : OnlyRequests s) (i : Session.Input) :
    OnlyRequests (s.step i).1 := by
  match i with
  | .upstream message order =>
    have hf := (handleUpstreamMessage_frame s message order).1
    intro v hv
    simp only [SessionLoop.step, hf] at hv
    exact h v hv
  | .op (.attach role) =>
    simp only [SessionLoop.step, handleOp, attach_eq]
    exact h
  | .op (.clientSend id message) => exact h.handleClientMessage id message
  | .op (.detach id) => exact h
  | .dropRecv id => exact h
  | .dropEvents id => exact h
  | .dropUpstream => exact h

/-- A forwarded message is a request, and stays one. -/
lemma answered_forwarded {v : Value} (hk : messageKind v = .request) {m : Message}
    (hm : Message.ofValue v = some m) (defaults : Value) :
    answered m = none ∧ answered (mergeDebugRequestArguments m defaults) = none := by
  have ht : (v.get "type").bind Value.asStr = some "request" := by
    unfold messageKind at hk
    split at hk <;> simp_all
  simp only [Message.ofValue, ht, Option.bind_eq_bind, Option.bind_eq_some_iff,
    Option.pure_def, Option.some.injEq] at hm
  obtain ⟨_, -, _, -, rfl⟩ := hm
  refine ⟨rfl, ?_⟩
  simp only [mergeDebugRequestArguments]
  split_ifs <;> rfl

/-! ### Steps -/

/-- The requests that a step answers. -/
def answeredBy (b : Bridge) : Input → List ℤ
  | .adapter (.request request) _ _ (.ok ()) =>
    if b.reading ∧ Handled request.command then [request.seq] else []
  | _ => []

lemma answers_append (l l' : List Message) : answers (l ++ l') = answers l ++ answers l' :=
  List.filterMap_append

lemma answers_concat {m : Message} (l : List Message) (h : answered m = none) :
    answers (l ++ [m]) = answers l := by
  rw [answers_append, answers, answers, List.filterMap_cons_none h]
  simp

lemma toAdapter_serve (b : Bridge) (i : Session.Input) : (serve b i).toAdapter = b.toAdapter := by
  unfold serve
  split <;> rfl

lemma session_serve (b : Bridge) (i : Session.Input) :
    (serve b i).session = (b.session.step i).1 := by
  unfold serve
  split <;> next h => rw [h]

lemma answers_disconnect (b : Bridge) (write : Write) :
    answers (requestAdapterDisconnect b write).toAdapter = answers b.toAdapter := by
  unfold requestAdapterDisconnect
  cases write with
  | ok u => exact answers_concat _ rfl
  | error e => rfl

lemma answers_forward (h : OnlyRequests b.session) (write : Write) :
    answers (forward setup b write).toAdapter = answers b.toAdapter := by
  unfold forward
  cases hv : b.session.toUpstream.sent[b.forwarded]? with
  | none =>
    dsimp only
    split_ifs
    · rfl
    · exact answers_disconnect b write
  | some v =>
    have hk := h v (List.mem_of_getElem? hv)
    dsimp only
    split
    · next m hm =>
      refine answers_concat _ ?_
      cases setup.attachDefaults with
      | none => exact (answered_forwarded hk hm .null).1
      | some defaults => exact (answered_forwarded hk hm defaults).2
    · rfl

lemma answers_read (setup : Setup) (b : Bridge) (message : Message) (terminal : Terminal)
    (spawner : ChildSessionSpawner) (write : Write) (hr : b.reading) :
    answers (read setup b message terminal spawner write).toAdapter =
      answers b.toAdapter ++ answeredBy b (.adapter message terminal spawner write) := by
  have hpassed : answer setup terminal spawner b.activeChildren message = none →
      answers (read setup b message terminal spawner write).toAdapter = answers b.toAdapter := by
    intro ha
    simp only [read, ha]
    split_ifs <;> rfl
  cases message with
  | request request =>
    rcases answer_request setup terminal spawner b.activeChildren request with
      ⟨hh, m, n, ha, hm⟩ | ⟨hh, ha⟩
    · cases write with
      | ok u =>
        simp only [read, ha, answeredBy]
        rw [if_pos ⟨hr, hh⟩, answers_append]
        simp [answers, hm]
      | error e => simp [read, ha, answeredBy]
    · rw [hpassed ha]
      cases write with
      | ok u => simp [answeredBy, hh]
      | error e => simp [answeredBy]
  | response response =>
    rw [hpassed (answer_of_not_request nofun)]
    exact (List.append_nil _).symm
  | event event =>
    rw [hpassed (answer_of_not_request nofun)]
    exact (List.append_nil _).symm

/-- **What a step answers.** -/
theorem answers_step (h : OnlyRequests b.session) (i : Input) :
    answers (step setup b i).toAdapter = answers b.toAdapter ++ answeredBy b i := by
  match i with
  | .adapter message terminal spawner write =>
    by_cases hr : b.reading
    · rw [step, if_pos hr]
      exact answers_read setup b message terminal spawner write hr
    · rw [step, if_neg hr]
      -- what is not read is not answered
      have hnone : answeredBy b (.adapter message terminal spawner write) = [] := by
        unfold answeredBy
        split <;> simp [hr]
      rw [hnone, List.append_nil]
  | .serve order =>
    simp only [step, answeredBy, List.append_nil]
    split
    · rw [toAdapter_serve]
    · rfl
  | .client op =>
    simp only [step, answeredBy, List.append_nil]
    split_ifs
    · rw [toAdapter_serve]
    · rfl
  | .dropRecv id => simp only [step, answeredBy, List.append_nil, toAdapter_serve]
  | .dropEvents id => simp only [step, answeredBy, List.append_nil, toAdapter_serve]
  | .forward write =>
    simp only [step, answeredBy, List.append_nil]
    split_ifs
    · exact answers_forward h write
    · rfl
  | .shutdown write =>
    simp only [step, answeredBy, List.append_nil]
    split_ifs
    · exact answers_disconnect b write
    · rfl
  | .muxEnds => exact (List.append_nil _).symm

lemma OnlyRequests.serve (h : OnlyRequests b.session) (i : Session.Input) :
    OnlyRequests (serve b i).session := by
  rw [session_serve]
  exact h.step i

lemma OnlyRequests.stopForwarding (h : OnlyRequests b.session) :
    OnlyRequests (stopForwarding b).session := h

lemma OnlyRequests.disconnect (h : OnlyRequests b.session) (write : Write) :
    OnlyRequests (requestAdapterDisconnect b write).session := by
  unfold requestAdapterDisconnect
  split <;> exact h

lemma OnlyRequests.forward (h : OnlyRequests b.session) (write : Write) :
    OnlyRequests (forward setup b write).session := by
  unfold MuxBridge.forward
  split
  · dsimp only
    split
    · exact h
    · exact OnlyRequests.stopForwarding (b := { b with forwarded := b.forwarded + 1 }) h
  · split_ifs
    · exact h
    · exact (h.disconnect write).stopForwarding

/-- Reading the adapter does not touch the multiplexer. -/
lemma session_read (setup : Setup) (b : Bridge) (message : Message) (terminal : Terminal)
    (spawner : ChildSessionSpawner) (write : Write) :
    (read setup b message terminal spawner write).session = b.session := by
  unfold read
  split
  · cases write <;> rfl
  · dsimp only
    split_ifs <;> rfl

lemma onlyRequests_step (h : OnlyRequests b.session) (i : Input) :
    OnlyRequests (step setup b i).session := by
  match i with
  | .adapter message terminal spawner write =>
    simp only [step]
    split_ifs
    · rw [session_read]
      exact h
    · exact h
  | .serve order =>
    simp only [step]
    split
    · next rest _ _ => exact OnlyRequests.serve (b := { b with toMux := rest }) h _
    · exact h
  | .client op =>
    simp only [step]
    split_ifs
    · exact h.serve _
    · exact h
  | .dropRecv id => exact h.serve _
  | .dropEvents id => exact h.serve _
  | .forward write =>
    simp only [step]
    split_ifs
    · exact h.forward write
    · exact h
  | .shutdown write =>
    simp only [step]
    split_ifs
    · exact (h.disconnect write).stopForwarding
    · exact h
  | .muxEnds => exact h

/-! ### Runs -/

lemma onlyRequests_start : OnlyRequests start.session := nofun

lemma onlyRequests_steps {inputs : List Input} {v : Bridge × Input}
    (hv : v ∈ steps setup inputs) : OnlyRequests v.1.session := by
  refine (visits_inv (I := fun b => OnlyRequests b.session)
    (P := fun _ => True) (fun b i t _ hb ht => ?_) onlyRequests_start (fun _ _ => trivial) v hv).1
  have hs : step setup b i = t := congrArg Prod.fst ht
  exact hs ▸ onlyRequests_step hb i

/-- **What a run answers** is what its steps answer. -/
theorem answers_run (setup : Setup) (inputs : List Input) :
    answers (writtenTo setup inputs) =
      (steps setup inputs).flatMap fun v => answeredBy v.1 v.2 := by
  have h := run_appends (machine setup) (I := fun b => OnlyRequests b.session)
    (fun b i hb => onlyRequests_step hb i) (fun b => answers b.toAdapter) answeredBy
    (fun b i hb => answers_step hb i) onlyRequests_start inputs
  exact h

lemma asked_run (setup : Setup) (inputs : List Input) :
    inputs.filterMap asked = (steps setup inputs).flatMap fun v => (asked v.2).toList := by
  have h := visits_map_snd (machine setup) (fun _ _ => rfl) start inputs
  conv_lhs => rw [← h]
  rw [List.filterMap_map, List.filterMap_eq_flatMap_toList]
  rfl

lemma length_answeredBy_le (b : Bridge) (i : Input) :
    (answeredBy b i).length ≤ (asked i).toList.length := by
  unfold answeredBy
  split
  · split_ifs <;> simp [asked]
  · exact Nat.zero_le _

/-- **Every reverse request is answered** exactly when each comes while the adapter is read, has
one of the two commands, and its answer can be written. -/
theorem every_request_answered_iff (setup : Setup) (inputs : List Input) :
    EveryRequestAnswered setup inputs ↔ EveryRequestHandled setup inputs := by
  constructor
  · intro h v hv request terminal spawner write hi
    have hlen := h.once.length_eq
    rw [answers_run, asked_run setup] at hlen
    -- one answer for each request in all means one for each by itself
    have hone := Selection.length_eq_of_flatMap (fun v _ => length_answeredBy_le v.1 v.2) hlen v hv
    rw [hi] at hone
    simp only [asked, Option.toList_some, List.length_singleton] at hone
    unfold answeredBy at hone
    split at hone
    · next he =>
      obtain ⟨hm, -, -, hw⟩ := Input.adapter.inj he
      obtain rfl := Message.request.inj hm
      split_ifs at hone with hc
      · exact ⟨hc.1, hc.2, hw⟩
    · simp at hone
  · intro h
    refine ⟨?_, fun v hv hnone => ?_⟩
    · rw [answers_run, asked_run setup]
      have heq : ∀ v ∈ steps setup inputs, answeredBy v.1 v.2 = (asked v.2).toList := by
        rintro ⟨b, i⟩ hv
        match i with
        | .adapter (.request request) terminal spawner write =>
          obtain ⟨hr, hh, rfl⟩ := h _ hv request terminal spawner write rfl
          simp only [answeredBy]
          rw [if_pos ⟨hr, hh⟩]
          rfl
        | .adapter (.response _) _ _ _ | .adapter (.event _) _ _ _ | .serve _ | .client _
        | .dropRecv _ | .dropEvents _ | .forward _ | .shutdown _ | .muxEnds => rfl
      rw [List.flatMap_congr heq]
    · -- a step that is no request answers nothing
      have hle := length_answeredBy_le v.1 v.2
      rw [hnone] at hle
      have hnil := List.eq_nil_of_length_eq_zero (Nat.le_zero.mp hle)
      rw [answers_step (onlyRequests_steps hv), hnil, List.append_nil]

/-- A proxy without child sessions, and an adapter that asks for something else. -/
def plainSetup : Setup := ⟨none, false, none, fun _ => ""⟩

def customRequest : List Input :=
  [.adapter (.request ⟨1, "runInEditor", none⟩) ⟨"/tmp", fun _ _ => .error (.spawn, "")⟩
    (fun _ => .error "") (.ok ()), .serve HashMap.Order.listed]

theorem custom_request_is_not_answered : ¬ EveryRequestAnswered plainSetup customRequest := by
  intro h
  exact absurd h.once.length_eq (by decide)

end DappyCore.MuxBridge
