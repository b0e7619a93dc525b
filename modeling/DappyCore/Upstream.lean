import DappyCore.CancelIsolation
import DappyCore.Queues

/-!
What the adapter is asked, over a whole run: the clients' requests, each once and in the order in
which the loop took them, under numbers that count them; and what the two pending tables hold of
them, which is what has not been answered.
-/

namespace DappyCore.Upstream

open Lib Lib.Machine Json MuxMessage Remapper Session SessionLoop Observer
open CancelIsolation (cancelRequestId_setSeq cancelRequestId_translateCancel)
open scoped List

/-- A request that the loop passes on: the role of the client that sends it, and what the remapper
knows then. -/
structure Ask where
  role : ClientRole
  message : Value
  remapper : MessageRemapper

def asks (v : SessionLoop × Input) : Option Ask :=
  match v.2 with
  | .op (.clientSend id message) =>
    (v.1.clients.lookup id).bind fun state =>
      if messageKind message = .request ∧ ¬ AnsweredLocally state.role message ∧
          v.1.toUpstream.alive then
        some ⟨state.role, message, v.1.remapper⟩
      else none
  | .op (.attach _) | .op (.detach _) | .upstream _ _ | .dropRecv _ | .dropEvents _
  | .dropUpstream => none

/-- A request that gets a number of the loop's: any but an editor's that has none of its own. -/
def numbered (ask : Ask) : Bool := !isEditor ask.role || (seq ask.message).isSome

/-- The number that an editor's `cancel` is to name instead of its own, where there is one. -/
def Ask.translated (ask : Ask) : Option ℤ :=
  if isEditor ask.role then
    (cancelRequestId ask.message).bind fun c => (ask.remapper.lookupBackend ⟨c⟩).map (·.raw)
  else none

/-- The same request, but for its number, and for the request that a translated `cancel` names. -/
structure SameRequest (ask : Ask) (sent : Value) : Prop where
  fields : ∀ key, key ≠ "seq" → key ≠ "arguments" → sent.get key = ask.message.get key
  arguments : ask.translated = none → sent.get "arguments" = ask.message.get "arguments"
  besides : ∀ key, key ≠ "requestId" →
    (sent.get "arguments").bind (·.get key) = (ask.message.get "arguments").bind (·.get key)
  cancelled : ∀ b, ask.translated = some b → cancelRequestId sent = some b

/-- A request as it is written with `n` as the number, if it gets one. -/
def Carried (n : ℕ) (ask : Ask) (sent : Value) : Prop :=
  if numbered ask then seq sent = some (n : ℤ) ∧ SameRequest ask sent else sent = ask.message

/-- One message for each request, numbered in turn. -/
structure Carries (asked : List Ask) (sent : List Value) : Prop where
  length : sent.length = asked.length
  carried : ∀ i ask v, asked[i]? = some ask → sent[i]? = some v →
    Carried ((asked.take (i + 1)).countP numbered) ask v

variable {s t : SessionLoop} {asked : List Ask} {sent : List Value}

/-! ### A request on its way -/

lemma get_setCancelRequestId (v : Value) (n : ℤ) {key : String} (hkey : key ≠ "requestId") :
    ((setCancelRequestId v n).1.get "arguments").bind (·.get key) =
      (v.get "arguments").bind (·.get key) := by
  unfold setCancelRequestId
  split
  · rfl
  · split
    · rfl
    · next args hargs =>
      obtain ⟨w, hw, hfields⟩ := Option.bind_eq_some_iff.mp hargs
      have hobject : v.IsObject := Value.isObject_of_get hw
      cases w with
      | object fields =>
        obtain rfl : fields = args := Option.some.inj hfields
        rw [Value.get_set_self hobject, hw]
        simp [Value.get, lookup_insertField, Ne.symm hkey]
      | _ => cases hfields

/-- Where there is nothing to translate, an editor's request is left as it is. -/
lemma translateCancel_other {message : Value} {r : MessageRemapper} {role : ClientRole}
    (he : isEditor role) (h : Ask.translated ⟨role, message, r⟩ = none) :
    (translateCancel message r).1 = message := by
  rw [Ask.translated, if_pos he, Option.bind_eq_none_iff] at h
  unfold translateCancel
  cases hc : cancelRequestId message with
  | none => rfl
  | some c =>
    have hnone : r.lookupBackend ⟨c⟩ = none := by simpa using h c hc
    simp only [hnone]

lemma sameRequest_editor {role : ClientRole} (he : isEditor role) (message : Value)
    (r : MessageRemapper) (n : ℤ) :
    SameRequest ⟨role, message, r⟩ (setSeq (translateCancel message r).1 n) where
  fields key hseq hargs := by
    rw [get_setSeq_of_ne hseq, get_translateCancel_of_ne hargs]
  arguments hnone := by
    rw [get_setSeq_of_ne (by decide), translateCancel_other he hnone]
  besides key hkey := by
    rw [get_setSeq_of_ne (by decide)]
    unfold translateCancel
    split
    · rfl
    · split
      · exact get_setCancelRequestId message _ hkey
      · rfl
  cancelled b hb := by
    rw [Ask.translated, if_pos he] at hb
    obtain ⟨c, hc, hb⟩ := Option.bind_eq_some_iff.mp hb
    obtain ⟨b, hmapped, rfl⟩ := Option.map_eq_some_iff.mp hb
    have hmapped : r.lookupBackend ⟨c⟩ = some b := hmapped
    rw [cancelRequestId_setSeq, cancelRequestId_translateCancel hc, hmapped]
    rfl

lemma sameRequest_secondary {role : ClientRole} (he : ¬ isEditor role) (message : Value)
    (r : MessageRemapper) (n : ℤ) : SameRequest ⟨role, message, r⟩ (setSeq message n) where
  fields key hseq _ := get_setSeq_of_ne hseq message n
  arguments _ := get_setSeq_of_ne (by decide) message n
  besides key _ := by rw [get_setSeq_of_ne (by decide)]
  cancelled b hb := by
    rw [Ask.translated, if_neg he] at hb
    cases hb

/-- **The request that is passed on** takes the next number, if it takes one. -/
lemma carried_assigned {n : ℕ} (hn : s.backendSeq = n) (id : Id) (role : ClientRole)
    {message : Value} (hk : messageKind message = .request) :
    Carried (n + if numbered ⟨role, message, s.remapper⟩ then 1 else 0) ⟨role, message, s.remapper⟩
        (s.assignSeq id role message).2 ∧
      (s.assignSeq id role message).1.backendSeq =
        ((n + if numbered ⟨role, message, s.remapper⟩ then 1 else 0 : ℕ) : ℤ) := by
  have hseq := seq_assigned hk (s.backendSeq + 1) s.remapper
  by_cases he : isEditor role
  · cases hc : seq message with
    | none =>
      have hnot : numbered ⟨role, message, s.remapper⟩ = false := by simp [numbered, he, hc]
      rw [assignSeq_verbatim he hc]
      simp [Carried, hnot, hn]
    | some c =>
      have hnum : numbered ⟨role, message, s.remapper⟩ = true := by simp [numbered, hc]
      rw [assignSeq_editor he hc, Carried, if_pos hnum, if_pos hnum]
      refine ⟨⟨hseq.2.trans (by rw [hn]; rfl), sameRequest_editor he ..⟩, ?_⟩
      rw [hn]
      rfl
  · have hnum : numbered ⟨role, message, s.remapper⟩ = true := by simp [numbered, he]
    rw [assignSeq_secondary he, Carried, if_pos hnum, if_pos hnum]
    refine ⟨⟨hseq.1.trans (by rw [hn]; rfl), sameRequest_secondary he ..⟩, ?_⟩
    rw [hn]
    rfl

/-! ### Steps and runs -/

lemma carries_nil : Carries [] [] where
  length := rfl
  carried := by simp

lemma Carries.concat (h : Carries asked sent) {ask : Ask} {v : Value}
    (hv : Carried (asked.countP numbered + if numbered ask then 1 else 0) ask v) :
    Carries (asked ++ [ask]) (sent ++ [v]) where
  length := by simp [h.length]
  carried i ask' v' ha hs := by
    rcases Nat.lt_trichotomy i asked.length with hlt | heq | hgt
    · rw [List.getElem?_append_left hlt] at ha
      rw [List.getElem?_append_left (h.length ▸ hlt)] at hs
      rw [List.take_append_of_le_length (by omega)]
      exact h.carried i ask' v' ha hs
    · subst heq
      simp only [List.getElem?_concat_length, Option.some.injEq] at ha
      rw [← h.length, List.getElem?_concat_length, Option.some.injEq] at hs
      subst ha hs
      rw [List.take_of_length_le (by simp), List.countP_append, List.countP_singleton]
      exact hv
    · rw [List.getElem?_eq_none (by simp; omega)] at ha
      cases ha

lemma step_other {i : Input} (h : ∀ id message, i ≠ .op (.clientSend id message)) :
    asks (s, i) = none ∧ (s.step i).1.toUpstream.sent = s.toUpstream.sent ∧
      (s.step i).1.backendSeq = s.backendSeq := by
  match i with
  | .op (.clientSend id message) => exact absurd rfl (h id message)
  | .op (.attach role) =>
    simp only [SessionLoop.step, handleOp, attach_eq]
    exact ⟨rfl, rfl, rfl⟩
  | .upstream message order =>
    obtain ⟨hu, -, hb, -⟩ := handleUpstreamMessage_frame s message order
    exact ⟨rfl, congrArg Mpsc.sent hu, hb⟩
  | .op (.detach _) | .dropRecv _ | .dropEvents _ | .dropUpstream => exact ⟨rfl, rfl, rfl⟩

/-- **One step** passes on the request it takes, and counts it. -/
theorem carries_step (h : Carries asked s.toUpstream.sent)
    (hn : s.backendSeq = (asked.countP numbered : ℕ)) (i : Input) :
    Carries (asked ++ (asks (s, i)).toList) (s.step i).1.toUpstream.sent ∧
      ((s.step i).2 = .ok () →
        (s.step i).1.backendSeq = ((asked ++ (asks (s, i)).toList).countP numbered : ℕ)) := by
  by_cases hi : ∃ id message, i = .op (.clientSend id message)
  · obtain ⟨id, message, rfl⟩ := hi
    simp only [SessionLoop.step, handleOp, asks]
    cases hs : s.clients.lookup id with
    | none =>
      rw [handleClientMessage_detached hs]
      simpa using h
    | some state =>
      simp only [Option.bind_some]
      by_cases hk : messageKind message = .request
      · by_cases ha : AnsweredLocally state.role message
        · -- what the loop answers itself is not asked upstream
          rw [if_neg (by simp [ha])]
          by_cases hl : s.Listening id
          · rw [handleClientMessage_answered hs hk ha hl]
            simpa [answered, push] using ⟨h, hn⟩
          · rw [handleClientMessage_unheard hs hk ha hl]
            simpa using h
        · rw [handleClientMessage_forwarded hs hk ha]
          by_cases hu : s.toUpstream.alive = true
          · -- the request goes upstream under the next number
            rw [if_pos hu, if_pos ⟨hk, ha, hu⟩]
            obtain ⟨hv, hb⟩ := carried_assigned hn id state.role hk
            refine ⟨h.concat hv, fun _ => ?_⟩
            rw [Option.toList_some, List.countP_append, List.countP_singleton]
            exact hb
          · -- the channel is gone: the loop ends
            rw [if_neg hu, if_neg (by simp [hu])]
            simpa [assignSeq_toUpstream] using h
      · rw [handleClientMessage_ignored hs hk, if_neg (by simp [hk])]
        simpa using ⟨h, hn⟩
  · obtain ⟨hask, hsent, hb⟩ := step_other (s := s) fun id message he => hi ⟨id, message, he⟩
    rw [hask, hsent, hb]
    simpa using ⟨h, fun _ => hn⟩

lemma carries_run (h : Carries asked s.toUpstream.sent)
    (hn : s.backendSeq = (asked.countP numbered : ℕ)) (inputs : List Input) :
    Carries (asked ++ (visits step s inputs).filterMap asks)
      (run step s inputs).1.toUpstream.sent := by
  induction inputs generalizing s asked with
  | nil => simpa [visits] using h
  | cons i is ih =>
    obtain ⟨hc, hb⟩ := carries_step h hn i
    have hfirst : ∀ l, asked ++ ((s, i) :: l).filterMap asks =
        asked ++ (asks (s, i)).toList ++ l.filterMap asks := by
      intro l
      rw [List.filterMap_cons, List.append_assoc]
      cases asks (s, i) <;> rfl
    rcases step_ok_or_error step s i with ⟨t, ht⟩ | ⟨t, e, ht⟩
    · rw [ht] at hc hb
      rw [visits_cons_ok ht, run_cons_ok ht, hfirst]
      exact ih hc (hb rfl)
    · rw [ht] at hc
      rw [visits_cons_error ht, run_cons_error ht, hfirst, List.filterMap_nil, List.append_nil]
      exact hc

/-- **What the adapter is asked**: in every run, also one that ends in an error, the messages put
on the upstream channel are the clients' requests, one for one, in the order the loop took them,
each under its place in the count, and otherwise as the client sent it but for the request that
a translated `cancel` of an editor names. -/
theorem upstream_carries_requests (inputs : List Input) :
    Carries ((visits step start inputs).filterMap asks)
      (run step start inputs).1.toUpstream.sent := by
  have h := carries_run (s := start) carries_nil rfl inputs
  rwa [List.nil_append] at h

/-! ### What has not been answered -/

/-- The numbers that a response is awaited for: those in the remapper's reverse table, and those
in `secondaryPending`. -/
def awaited (s : SessionLoop) : List ℤ :=
  s.remapper.reverse.keys.map (·.raw) ++ s.secondaryPending.keys

/-- The tables hold the open requests, each once, with whom its response is for. -/
structure HoldsOpen (s : SessionLoop) (unanswered : HashMap ℤ Request) : Prop where
  awaited : awaited s ~ unanswered.keys
  editor : ∀ b c, s.remapper.lookupClient ⟨b⟩ = some c →
    ∃ r, unanswered.lookup b = some r ∧ isEditor r.role ∧ seq r.message = some c.raw
  secondary : ∀ b id c, s.secondaryPending.lookup b = some (id, c) →
    ∃ r, unanswered.lookup b = some r ∧ ¬ isEditor r.role ∧ r.client = id ∧
      (seq r.message).getD b = c
  forward : ∀ c b, s.remapper.lookupBackend c = some b → s.remapper.lookupClient b = some c

lemma isSome_lookup_iff {K V : Type} [DecidableEq K] {m : HashMap K V} {k : K} :
    (m.lookup k).isSome ↔ k ∈ m.keys :=
  AList.lookup_isSome

lemma mem_reverse_iff (r : MessageRemapper) (b : ℤ) :
    b ∈ r.reverse.keys.map (·.raw) ↔ (r.lookupClient ⟨b⟩).isSome := by
  rw [MessageRemapper.lookupClient, isSome_lookup_iff, List.mem_map]
  constructor
  · rintro ⟨⟨b'⟩, hb, rfl⟩
    exact hb
  · intro hb
    exact ⟨⟨b⟩, hb, rfl⟩

/-- **Either table, never both.** -/
lemma awaited_perm {h : History} (hi : Inv s h) :
    awaited s ~ h.requests.outstanding.keys := by
  refine (List.perm_ext_iff_of_nodup ?_ h.requests.outstanding.nodupKeys).mpr fun b => ?_
  · refine List.nodup_append.mpr ⟨?_, s.secondaryPending.nodupKeys, ?_⟩
    · refine List.Nodup.map ?_ s.remapper.reverse.nodupKeys
      rintro ⟨b⟩ ⟨b'⟩ rfl
      rfl
    · rintro b hb _ hb' rfl
      rw [mem_reverse_iff] at hb
      obtain ⟨c, hc⟩ := Option.isSome_iff_exists.mp hb
      have hnone := hi.pending_of_mapped hc
      have hsome := isSome_lookup_iff.mpr hb'
      rw [hnone] at hsome
      cases hsome
  · rw [awaited, List.mem_append, mem_reverse_iff, ← isSome_lookup_iff (m := s.secondaryPending)]
    show _ ↔ b ∈ h.requests.outstanding.keys
    rw [← isSome_lookup_iff, hi.reverse b, hi.pending b]
    cases ho : h.requests.outstanding.lookup b with
    | none => simp
    | some r =>
      by_cases he : isEditor r.role
      · have hnum := hi.numbered b r (hi.fresh.mem_issued b r ho) he
        simpa [he, Option.filter_some] using hnum
      · simp [he]

lemma holdsOpen_of_inv {h : History} (hi : Inv s h) : HoldsOpen s h.requests.outstanding where
  awaited := awaited_perm hi
  editor b c hm := hi.request_of_mapped hm
  secondary b id c hp := by
    obtain ⟨r, ho, he, hcl⟩ := hi.request_of_pending hp
    refine ⟨r, ho, he, hcl, ?_⟩
    have hpending := hi.pending b
    rw [ho, hp] at hpending
    simpa [he] using (congrArg (fun p => p.map Prod.snd) hpending).symm
  forward := hi.sound

/-- **Nothing leaks**: where a run of the loop stands, its tables hold exactly the requests that
were passed on and not answered yet, each in one of the two, for the client that sent it and under
that client's number; so none is left once all are answered. -/
theorem tables_hold_open_requests {inputs : List Input} {u : SessionLoop × History}
    (hr : run watched begin inputs = (u, .ok ())) :
    HoldsOpen u.1 u.2.requests.outstanding ∧
      (u.2.requests.outstanding.keys = [] →
        u.1.remapper.reverse.keys = [] ∧ u.1.remapper.forward.keys = [] ∧
          u.1.secondaryPending.keys = []) := by
  have hh := holdsOpen_of_inv (inv_run hr)
  refine ⟨hh, fun hnone => ?_⟩
  have hperm := hh.awaited
  rw [hnone, List.perm_nil, awaited, List.append_eq_nil_iff, List.map_eq_nil_iff] at hperm
  refine ⟨hperm.1, ?_, hperm.2⟩
  rw [List.eq_nil_iff_forall_not_mem]
  intro c hc
  obtain ⟨b, hb⟩ := Option.isSome_iff_exists.mp
    ((isSome_lookup_iff (m := u.1.remapper.forward)).mpr hc)
  have hreverse : b ∈ u.1.remapper.reverse.keys := by
    refine isSome_lookup_iff.mp ?_
    have hlookup : u.1.remapper.reverse.lookup b = some c := hh.forward c b hb
    rw [hlookup]
    rfl
  rw [hperm.1] at hreverse
  cases hreverse

/-- An editor and a control client ask for the same, and the editor is answered. -/
def twoAsk : List Input :=
  [.op (.attach .editor), .op (.attach .control),
    .op (.clientSend ⟨1⟩ (request 1 "threads" none)),
    .op (.clientSend ⟨2⟩ (request 1 "threads" none)),
    .upstream (response 5 1 true none) .listed]

theorem tables_hold_open_requests_twoAsk : ∃ u, run watched begin twoAsk = (u, .ok ()) ∧
    HoldsOpen u.1 u.2.requests.outstanding ∧ u.1.secondaryPending.keys = [2] := by
  have hok : (run watched begin twoAsk).2 = .ok () := by rfl
  have hr : run watched begin twoAsk = ((run watched begin twoAsk).1, .ok ()) :=
    Prod.ext rfl hok
  exact ⟨_, hr, (tables_hold_open_requests hr).1, by rfl⟩

end DappyCore.Upstream
