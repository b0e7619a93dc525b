import Mathlib.Data.List.Forall2
import DappyCore.Observer

/-!
What the editor sees: the events and the answers to its own requests, in upstream order, and
nothing of the other clients but gaps in the numbering.
-/

namespace DappyCore.Transparency

open Lib Lib.Machine Json MuxMessage Remapper Session SessionLoop Observer

/-- How the editor sees an upstream message. -/
def Shows : Shown → Value → Prop
  | .event m, v => ∀ key, key ≠ "seq" → v.get key = m.get key
  | .answer r m, v => Renumbered m v ∧ ∃ c, seq r.message = some c ∧
      v.get "request_seq" = some (.int c) ∧ v.get "requestSeq" = none

/-- Every message has a number, the numbers go up, and none is above `top`. -/
def Increasing (msgs : List Value) (top : ℤ) : Prop :=
  ∃ seqs : List ℤ, msgs.map seq = seqs.map some ∧ seqs.Pairwise (· < ·) ∧ ∀ n ∈ seqs, n ≤ top

/-- Until the editor attaches there is no upstream message and no other editor. -/
def BeforeEditor : Input → Prop
  | .op (.attach role) => role ≠ .editor
  | .upstream _ _ => False
  | _ => True

/-- The editor stays attached, and no other editor attaches. -/
def WithEditor (ed : Id) : Input → Prop
  | .op (.attach role) => role ≠ .editor
  | .op (.detach id) => id ≠ ed
  | _ => True

/-- The editor's id, when it attaches after these inputs. -/
def editorId (pre : List Input) : Id := ⟨(pre.filterMap attachedRole).length + 1⟩

/-- A run in which exactly one editor attaches, before any upstream message, and stays. -/
structure EditorRun (pre post : List Input) : Prop where
  before : ∀ i ∈ pre, BeforeEditor i
  after : ∀ i ∈ post, WithEditor (editorId pre) i

/-- A request of the editor that has a number. -/
def editorRequest (ed : Id) : Input → Option Value
  | .op (.clientSend id message) =>
    if id = ed ∧ messageKind message = .request ∧ (seq message).isSome then some message else none
  | _ => none

def EditorRun.inputs (pre post : List Input) : List Input := pre ++ .op (.attach .editor) :: post

variable {s t : SessionLoop} {h h' : History} {ed : Id}

/-- The editor is attached and has been shown everything. -/
structure Serving (s : SessionLoop) (h : History) (ed : Id) : Prop where
  inv : Inv s h
  here : (s.clients.lookup ed).isSome
  editor : (ed, .editor) ∈ h.attached
  only : ∀ id, (id, .editor) ∈ h.attached → id = ed
  queue : List.Forall₂ Shows h.shown (s.recv ed).sent
  seqs : Increasing (s.recv ed).sent s.displaySeq
  answers : ∀ r m, .answer r m ∈ h.shown →
    (requestsOf h.requests ed)[r.ordinal]? = some r.message

lemma Increasing.mono {msgs : List Value} {top top' : ℤ} (hi : Increasing msgs top)
    (hle : top ≤ top') : Increasing msgs top' := by
  obtain ⟨seqs, hm, hp, hb⟩ := hi
  exact ⟨seqs, hm, hp, fun n hn => Int.le_trans (hb n hn) hle⟩

lemma Increasing.append {msgs : List Value} {top : ℤ} (hi : Increasing msgs top) {v : Value}
    (hv : seq v = some (top + 1)) : Increasing (msgs ++ [v]) (top + 1) := by
  obtain ⟨seqs, hm, hp, hb⟩ := hi
  refine ⟨seqs ++ [top + 1], by simp [hm, hv], ?_, ?_⟩
  · refine List.pairwise_append.mpr ⟨hp, by simp, ?_⟩
    intro n hn n' hn'
    have h1 := hb n hn
    have h2 := List.mem_singleton.mp hn'
    omega
  · intro n hn
    rcases List.mem_append.mp hn with hn | hn
    · have h1 := hb n hn
      omega
    · exact Int.le_of_eq (List.mem_singleton.mp hn)

namespace Serving

variable (hs : Serving s h ed)
include hs

/-- Steps that put nothing on the editor's channel. -/
lemma quiet (hi : Inv t h') (hc : t.clients.lookup ed = s.clients.lookup ed)
    (hat : ∀ id, (id, .editor) ∈ h'.attached ↔ (id, .editor) ∈ h.attached)
    (hr : (t.recv ed).sent = (s.recv ed).sent) (hd : s.displaySeq ≤ t.displaySeq)
    (hsh : h'.shown = h.shown)
    (hq : ∃ l, requestsOf h'.requests ed = requestsOf h.requests ed ++ l) : Serving t h' ed where
  inv := hi
  here := hc ▸ hs.here
  editor := (hat ed).mpr hs.editor
  only id hid := hs.only id ((hat id).mp hid)
  queue := by rw [hsh, hr]; exact hs.queue
  seqs := by rw [hr]; exact hs.seqs.mono hd
  answers r m hm := by
    obtain ⟨l, hl⟩ := hq
    have hold := hs.answers r m (hsh ▸ hm)
    have hlt := (List.getElem?_eq_some_iff.mp hold).1
    rw [hl, List.getElem?_append_left hlt, hold]

/-- Steps that put one message on the editor's channel. -/
lemma gets (hi : Inv t h') (hc : t.clients = s.clients) (hat : h'.attached = h.attached)
    {v : Value} (hr : (t.recv ed).sent = (s.recv ed).sent ++ [v])
    (hv : seq v = some (s.displaySeq + 1)) (hd : t.displaySeq = s.displaySeq + 1) {x : Shown}
    (hsh : h'.shown = h.shown ++ [x]) (hx : Shows x v)
    (hq : h'.requests.issued = h.requests.issued)
    (hord : ∀ r m, x = .answer r m → (requestsOf h.requests ed)[r.ordinal]? = some r.message) :
    Serving t h' ed where
  inv := hi
  here := hc ▸ hs.here
  editor := hat ▸ hs.editor
  only id hid := hs.only id (hat ▸ hid)
  queue := by
    rw [hsh, hr]
    exact List.rel_append hs.queue (.cons hx .nil)
  seqs := by
    rw [hr, hd]
    exact hs.seqs.append hv
  answers r m hm := by
    have hreq : requestsOf h'.requests ed = requestsOf h.requests ed := by
      simp only [requestsOf, hq]
    rw [hsh] at hm
    rw [hreq]
    rcases List.mem_append.mp hm with hm | hm
    · exact hs.answers r m hm
    · exact hord r m (List.mem_singleton.mp hm).symm

lemma role_eq {state : ClientState} (hl : s.clients.lookup ed = some state) :
    state.role = .editor :=
  role_unique hs.inv (hs.inv.attached ed state hl) hs.editor

lemma wants_iff (wanted : ClientRole → Bool) : s.wants wanted ed = wanted .editor := by
  obtain ⟨state, hl⟩ := Option.isSome_iff_exists.mp hs.here
  simp [wants, hl, hs.role_eq hl]

lemma ne_of_role {id : Id} {role : ClientRole} (hat : (id, role) ∈ h.attached)
    (hne : role ≠ .editor) : id ≠ ed := by
  rintro rfl
  exact hne (role_unique hs.inv hat hs.editor)

end Serving

/-! ### One step -/

section Step

variable (hs : Serving s h ed)
include hs

lemma serving_event {message : Value} (hk : messageKind message = .event)
    (order : HashMap.Order Id ClientState)
    (hi : Inv (s.afterEvent message) (note h s (.upstream message order) (s.afterEvent message))) :
    Serving (s.afterEvent message) (note h s (.upstream message order) (s.afterEvent message))
      ed := by
  have hw : s.wants receivesEvents ed = true := hs.wants_iff _
  refine hs.gets hi rfl (by simp [note, hk]) ?_ (v := s.outboundEvent message) ?_ rfl
    (x := .event message) (by simp [note, hk]) ?_ (by simp [note, hk]) ?_
  · simp [afterEvent, pushEach, hw, noted]
  · exact seq_setSeq (isObject_of_kind (by simp [hk])) _
  · exact fun key hkey => get_setSeq_of_ne hkey _ _
  · intro r m hx
    cases hx

lemma serving_editor {message : Value} (hk : messageKind message = .response) {b : ℤ}
    (hb : requestSeq message = some b) {c : ClientSeq}
    (hm : s.remapper.lookupClient ⟨b⟩ = some c) (order : HashMap.Order Id ClientState)
    (hi : Inv (s.afterEditor message b c.raw)
      (note h s (.upstream message order) (s.afterEditor message b c.raw))) :
    Serving (s.afterEditor message b c.raw)
      (note h s (.upstream message order) (s.afterEditor message b c.raw)) ed := by
  obtain ⟨r, ho, he, hq⟩ := hs.inv.request_of_mapped hm
  have hmem := hs.inv.fresh.mem_issued _ _ ho
  have hcl : r.client = ed := hs.only _ (of_decide_eq_true he ▸ hs.inv.senders _ _ hmem)
  have hw : s.wants isEditor ed = true := hs.wants_iff _
  have hobj : message.IsObject := isObject_of_kind (by simp [hk])
  have hobj' : (setRequestSeq message c.raw).IsObject := (hobj.unset _).set _ _
  refine hs.gets hi rfl (by simp [note, hk, hb]) ?_ (v := s.outboundResponse message c.raw) ?_ rfl
    (x := .answer r message) ?_ ?_ ?_ ?_
  · simp [afterEditor, pushEach, hw, unmapped, SessionLoop.observed]
  · exact seq_setSeq hobj' _
  · simp [note, hk, hb, ho, he, Option.filter_some]
  · refine ⟨(renumbered_setRequestSeq _ _).trans (renumbered_setSeq _ _), c.raw, hq, ?_, ?_⟩
    · rw [outboundResponse, get_setSeq_of_ne (by decide), setRequestSeq,
        Value.get_set_self (hobj.unset _)]
    · rw [outboundResponse, get_setSeq_of_ne (by decide), setRequestSeq,
        Value.get_set_of_ne (by decide), Value.get_unset_self]
  · rw [(note_response hk hb h order).1]
    rfl
  · intro r' m hx
    obtain ⟨rfl, rfl⟩ := Shown.answer.inj hx
    exact hcl ▸ hs.inv.ordinal b r hmem

/-- A response that answers no request of the editor is not shown. -/
lemma shown_of_unmapped {message : Value} (hk : messageKind message = .response) {b : ℤ}
    (hb : requestSeq message = some b) (hm : s.remapper.lookupClient ⟨b⟩ = none)
    (order : HashMap.Order Id ClientState) :
    (note h s (.upstream message order) t).shown = h.shown := by
  have hnone := hs.inv.not_editor_of_unmapped hm
  simp [note, hk, hb, hnone]

lemma requestsOf_forwarded {id : Id} {state : ClientState} {message : Value}
    (hl : s.clients.lookup id = some state) (hk : messageKind message = .request) :
    requestsOf (note h s (.op (.clientSend id message))
        (s.forwarded id state.role message)).requests ed =
      requestsOf h.requests ed ++ (editorRequest ed (.op (.clientSend id message))).toList := by
  have hw := written_forwarded s id state.role message
  by_cases hid : id = ed
  · subst hid
    have he : isEditor state.role = true := by rw [hs.role_eq hl]; rfl
    cases hc : seq message with
    | none =>
      rw [note_unsent (by rw [hw, assignSeq_verbatim he hc]; exact hc)]
      simp [editorRequest, hc]
    | some c =>
      have hn := (seq_assigned hk (s.backendSeq + 1) s.remapper).2
      rw [note_forwarded hl (by rw [hw, assignSeq_editor he hc]; exact hn), requestsOf_issue]
      simp [editorRequest, hk, hc]
  · have hnone : editorRequest ed (.op (.clientSend id message)) = none := by
      simp [editorRequest, hid]
    rw [hnone]
    cases hn : (written s (s.forwarded id state.role message)).bind seq with
    | none => rw [note_unsent hn]; simp
    | some n => rw [note_forwarded hl hn, requestsOf_issue]; simp [hid]

/-- What the editor sends with a number goes upstream, in order. -/
lemma requestsOf_step {i : Input} (hstep : s.step i = (t, .ok ())) :
    requestsOf (note h s i t).requests ed =
      requestsOf h.requests ed ++ (editorRequest ed i).toList := by
  have hup : ∀ (message : Value) (order : HashMap.Order Id ClientState),
      requestsOf (note h s (.upstream message order) t).requests ed =
        requestsOf h.requests ed ++ (editorRequest ed (.upstream message order)).toList := by
    intro message order
    simp [requestsOf, issued_note_upstream, editorRequest]
  cases took_of_step hstep with
  | ignored hl hk =>
    rw [note_unsent (by simp [written_of_same])]
    simp [editorRequest, hk]
  | @answered id state message hl hk ha _ =>
    have hne : id ≠ ed := hs.ne_of_role (hs.inv.attached id state hl) (by simp [ha.1])
    rw [note_unsent (by rw [written_of_same (by rfl)]; rfl)]
    simp [editorRequest, hne]
  | forwarded hl hk ha hu => exact requestsOf_forwarded hs hl hk
  | event hk hh => exact hup _ _
  | editor hk hb hm hh => exact hup _ _
  | secondary hk hb hm hp hl => exact hup _ _
  | unmatched hk hb hm hp => exact hup _ _
  | unexpected hk hk' => exact hup _ _
  | attach role => simp [note, editorRequest]
  | detach id => simp [note, editorRequest]
  | dropRecv id => simp [note, editorRequest]
  | dropEvents id => simp [note, editorRequest]
  | dropUpstream => simp [note, editorRequest]

end Step

/-- **One step** shows the editor what it should see and nothing else. -/
theorem serving_step {i : Input} (hs : Serving s h ed) (hp : WithEditor ed i)
    (hstep : s.step i = (t, .ok ())) : Serving t (note h s i t) ed := by
  have hi := inv_step hs.inv hstep
  have hq := requestsOf_step hs hstep
  cases took_of_step hstep with
  | attach role =>
    -- the id of a newcomer is not the editor's
    have hnew : ed ≠ s.nextId := by
      rintro rfl
      have hle := hs.inv.ids _ hs.editor
      simp only [nextId] at hle
      omega
    refine hs.quiet hi ?_ ?_ ?_ (Int.le_refl _) rfl ⟨_, hq⟩
    · simp [SessionLoop.attached, hnew]
    · intro id
      have hrole : role ≠ .editor := hp
      simp [note, hrole.symm]
    · simp [SessionLoop.attached, Function.update_of_ne hnew]
  | detach id =>
    have hne : ed ≠ id := fun e => hp e.symm
    refine hs.quiet hi ?_ (fun _ => Iff.rfl) rfl (Int.le_refl _) rfl ⟨_, hq⟩
    simp [hne]
  | ignored hl hk =>
    rw [note_unsent (by simp [written_of_same])]
    exact hs
  | @answered id state message hl hk ha _ =>
    have hne : id ≠ ed := hs.ne_of_role (hs.inv.attached id state hl) (by simp [ha.1])
    rw [note_unsent (by rw [written_of_same (by rfl)]; rfl)] at hi hq ⊢
    refine hs.quiet hi rfl (fun _ => Iff.rfl) ?_ ?_ rfl ⟨_, hq⟩
    · simp [answered, push, Function.update_of_ne hne.symm]
    · simp only [answered, push]
      omega
  | @forwarded id state message hl hk ha hu =>
    -- a forwarded request changes what is upstream and the tables, and no client
    have hsame : (s.forwarded id state.role message).clients = s.clients ∧
        (s.forwarded id state.role message).recv = s.recv ∧
        (s.forwarded id state.role message).displaySeq = s.displaySeq := by
      unfold forwarded assignSeq
      split
      · split <;> exact ⟨rfl, rfl, rfl⟩
      · exact ⟨rfl, rfl, rfl⟩
    obtain ⟨hc, hr, hd⟩ := hsame
    refine hs.quiet hi (by rw [hc]) (fun _ => ?_) (by rw [hr]) (Int.le_of_eq hd.symm) ?_ ⟨_, hq⟩
    all_goals
      simp only [note]
      split <;> rfl
  | event hk hh => exact serving_event hs hk _ hi
  | editor hk hb hm hh => exact serving_editor hs hk hb hm _ hi
  | @secondary message order b id c hk hb hm hp' _ =>
    obtain ⟨r, ho, he, hcl⟩ := hs.inv.request_of_pending hp'
    -- the response is for a client that is no editor
    have hne : id ≠ ed := by
      have hat : (id, r.role) ∈ _ := hcl ▸ hs.inv.senders b r (hs.inv.fresh.mem_issued b r ho)
      exact hs.ne_of_role hat fun e => he (by rw [e]; rfl)
    refine hs.quiet hi rfl (fun _ => ?_) ?_ (Int.le_refl _) ?_ ⟨_, hq⟩
    · rw [(note_response hk hb h _).2]
    · simp [afterSecondary, push, unpended, SessionLoop.observed, Function.update_of_ne hne.symm]
    · exact shown_of_unmapped hs hk hb hm _
  | unmatched hk hb hm hp' =>
    refine hs.quiet hi rfl (fun _ => ?_) rfl (Int.le_refl _) ?_ ⟨_, hq⟩
    · rw [(note_response hk hb h _).2]
    · exact shown_of_unmapped hs hk hb hm _
  | unexpected hk hk' =>
    refine hs.quiet hi rfl (fun _ => ?_) rfl (Int.le_refl _) ?_ ⟨_, hq⟩
    · rw [(note_upstream hk h _).2]
    · unfold note
      split <;> simp_all
  | dropRecv id =>
    refine hs.quiet hi rfl (fun _ => Iff.rfl) ?_ (Int.le_refl _) rfl ⟨_, hq⟩
    by_cases e : ed = id
    · simp [e]
    · simp [Function.update_of_ne e]
  | dropEvents id =>
    exact hs.quiet hi rfl (fun _ => Iff.rfl) rfl (Int.le_refl _) rfl ⟨_, hq⟩
  | dropUpstream =>
    exact hs.quiet hi rfl (fun _ => Iff.rfl) rfl (Int.le_refl _) rfl ⟨_, hq⟩

/-! ### Before the editor -/

/-- Nothing is cached for replay and nobody is an editor. -/
structure Waiting (s : SessionLoop) (h : History) : Prop where
  inv : Inv s h
  replay : s.cache.replay = []
  shown : h.shown = []
  none : ∀ id, (id, .editor) ∉ h.attached

lemma replay_observeClientRequest (c : Cache.LateJoinCache) (n : ℤ) (message : Value) :
    (c.observeClientRequest n message).replay = c.replay := by
  unfold Cache.LateJoinCache.observeClientRequest
  split <;> rfl

lemma replay_forwarded (s : SessionLoop) (id : Id) (role : ClientRole) (message : Value) :
    (s.forwarded id role message).cache.replay = s.cache.replay := by
  unfold forwarded assignSeq
  split
  · split
    · rfl
    · exact replay_observeClientRequest _ _ _
  · exact replay_observeClientRequest _ _ _

lemma waiting_step {i : Input} (hw : Waiting s h) (hp : BeforeEditor i)
    (hstep : s.step i = (t, .ok ())) : Waiting t (note h s i t) := by
  have hi := inv_step hw.inv hstep
  cases took_of_step hstep with
  | attach role =>
    refine ⟨hi, hw.replay, hw.shown, fun id hid => ?_⟩
    rcases List.mem_append.mp hid with hid | hid
    · exact hw.none id hid
    · -- the newcomer is no editor: the run is still before that one attaches
      exact hp (congrArg Prod.snd (List.mem_singleton.mp hid)).symm
  | ignored hl hk =>
    rw [note_unsent (by simp [written_of_same])]
    exact hw
  | answered hl hk ha _ =>
    rw [note_unsent (by rw [written_of_same (by rfl)]; rfl)] at hi ⊢
    exact ⟨hi, hw.replay, hw.shown, hw.none⟩
  | @forwarded id state message hl hk ha hu =>
    have hsame : ∀ t, (note h s (.op (.clientSend id message)) t).shown = h.shown ∧
        (note h s (.op (.clientSend id message)) t).attached = h.attached := by
      intro t
      simp only [note]
      split <;> exact ⟨rfl, rfl⟩
    obtain ⟨hsh, hat⟩ := hsame (s.forwarded id state.role message)
    refine ⟨hi, ?_, hsh.trans hw.shown, by rw [hat]; exact hw.none⟩
    rw [replay_forwarded, hw.replay]
  | event hk hh => exact hp.elim
  | editor hk hb hm hh => exact hp.elim
  | secondary hk hb hm hp' hl => exact hp.elim
  | unmatched hk hb hm hp' => exact hp.elim
  | unexpected hk hk' => exact hp.elim
  | detach id => exact ⟨hi, hw.replay, hw.shown, hw.none⟩
  | dropRecv id => exact ⟨hi, hw.replay, hw.shown, hw.none⟩
  | dropEvents id => exact ⟨hi, hw.replay, hw.shown, hw.none⟩
  | dropUpstream => exact ⟨hi, hw.replay, hw.shown, hw.none⟩

lemma waiting_begin : Waiting start .new := ⟨inv_begin, rfl, rfl, by simp [History.new]⟩

/-- The editor attaches, and finds its channel empty. -/
lemma Waiting.serving (hw : Waiting s h) :
    Serving (s.attached .editor) { h with attached := h.attached ++ [(s.nextId, .editor)] }
        s.nextId ∧
      requestsOf h.requests s.nextId = [] := by
  refine ⟨⟨hw.inv.attach .editor, by simp [SessionLoop.attached], by simp, ?_, ?_, ?_, ?_⟩, ?_⟩
  · intro id hid
    rcases List.mem_append.mp hid with hid | hid
    · exact absurd hid (hw.none id)
    · exact congrArg Prod.fst (List.mem_singleton.mp hid)
  · simp [SessionLoop.attached, hw.shown, hw.replay]
  · refine ⟨[], by simp [SessionLoop.attached, hw.replay], .nil, by simp⟩
  · intro r m hm
    simp [hw.shown] at hm
  · -- the id is new, so nobody has sent anything under it
    unfold requestsOf
    rw [List.map_eq_nil_iff, List.filter_eq_nil_iff]
    rintro ⟨b, r⟩ hr hcl
    have hle := hw.inv.ids _ (hw.inv.senders b r hr)
    rw [of_decide_eq_true hcl] at hle
    simp only [nextId] at hle
    omega

/-! ### Runs -/

lemma serving_run {u v : SessionLoop × History} (hs : Serving u.1 u.2 ed) {is : List Input}
    (hp : ∀ i ∈ is, WithEditor ed i) (hr : run watched u is = (v, .ok ())) :
    Serving v.1 v.2 ed ∧ requestsOf v.2.requests ed =
      requestsOf u.2.requests ed ++ is.filterMap (editorRequest ed) := by
  induction is generalizing u with
  | nil =>
    obtain rfl := congrArg Prod.fst hr
    exact ⟨hs, by simp⟩
  | cons i is ih =>
    rcases step_ok_or_error watched u i with ⟨w, hw⟩ | ⟨w, e, hw⟩
    · obtain ⟨h1, h2⟩ := watched_ok hw
      rw [run_cons_ok hw] at hr
      have hs' : Serving w.1 w.2 ed := by
        rw [h2]
        exact serving_step hs (hp i List.mem_cons_self) h1
      obtain ⟨hv, hq⟩ := ih hs' (fun j hj => hp j (List.mem_cons_of_mem _ hj)) hr
      refine ⟨hv, ?_⟩
      rw [hq, h2, requestsOf_step hs h1]
      cases hi : editorRequest ed i <;> simp [hi]
    · simp [run_cons_error hw] at hr

/-- Where the run ends the editor has been shown everything, and what it sent went upstream. -/
lemma serving_end {pre post : List Input} (he : EditorRun pre post) {u : SessionLoop × History}
    (hr : run watched begin (EditorRun.inputs pre post) = (u, .ok ())) :
    Serving u.1 u.2 (editorId pre) ∧
      requestsOf u.2.requests (editorId pre) = post.filterMap (editorRequest (editorId pre)) := by
  unfold EditorRun.inputs at hr
  rw [run_append] at hr
  rcases hpre : run watched begin pre with ⟨v, _ | _⟩
  · simp [hpre] at hr
  · rw [hpre] at hr
    have hw : Waiting v.1 v.2 := by
      refine run_ok_inv (I := fun v => Waiting v.1 v.2) (P := BeforeEditor) ?_ waiting_begin
        he.before hpre
      intro v i w hp hw hstep
      obtain ⟨h1, h2⟩ := watched_ok hstep
      rw [h2]
      exact waiting_step hw hp h1
    have hid : editorId pre = v.1.nextId := by
      have hc := hw.inv.count
      rw [← List.length_map (f := (·.2)), attached_run hpre] at hc
      simp only [History.new, List.map_nil, List.nil_append] at hc
      rw [editorId, hc]
      rfl
    obtain ⟨hs, hq⟩ := hw.serving
    have hstep : watched v (.op (.attach .editor)) = ((v.1.attached .editor,
        { v.2 with attached := v.2.attached ++ [(v.1.nextId, .editor)] }), .ok ()) := by
      simp [watched, Machine.observed, step, handleOp, attach_eq, note]
    simp only [run_cons_ok hstep] at hr
    rw [hid]
    have hend := serving_run hs (hid ▸ he.after) hr
    rw [show requestsOf ({ v.2 with attached := v.2.attached ++ [(v.1.nextId, .editor)] } :
      History).requests v.1.nextId = [] from hq] at hend
    simpa using hend

/-- The editor's channel has what concerns the editor, in order, under numbers that go up. -/
def Transparent (u : SessionLoop × History) (ed : Id) : Prop :=
  List.Forall₂ Shows u.2.shown (u.1.recv ed).sent ∧ Increasing (u.1.recv ed).sent u.1.displaySeq

/-- The same event, or the answer to the same request of the editor, but for numbers given
upstream. -/
def Agree : Shown → Shown → Prop
  | .event m, .event m' => ∀ key, key ≠ "seq" → m'.get key = m.get key
  | .answer r m, .answer r' m' => r.ordinal = r'.ordinal ∧ Renumbered m m'
  | _, _ => False

def SameButSeq (v v' : Value) : Prop := ∀ key, key ≠ "seq" → v'.get key = v.get key

lemma sameButSeq_of_agree (reqs : List Value) {x x' : Shown} {v v' : Value}
    (hx : Shows x v) (hx' : Shows x' v') (ha : Agree x x')
    (hr : ∀ r m, x = .answer r m → reqs[r.ordinal]? = some r.message)
    (hr' : ∀ r m, x' = .answer r m → reqs[r.ordinal]? = some r.message) : SameButSeq v v' := by
  intro key hkey
  match x, x' with
  | .event m, .event m' => rw [hx' key hkey, ha key hkey, hx key hkey]
  | .answer r m, .answer r' m' =>
    obtain ⟨hn, c, hc, h1, h2⟩ := hx
    obtain ⟨hn', c', hc', h1', h2'⟩ := hx'
    obtain ⟨hord, hm⟩ := ha
    have hmsg : r.message = r'.message := by
      have e := hr r m rfl
      rw [hord, hr' r' m' rfl] at e
      exact (Option.some.inj e).symm
    rw [hmsg, hc'] at hc
    obtain rfl := Option.some.inj hc
    by_cases k1 : key = "request_seq"
    · rw [k1, h1, h1']
    · by_cases k2 : key = "requestSeq"
      · rw [k2, h2, h2']
      · rw [hn' key hkey k1 k2, hm key hkey k1 k2, hn key hkey k1 k2]

lemma sameButSeq_queues {xs xs' : List Shown} {vs vs' reqs : List Value}
    (hx : List.Forall₂ Shows xs vs) (hx' : List.Forall₂ Shows xs' vs')
    (ha : List.Forall₂ Agree xs xs')
    (hr : ∀ r m, .answer r m ∈ xs → reqs[r.ordinal]? = some r.message)
    (hr' : ∀ r m, .answer r m ∈ xs' → reqs[r.ordinal]? = some r.message) :
    List.Forall₂ SameButSeq vs vs' := by
  induction ha generalizing vs vs' with
  | nil =>
    cases hx
    cases hx'
    exact .nil
  | cons h1 ht ih =>
    cases hx with
    | cons hxv hxs =>
      cases hx' with
      | cons hxv' hxs' =>
        refine .cons (sameButSeq_of_agree reqs hxv hxv' h1 ?_ ?_) (ih hxs hxs' ?_ ?_)
        · exact fun r m e => hr r m (e ▸ List.mem_cons_self)
        · exact fun r m e => hr' r m (e ▸ List.mem_cons_self)
        · exact fun r m h => hr r m (List.mem_cons_of_mem _ h)
        · exact fun r m h => hr' r m (List.mem_cons_of_mem _ h)

/-- **Editor transparency**: the editor sees what concerns it, and two runs that differ in
what other clients do look the same to it. -/
theorem editor_transparent {pre post pre' post' : List Input} {u u' : SessionLoop × History}
    (he : EditorRun pre post) (hr : run watched begin (EditorRun.inputs pre post) = (u, .ok ()))
    (he' : EditorRun pre' post')
    (hr' : run watched begin (EditorRun.inputs pre' post') = (u', .ok ())) :
    Transparent u (editorId pre) ∧
      (post.filterMap (editorRequest (editorId pre)) =
          post'.filterMap (editorRequest (editorId pre')) →
        List.Forall₂ Agree u.2.shown u'.2.shown →
        List.Forall₂ SameButSeq (u.1.recv (editorId pre)).sent
          (u'.1.recv (editorId pre')).sent) := by
  obtain ⟨hs, hq⟩ := serving_end he hr
  obtain ⟨hs', hq'⟩ := serving_end he' hr'
  refine ⟨⟨hs.queue, hs.seqs⟩, fun hsame ha => ?_⟩
  refine sameButSeq_queues hs.queue hs'.queue ha hs.answers ?_
  rw [hq, hsame, ← hq']
  exact hs'.answers

/-- The editor alone: it asks and is answered. -/
def alone : List Input :=
  [.op (.clientSend ⟨1⟩ (request 1 "threads" none)), .upstream (event 5 "stopped" none) .listed,
    .upstream (response 6 1 true none) .listed]

/-- The same with a control client that attached first and is answered in between. -/
def shared : List Input :=
  [.op (.clientSend ⟨1⟩ (request 1 "scopes" none)),
    .op (.clientSend ⟨2⟩ (request 1 "threads" none)),
    .upstream (event 5 "stopped" none) .listed,
    .upstream (response 6 1 true none) .listed, .upstream (response 7 2 true none) .listed]

theorem editor_transparent_shared :
    Transparent (run watched begin (EditorRun.inputs [.op (.attach .control)] shared)).1 ⟨2⟩ ∧
      List.Forall₂ SameButSeq
        ((run watched begin (EditorRun.inputs [.op (.attach .control)] shared)).1.1.recv ⟨2⟩).sent
        ((run watched begin (EditorRun.inputs [] alone)).1.1.recv ⟨1⟩).sent := by
  have hshared : EditorRun [.op (.attach .control)] shared := by
    constructor <;> intro i hi <;>
      simp only [shared, List.mem_cons, List.not_mem_nil, or_false] at hi
    · rw [hi]
      exact ClientRole.noConfusion
    · rcases hi with rfl | rfl | rfl | rfl | rfl <;> trivial
  have halone : EditorRun [] alone := by
    constructor <;> intro i hi <;>
      simp only [alone, List.mem_cons, List.not_mem_nil, or_false] at hi
    rcases hi with rfl | rfl | rfl <;> trivial
  obtain ⟨h1, h2⟩ := editor_transparent hshared rfl halone rfl
  refine ⟨h1, h2 rfl (.cons ?_ (.cons ?_ .nil))⟩
  · exact fun key hkey => rfl
  · refine ⟨rfl, fun key h1 h2 h3 => ?_⟩
    simp [response, Value.obj, Value.get, lookup_insertField, h1.symm, h2.symm]

end DappyCore.Transparency
