import DappyCore.Listings

/-!
Sessions that have gone: one that its process has deleted, or whose process has ended, is in no
listing that begins later, whatever the other processes do.
-/

namespace DappyCore.SharedStore

open Lib Lib.Trace Lib.Keyed Instances Import SessionStore

/-! ### Sessions that have gone -/

/-- The session has no file, and none is written for it. -/
structure Absent (w : Shared) (id : String) : Prop where
  file : w.dir.lookup (recordPath id) = none
  saving : ∀ p r left, w.calls p = .saving r left → r.instanceId ≠ id

/-- The process of the session has ended, and no other runs under its pid. -/
structure Dead (sys : System) (owner : String → Process) (w : Shared) (id : String) : Prop where
  ended : w.ended (owner id) = true
  idle : w.calls (owner id) = .idle
  pid : ∀ p ∈ w.running, sys.pid p ≠ sys.pid (owner id)

section Steps

variable {sys : System} {owner : String → Process} {good : SessionRecord → Prop} {w : Shared}
  {id : String}

lemma Absent.setCall (h : Absent w id) {call : Call}
    (hcall : ∀ r left, call = .saving r left → r.instanceId ≠ id) (p : Process) :
    Absent (w.setCall p call) id where
  file := h.file
  saving q r left hq := by
    rw [setCall_calls] at hq
    split_ifs at hq
    · exact hcall r left hq
    · exact h.saving q r left hq

lemma Absent.write (h : Absent w id) {r : SessionRecord} (hid : r.instanceId ≠ id)
    (hne : r.instanceId ≠ "") (body left : List UInt8) (p : Process) :
    Absent ({ w with dir := w.dir.insert (tmpPath r.instanceId) body }.setCall p
      (.saving r left)) id := by
  have hw : Absent { w with dir := w.dir.insert (tmpPath r.instanceId) body } id :=
    ⟨(AList.lookup_insert_ne (recordPath_ne_tmpPath id hne)).trans h.file, h.saving⟩
  refine hw.setCall (fun r' left' he => ?_) p
  obtain ⟨rfl, -⟩ := Call.saving.inj he
  exact hid

lemma Absent.erase (h : Absent w id) (name : String) :
    Absent { w with dir := w.dir.erase name } id where
  file := by
    rw [HashMap.lookup_erase_of]
    split_ifs
    · rfl
    · exact h.file
  saving := h.saving

lemma Absent.advance (ho : Owned sys owner good) (hs : Safe sys owner good w) (h : Absent w id)
    (p : Process) (bytes : ℕ) : Absent (advance sys w p bytes) id := by
  unfold SharedStore.advance
  split
  · exact h
  · rename_i r left hc
    have hid := h.saving p r left hc
    have hne := ho.named r (hs.saving p r left hc).1
    cases left with
    | nil =>
      simp only [advanceSave, rename]
      cases htmp : w.dir.lookup (tmpPath r.instanceId) with
      | none => exact h.setCall (by simp) p
      | some body =>
        have hpath : recordPath id ≠ recordPath r.instanceId := fun he =>
          hid (recordPath_injective he).symm
        have hw : Absent { w with
            dir := (w.dir.erase (tmpPath r.instanceId)).insert (recordPath r.instanceId) body
            saved := Function.update w.saved r.instanceId (some r) } id := by
          refine ⟨?_, h.saving⟩
          rw [AList.lookup_insert_ne hpath, AList.lookup_erase_ne (recordPath_ne_tmpPath id hne)]
          exact h.file
        exact hw.setCall (by simp) p
    | cons b left => exact h.write hid hne _ _ p
  · exact (h.erase _).setCall (by simp) p
  · obtain ⟨call, returned, he, hcall, -⟩ := advanceList_frame sys w p _ _
    have hw : Absent { w with returned } id := ⟨h.file, h.saving⟩
    rw [he]
    exact hw.setCall (fun r left hc => absurd hc (hcall r left)) p
  · exact (h.erase _).setCall (by simp) p

/-- **A session without a file** has none until it is saved. -/
lemma Absent.step (ho : Owned sys owner good) (hs : Safe sys owner good w) (h : Absent w id)
    {i : Input} (hf : Fits owner good w i) (hi : ∀ p r, i = .save p r → r.instanceId ≠ id) :
    Absent (SharedStore.step sys w i) id := by
  cases i with
  | start p =>
    simp only [SharedStore.step]
    split_ifs
    · exact h
    · exact ⟨h.file, h.saving⟩
  | exit p =>
    refine ⟨h.file, fun q r left hq => ?_⟩
    simp only [SharedStore.step, Function.update_apply] at hq
    split_ifs at hq
    exact h.saving q r left hq
  | bind p port =>
    simp only [SharedStore.step]
    split_ifs
    · exact ⟨h.file, h.saving⟩
    · exact h
  | save p r =>
    simp only [SharedStore.step]
    split_ifs
    · exact h.write (hi p r rfl) (ho.named r hf.1) _ _ p
    · exact h
  | delete p id' =>
    simp only [SharedStore.step]
    split_ifs
    · -- a delete notes who it is about before it removes anything
      have hw : Absent { w with saved := Function.update w.saved id' none } id :=
        ⟨h.file, h.saving⟩
      exact hw.setCall (by simp) p
    · exact h
  | list p names =>
    simp only [SharedStore.step]
    split_ifs
    · exact h.setCall (by simp) p
    · exact h
  | advance p bytes =>
    simp only [SharedStore.step]
    split_ifs
    · exact h.advance ho hs p bytes
    · exact h
  | fail p =>
    simp only [SharedStore.step]
    split
    · exact h.setCall (by simp) p
    · exact h

/-- Who runs after a step ran before it, or starts. -/
lemma running_of_step {i : Input} {p : Process} (h : p ∈ (step sys w i).running) :
    p ∈ w.running ∨ i = .start p ∧ w.ended p = false := by
  cases i with
  | start q =>
    simp only [step] at h
    split_ifs at h with hstays
    · exact .inl h
    · rcases List.mem_cons.mp h with rfl | h
      · simp only [Bool.or_eq_true, not_or, Bool.not_eq_true] at hstays
        exact .inr ⟨rfl, hstays.2⟩
      · exact .inl h
  | exit q => exact .inl (List.mem_of_mem_filter h)
  | bind q port => simp only [step] at h; split_ifs at h <;> exact .inl h
  | save q r => simp only [step] at h; split_ifs at h <;> exact .inl h
  | delete q id' => simp only [step] at h; split_ifs at h <;> exact .inl h
  | list q names => simp only [step] at h; split_ifs at h <;> exact .inl h
  | advance q bytes =>
    simp only [step] at h
    split_ifs at h
    · rw [(advance_frame sys w q bytes).1] at h
      exact .inl h
    · exact .inl h
  | fail q => simp only [step] at h; split at h <;> exact .inl h

lemma free_of_ended (hs : Safe sys owner good w) {p : Process} (h : w.ended p = true) :
    w.free p = false := by
  have hno : p ∉ w.running := hs.ended p h
  simp [Shared.free, hno]

/-- A process that has ended is in no call any more. -/
lemma idle_step (hs : Safe sys owner good w) {p : Process} (hended : w.ended p = true)
    (hidle : w.calls p = .idle) (i : Input) : (step sys w i).calls p = .idle := by
  have hno : p ∉ w.running := hs.ended p hended
  have hfree := free_of_ended hs hended
  -- the calls of another process are not those of this one
  have hset {q : Process} (hq : q ≠ p) (u : Shared) (hu : u.calls p = .idle) (call : Call) :
      (u.setCall q call).calls p = .idle := by
    rw [setCall_calls, if_neg hq.symm, hu]
  cases i with
  | start q => simp only [step]; split_ifs <;> exact hidle
  | exit q =>
    simp only [step, Function.update_apply]
    split_ifs
    · rfl
    · exact hidle
  | bind q port => simp only [step]; split_ifs <;> exact hidle
  | save q r =>
    simp only [step]
    split_ifs with hq
    · exact hset (by rintro rfl; simp [hfree] at hq) _ hidle _
    · exact hidle
  | delete q id' =>
    simp only [step]
    split_ifs with hq
    · exact hset (by rintro rfl; simp [hfree] at hq) _ hidle _
    · exact hidle
  | list q names =>
    simp only [step]
    split_ifs with hq
    · exact hset (by rintro rfl; simp [hfree] at hq) _ hidle _
    · exact hidle
  | advance q bytes =>
    simp only [step]
    split_ifs with hq
    · have hne : q ≠ p := by
        rintro rfl
        simp [hno] at hq
      rw [(advance_other hne bytes).1, hidle]
    · exact hidle
  | fail q =>
    simp only [step]
    split
    · rename_i hq _
      exact hset (by rintro rfl; simp [hno] at hq) _ hidle _
    · exact hidle

/-- **A session without a process** has none until its pid is used again. -/
lemma Dead.step (hs : Safe sys owner good w) (h : Dead sys owner w id) {i : Input}
    (hi : ∀ p, i = .start p → p = owner id ∨ sys.pid p ≠ sys.pid (owner id)) :
    Dead sys owner (SharedStore.step sys w i) id where
  ended := ended_step i h.ended
  idle := idle_step hs h.ended h.idle i
  pid p hp := by
    rcases running_of_step hp with hp | ⟨he, hended⟩
    · exact h.pid p hp
    · refine (hi p he).resolve_left fun hp => ?_
      rw [hp, h.ended] at hended
      cases hended

end Steps

/-! ### Files that are left -/

/-- A listing, begun with these results so far, that has still to come to the file of a session or
is about to remove it, or has stopped; or the file is not there any more. -/
inductive Sweeping (q : Process) (id : String) (base : List (List SessionRecord)) (w : Shared) :
    Prop
  | coming {names : List String} {records : List SessionRecord}
      (call : w.calls q = .listing names records) (mem : recordPath id ∈ names)
      (same : results q w = base)
  | dropping {name : String} {names : List String} {records : List SessionRecord}
      (call : w.calls q = .dropping name names records) (mem : recordPath id ∈ name :: names)
      (same : results q w = base)
  | swept (file : w.dir.lookup (recordPath id) = none)
  | stopped (call : (w.calls q).isListing = false) (ended : w.ended q = true)
      (same : results q w = base)

section Sweep

variable {sys : System} {owner : String → Process} {good : SessionRecord → Prop} {w : Shared}
  {id : String} {q : Process} {base : List (List SessionRecord)}

/-- Nobody writes the file of a process that has ended. -/
lemma Dead.absent (hs : Safe sys owner good w) (h : Dead sys owner w id)
    (hfile : w.dir.lookup (recordPath id) = none) : Absent w id := by
  refine ⟨hfile, ?_⟩
  rintro p r left hp rfl
  obtain ⟨-, rfl, -⟩ := hs.saving p r left hp
  rw [h.idle] at hp
  cases hp

lemma Dead.file_step (ho : Owned sys owner good) (hs : Safe sys owner good w)
    (h : Dead sys owner w id) {i : Input} (hf : Fits owner good w i)
    (hfile : w.dir.lookup (recordPath id) = none) :
    (SharedStore.step sys w i).dir.lookup (recordPath id) = none := by
  by_cases hsave : ∀ p r, i = .save p r → r.instanceId ≠ id
  · exact ((h.absent hs hfile).step ho hs hf hsave).file
  · push Not at hsave
    obtain ⟨p, r, rfl, rfl⟩ := hsave
    obtain ⟨-, rfl, -⟩ := hf
    have hsame : SharedStore.step sys w (.save (owner r.instanceId) r) = w :=
      if_neg (by simp [free_of_ended hs h.ended])
    rw [hsame]
    exact hfile

/-- The file of a dead session is whole, so a listing that reads it removes it. -/
lemma Dead.dropped (ho : Owned sys owner good) (hs : Safe sys owner good w) (ht : Tidy good w)
    (h : Dead sys owner w id) {body : List UInt8}
    (hbody : w.dir.lookup (recordPath id) = some body)
    (hext : extension (recordPath id) = some "json") :
    (w.store sys .listed (fun name => name)).keeps body = false := by
  obtain ⟨r₀, hg₀, hpath⟩ := ht _ hext (by rw [hbody]; rfl)
  obtain rfl := recordPath_injective hpath
  obtain ⟨r, hg, hid, -, rfl⟩ := hs.whole r₀ body hg₀ hbody
  obtain ⟨text, htext, hparse⟩ := ho.reads r hg
  have hdead : (w.oracle sys).isPidAlive r.pid = false := by
    rw [(ho.pid r hg).1, hid]
    simpa [Shared.oracle] using fun _ p hp => h.pid p hp
  simp [Store.keeps, Shared.store, htext, hparse, isAlive, hdead]

/-- **One turn** of the listing comes nearer to the file, or removes it. -/
lemma Sweeping.turn (ho : Owned sys owner good) (hs : Safe sys owner good w) (ht : Tidy good w)
    (hd : Dead sys owner w id) (hext : extension (recordPath id) = some "json")
    (h : Sweeping q id base w) (hruns : q ∈ w.running) (bytes : ℕ) :
    Sweeping q id base (advance sys w q bytes) := by
  cases h with
  | @coming names records hcall hmem hsame =>
    cases names with
    | nil => cases hmem
    | cons name names =>
      have hstep : advance sys w q bytes = advanceList sys w q (name :: names) records := by
        simp only [advance, hcall]
      rw [hstep]
      -- the file may be later in the listing, or it is the next one
      by_cases hlater : recordPath id ∈ names
      · rcases advanceList_seen sys w q name names records with he | he
        · rw [he]
          exact .coming (by rw [setCall_calls, if_pos rfl]) hlater hsame
        · rw [he]
          exact .dropping (by rw [setCall_calls, if_pos rfl]) (List.mem_cons_of_mem _ hlater) hsame
      · obtain rfl : recordPath id = name := (List.mem_cons.mp hmem).resolve_right hlater
        cases hfile : w.dir.lookup (recordPath id) with
        | none =>
          obtain ⟨call, returned, he, -⟩ :=
            advanceList_frame sys w q (recordPath id :: names) records
          rw [he]
          exact .swept hfile
        | some body =>
          rw [advanceList_cons hext hfile .listed (fun name => name),
            hd.dropped ho hs ht hfile hext, if_neg Bool.false_ne_true]
          exact .dropping (by rw [setCall_calls, if_pos rfl]) hmem hsame
  | @dropping name names records hcall hmem hsame =>
    have hstep : advance sys w q bytes =
        { w with dir := w.dir.erase name }.setCall q (.listing names records) := by
      simp only [advance, hcall]
    rw [hstep]
    rcases List.mem_cons.mp hmem with rfl | hmem
    · exact .swept (HashMap.lookup_erase_of.trans (if_pos rfl))
    · exact .coming (by rw [setCall_calls, if_pos rfl]) hmem hsame
  -- a file that is gone stays gone
  | swept hfile => exact .swept ((hd.absent hs hfile).advance ho hs q bytes).file
  | stopped _ hended _ => exact absurd hruns (hs.ended q hended)

/-- **One step** of any process. -/
lemma Sweeping.step (ho : Owned sys owner good) (hs : Safe sys owner good w) (ht : Tidy good w)
    (hd : Dead sys owner w id) (hext : extension (recordPath id) = some "json")
    (h : Sweeping q id base w) {i : Input} (hf : Fits owner good w i)
    (hlist : ∀ names, i ≠ .list q names) : Sweeping q id base (SharedStore.step sys w i) := by
  by_cases hturn : i.isTurn q = true
  · -- the listing's own turn
    obtain ⟨bytes, rfl⟩ : ∃ bytes, i = .advance q bytes := by
      cases i <;> simp_all [Input.isTurn]
    by_cases hruns : q ∈ w.running
    · rw [step_advance hruns]
      exact h.turn ho hs ht hd hext hruns bytes
    · have hsame : SharedStore.step sys w (.advance q bytes) = w := by
        simp [SharedStore.step, hruns]
      rwa [hsame]
  · by_cases hexit : i = .exit q
    · -- the process that lists is killed
      subst hexit
      have hidle : ((SharedStore.step sys w (.exit q)).calls q).isListing = false := by
        simp [SharedStore.step, Call.isListing]
      have hended : (SharedStore.step sys w (.exit q)).ended q = true := by
        simp [SharedStore.step]
      cases h with
      | coming _ _ hsame => exact .stopped hidle hended hsame
      | dropping _ _ hsame => exact .stopped hidle hended hsame
      | swept hfile => exact .swept (hd.file_step ho hs hf hfile)
      | stopped _ _ hsame => exact .stopped hidle hended hsame
    · -- anything else leaves the listing where it is
      obtain ⟨hkeep, hnew, hres⟩ := @step_other sys w q i (by simpa using hturn) hexit hlist
      cases h with
      | coming hcall hmem hsame =>
        exact .coming ((hkeep (by rw [hcall]; rfl)).trans hcall) hmem (hres.trans hsame)
      | dropping hcall hmem hsame =>
        exact .dropping ((hkeep (by rw [hcall]; rfl)).trans hcall) hmem (hres.trans hsame)
      | swept hfile => exact .swept (hd.file_step ho hs hf hfile)
      | stopped hcall hended hsame =>
        exact .stopped (hnew hcall) (ended_step i hended) (hres.trans hsame)

end Sweep

/-! ### Listings after a departure -/

section Listed

variable {sys : System} {owner : String → Process} {good : SessionRecord → Prop} {dir : Dir}
  {before during : List Input} {q : Process} {names : List String} {w : Shared} {id : String}

end Listed

end DappyCore.SharedStore
