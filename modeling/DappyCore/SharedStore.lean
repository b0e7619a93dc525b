import DappyCore.SessionMap

/-!
The sessions directory as its processes share it. A call of the store is many steps here: a save
writes its file piece by piece before it renames it, a listing reads one file after another, and
a process may end in the middle of a call.
-/

namespace DappyCore.SharedStore

open Lib Lib.Trace Lib.Keyed Instances Import SessionStore

/-- A process, told from all others there ever are: a pid is used again. -/
abbrev Process := ℕ

/-- Where a process is in a call of the store. -/
inductive Call
  | idle
  /-- The temporary file is open, and this is still to be written. -/
  | saving (record : SessionRecord) (left : List UInt8)
  /-- `delete` has seen that the file exists. -/
  | deleting (name : String)
  /-- The names still to be read, and the live records so far. -/
  | listing (names : List String) (records : List SessionRecord)
  /-- The file just read holds no record, or one that is not alive. -/
  | dropping (name : String) (names : List String) (records : List SessionRecord)

def Call.isIdle : Call → Bool
  | .idle => true
  | _ => false

/-- What does not change: the pids, and what `serde_json` makes of records. -/
structure System where
  pid : Process → UInt32
  serde : Serde

/-- The directory, the processes that run and those that have ended, who listens on a port, and
what the calls have returned. Of each id the state notes the record last put in place and not
deleted since. -/
structure Shared where
  dir : Dir
  running : List Process
  ended : Process → Bool
  ports : UInt16 → Option Process
  calls : Process → Call
  returned : List (Process × List SessionRecord)
  saved : String → Option SessionRecord

inductive Input
  | start (p : Process)
  /-- The process ends, or is killed, wherever it is. -/
  | exit (p : Process)
  | bind (p : Process) (port : UInt16)
  | save (p : Process) (record : SessionRecord)
  | delete (p : Process) (instanceId : String)
  /-- `list_active`, with the names that `read_dir` goes through. -/
  | list (p : Process) (names : List String)
  /-- The next step of the call, in which a `write` takes at most so many bytes. -/
  | advance (p : Process) (bytes : ℕ)
  /-- A `write` or the `rename` of a save fails. -/
  | fail (p : Process)

/-- A directory that no process uses yet. -/
def Shared.new (dir : Dir) : Shared where
  dir := dir
  running := []
  ended := fun _ => false
  ports := fun _ => none
  calls := fun _ => .idle
  returned := []
  saved := fun _ => none

/-- The temporary file of a record. -/
def tmpPath (instanceId : String) : String := withExtension (recordPath instanceId) "json.tmp"

/-- `records.sort_by(|a, b| a.instance_id.cmp(&b.instance_id))` -/
def sortById (records : List SessionRecord) : List SessionRecord :=
  sortBy (fun a b => decide (a ≤ b)) (·.instanceId) records

namespace Shared

/-- The process runs, and is in no call. -/
def free (w : Shared) (p : Process) : Bool := w.running.contains p && (w.calls p).isIdle

def setCall (w : Shared) (p : Process) (call : Call) : Shared :=
  { w with calls := Function.update w.calls p call }

/-- What the system says of pids and ports at this moment. -/
def oracle (sys : System) (w : Shared) : Oracle where
  isPidAlive pid := pid != 0 && w.running.any fun p => sys.pid p == pid
  isControlPortInUse port := (w.ports port).isSome

/-- The store at this moment, as a call that nothing interrupts finds it. -/
def store (sys : System) (w : Shared) (readDir : HashMap.Order String (List UInt8))
    (shown : String → String) : Store :=
  ⟨sys.serde, w.oracle sys, readDir, shown⟩

end Shared

open Shared

/-- The next step of a save: some bytes more, and the rename once all are written. No other
process saves under this id, so that the open file is the one under the temporary name. -/
def advanceSave (w : Shared) (p : Process) (record : SessionRecord) (left : List UInt8)
    (bytes : ℕ) : Shared :=
  let path := recordPath record.instanceId
  let tmp := tmpPath record.instanceId
  match left with
  | [] =>
    match rename w.dir tmp path with
    | .error _ => w.setCall p .idle
    | .ok dir =>
      { w with dir, saved := Function.update w.saved record.instanceId (some record) }.setCall p
        .idle
  | _ :: _ =>
    { w with
      dir := w.dir.insert tmp ((w.dir.lookup tmp).getD [] ++ left.take bytes) }.setCall p
        (.saving record (left.drop bytes))

/-- The next step of a listing. -/
def advanceList (sys : System) (w : Shared) (p : Process) (names : List String)
    (records : List SessionRecord) : Shared :=
  match names with
  | [] =>
    { w with returned := w.returned ++ [(p, sortById records)] }.setCall p .idle
  | name :: names =>
    if extension name = some "json" then
      match readToString w.dir name with
      | .error _ => w.setCall p (.listing names records)
      | .ok body =>
        match sys.serde.fromStr body with
        | .error _ => w.setCall p (.dropping name names records)
        | .ok record =>
          if isAlive (w.oracle sys) record then w.setCall p (.listing names (records ++ [record]))
          else w.setCall p (.dropping name names records)
    else w.setCall p (.listing names records)

def advance (sys : System) (w : Shared) (p : Process) (bytes : ℕ) : Shared :=
  match w.calls p with
  | .idle => w
  | .saving record left => advanceSave w p record left bytes
  | .deleting name => { w with dir := w.dir.erase name }.setCall p .idle
  | .listing names records => advanceList sys w p names records
  | .dropping name names records =>
    { w with dir := w.dir.erase name }.setCall p (.listing names records)

def step (sys : System) (w : Shared) : Input → Shared
  | .start p =>
    if w.running.contains p || w.ended p then w else { w with running := p :: w.running }
  | .exit p =>
    { w with
      running := w.running.filter (· ≠ p)
      ended := Function.update w.ended p true
      ports := fun port => (w.ports port).filter (· ≠ p)
      calls := Function.update w.calls p .idle }
  | .bind p port =>
    if w.running.contains p && (w.ports port).isNone then
      { w with ports := Function.update w.ports port (some p) }
    else w
  | .save p record =>
    if w.free p then
      { w with dir := w.dir.insert (tmpPath record.instanceId) [] }.setCall p
        (.saving record (sys.serde.toVecPretty record))
    else w
  | .delete p instanceId =>
    if w.free p && (w.dir.lookup (recordPath instanceId)).isSome then
      { w with saved := Function.update w.saved instanceId none }.setCall p
        (.deleting (recordPath instanceId))
    else w
  | .list p names => if w.free p then w.setCall p (.listing names []) else w
  | .advance p bytes => if w.running.contains p then advance sys w p bytes else w
  | .fail p =>
    match w.running.contains p, w.calls p with
    | true, .saving _ _ => w.setCall p .idle
    | _, _ => w

/-! ### The steps a call can take -/

section Steps

variable {sys : System} {w : Shared} {p : Process} {bytes : ℕ} {record : SessionRecord}
  {name : String} {names : List String} {records : List SessionRecord}

@[simp] lemma setCall_calls (w : Shared) (p q : Process) (call : Call) :
    (w.setCall p call).calls q = if q = p then call else w.calls q := by
  simp [setCall, Function.update_apply]

/-- What reading a file makes of a listing. -/
lemma advanceList_cons (h : extension name = some "json") {body : List UInt8}
    (hbody : w.dir.lookup name = some body) (readDir : HashMap.Order String (List UInt8))
    (shown : String → String) :
    advanceList sys w p (name :: names) records =
      if (w.store sys readDir shown).keeps body then
        w.setCall p (.listing names
          (records ++ ((w.store sys readDir shown).live body).toList))
      else w.setCall p (.dropping name names records) := by
  cases htext : Utf8.decode body with
  | none =>
    simp [advanceList, h, readToString, hbody, Store.keeps, Store.live, Store.reads, htext]
  | some text =>
    cases hparse : sys.serde.fromStr text with
    | error e =>
      simp [advanceList, h, readToString, hbody, Store.keeps, htext, Shared.store, hparse]
    | ok found =>
      by_cases halive : isAlive (w.oracle sys) found = true
      · simp [advanceList, h, readToString, hbody, Store.keeps, Store.live, Store.reads, htext,
          Shared.store, hparse, halive, Except.toOption, Option.filter_some]
      · simp [advanceList, h, readToString, hbody, Store.keeps, htext, Shared.store, hparse,
          halive]

/-- A listing changes nothing but where it is, and what has been returned. -/
lemma advanceList_frame (sys : System) (w : Shared) (p : Process) (names : List String)
    (records : List SessionRecord) : ∃ call returned,
      advanceList sys w p names records = { w with returned }.setCall p call ∧
        (∀ record left, call ≠ .saving record left) ∧ (∀ name, call ≠ .deleting name) := by
  unfold advanceList
  split
  · exact ⟨.idle, _, rfl, by simp, by simp⟩
  · split
    · split
      · exact ⟨_, w.returned, rfl, by simp, by simp⟩
      · split
        · exact ⟨_, w.returned, rfl, by simp, by simp⟩
        · split
          · exact ⟨_, w.returned, rfl, by simp, by simp⟩
          · exact ⟨_, w.returned, rfl, by simp, by simp⟩
    · exact ⟨_, w.returned, rfl, by simp, by simp⟩

end Steps

/-! ### Names -/

lemma tmpPath_eq {id : String} (h : id ≠ "") : tmpPath id = id ++ ".json.tmp" := tmp_name h

lemma tmpPath_injective {id id' : String} (h : id ≠ "") (h' : id' ≠ "")
    (he : tmpPath id = tmpPath id') : id = id' := by
  rw [tmpPath_eq h, tmpPath_eq h'] at he
  have hl := congrArg String.toList he
  simp only [String.toList_append] at hl
  exact String.toList_inj.mp (List.append_cancel_right hl)

lemma recordPath_ne_tmpPath (id : String) {id' : String} (h : id' ≠ "") :
    recordPath id ≠ tmpPath id' := by
  rw [tmpPath_eq h]
  exact recordPath_ne_tmp id id'

/-! ### What the steps keep -/

/-- The process that saves the record has ended, or it runs and listens on the port of it. -/
def Served (owner : String → Process) (w : Shared) (record : SessionRecord) : Prop :=
  w.ended (owner record.instanceId) = true ∨ owner record.instanceId ∈ w.running ∧
    w.ports record.controlPort = some (owner record.instanceId)

/-- The records that are ever saved are those of an owner, under the owner's pid. -/
structure Owned (sys : System) (owner : String → Process) (good : SessionRecord → Prop) : Prop where
  named : ∀ r, good r → r.instanceId ≠ ""
  pid : ∀ r, good r → r.pid = sys.pid (owner r.instanceId) ∧ r.pid ≠ 0
  reads : ∀ r, good r → ∃ text, Utf8.decode (sys.serde.toVecPretty r) = some text ∧
    sys.serde.fromStr text = .ok r

/-- A process saves its own records, once it listens on their port, and deletes its own files. -/
def Fits (owner : String → Process) (good : SessionRecord → Prop) (w : Shared) : Input → Prop
  | .save p r => good r ∧ owner r.instanceId = p ∧ w.ports r.controlPort = some p
  | .delete p id => owner id = p
  | _ => True

/-- What holds of the directory and the calls at every moment. -/
structure Safe (sys : System) (owner : String → Process) (good : SessionRecord → Prop)
    (w : Shared) : Prop where
  ended : ∀ p, w.ended p = true → p ∉ w.running
  whole : ∀ r₀ body, good r₀ → w.dir.lookup (recordPath r₀.instanceId) = some body →
    ∃ r, good r ∧ r.instanceId = r₀.instanceId ∧ Served owner w r ∧
      body = sys.serde.toVecPretty r
  saving : ∀ p r left, w.calls p = .saving r left → good r ∧ owner r.instanceId = p ∧
    Served owner w r ∧ ∃ written, w.dir.lookup (tmpPath r.instanceId) = some written ∧
      written ++ left = sys.serde.toVecPretty r
  saved : ∀ id r, w.saved id = some r → good r ∧ r.instanceId = id ∧ Served owner w r ∧
    (owner id ∈ w.running → w.dir.lookup (recordPath id) = some (sys.serde.toVecPretty r))
  deleting : ∀ p name, w.calls p = .deleting name →
    ∃ id, name = recordPath id ∧ owner id = p ∧ w.saved id = none
  dropping : ∀ p name names records, w.calls p = .dropping name names records →
    ∃ id, name = recordPath id ∧ ∀ r, good r → r.instanceId = id → w.ended (owner id) = true

section Safety

variable {sys : System} {owner : String → Process} {good : SessionRecord → Prop} {w : Shared}
  {p : Process} {r : SessionRecord}

/-- Who runs, and who listens, does not depend on the calls. -/
lemma advance_frame (sys : System) (w : Shared) (p : Process) (bytes : ℕ) :
    (advance sys w p bytes).running = w.running ∧ (advance sys w p bytes).ended = w.ended ∧
      (advance sys w p bytes).ports = w.ports := by
  unfold advance
  split
  · exact ⟨rfl, rfl, rfl⟩
  · unfold advanceSave
    dsimp only
    split
    · split <;> exact ⟨rfl, rfl, rfl⟩
    · exact ⟨rfl, rfl, rfl⟩
  · exact ⟨rfl, rfl, rfl⟩
  · obtain ⟨call, returned, he, -⟩ := advanceList_frame sys w p _ _
    rw [he]
    exact ⟨rfl, rfl, rfl⟩
  · exact ⟨rfl, rfl, rfl⟩

lemma served_congr {w' : Shared} (he : w'.ended = w.ended) (hr : w'.running = w.running)
    (hp : w'.ports = w.ports) : Served owner w' r ↔ Served owner w r := by
  rw [Served, Served, he, hr, hp]

/-- **Once served** a record is served until its process ends. -/
lemma served_step (h : Served owner w r) (i : Input) : Served owner (step sys w i) r := by
  cases i with
  | start q =>
    simp only [step]
    split_ifs
    · exact h
    · exact h.imp id fun hr => ⟨List.mem_cons_of_mem _ hr.1, hr.2⟩
  | exit q =>
    by_cases hq : owner r.instanceId = q
    · exact .inl (by simp [step, hq])
    · refine h.imp (fun he => ?_) fun hr => ⟨?_, ?_⟩
      · simp [step, Function.update_of_ne hq, he]
      · simp [step, hr.1, hq]
      · simp [step, hr.2, Option.filter_some, hq]
  | bind q port =>
    simp only [step]
    split_ifs with hc
    · -- a port that is in use is not bound again
      refine h.imp id fun hr => ⟨hr.1, ?_⟩
      have hne : r.controlPort ≠ port := by
        rintro rfl
        simp [hr.2] at hc
      simp [Function.update_of_ne hne, hr.2]
    · exact h
  | save q r' => simp only [step]; split_ifs <;> exact h
  | delete q id => simp only [step]; split_ifs <;> exact h
  | list q names => simp only [step]; split_ifs <;> exact h
  | advance q bytes =>
    simp only [step]
    split_ifs
    · obtain ⟨hr, he, hp⟩ := advance_frame sys w q bytes
      exact (served_congr he hr hp).mpr h
    · exact h
  | fail q => simp only [step]; split <;> exact h

/-- A call that goes on, and leaves the directory alone. -/
lemma Safe.setCall {call : Call} (h : Safe sys owner good w)
    (returned : List (Process × List SessionRecord)) (hs : ∀ r left, call ≠ .saving r left)
    (hd : ∀ name, call ≠ .deleting name)
    (hdrop : ∀ name names records, call = .dropping name names records →
      ∃ id, name = recordPath id ∧ ∀ r, good r → r.instanceId = id → w.ended (owner id) = true) :
    Safe sys owner good ({ w with returned }.setCall p call) where
  ended := h.ended
  whole := h.whole
  saving q r left hq := by
    rw [setCall_calls] at hq
    split_ifs at hq
    · exact absurd hq (hs r left)
    · exact h.saving q r left hq
  saved := h.saved
  deleting q name hq := by
    rw [setCall_calls] at hq
    split_ifs at hq
    · exact absurd hq (hd name)
    · exact h.deleting q name hq
  dropping q name names records hq := by
    rw [setCall_calls] at hq
    split_ifs at hq
    · exact hdrop name names records hq
    · exact h.dropping q name names records hq

lemma Safe.idle (h : Safe sys owner good w) (p : Process) :
    Safe sys owner good (w.setCall p .idle) :=
  h.setCall w.returned (by simp) (by simp) (by simp)

/-- Some of a record is in its temporary file, and this is left. -/
lemma Safe.write (ho : Owned sys owner good) (h : Safe sys owner good w) (hg : good r)
    (hp : owner r.instanceId = p) (hsv : Served owner w r) {written left : List UInt8}
    (happ : written ++ left = sys.serde.toVecPretty r) :
    Safe sys owner good ({ w with
      dir := w.dir.insert (tmpPath r.instanceId) written }.setCall p (.saving r left)) where
  ended := h.ended
  whole r₀ body hg₀ hb := by
    have hne := recordPath_ne_tmpPath r₀.instanceId (ho.named r hg)
    exact h.whole r₀ body hg₀ ((AList.lookup_insert_ne hne).symm.trans hb)
  saving q r' left' hq := by
    rw [setCall_calls] at hq
    split_ifs at hq with hqp
    · obtain ⟨rfl, rfl⟩ := Call.saving.inj hq
      exact ⟨hg, hp.trans hqp.symm, hsv, written, AList.lookup_insert .., happ⟩
    · obtain ⟨hg', hp', hsv', written', hw, happ'⟩ := h.saving q r' left' hq
      have hne : tmpPath r'.instanceId ≠ tmpPath r.instanceId := by
        intro he
        have hid := tmpPath_injective (ho.named r' hg') (ho.named r hg) he
        exact hqp (hp'.symm.trans (hid ▸ hp))
      exact ⟨hg', hp', hsv', written', (AList.lookup_insert_ne hne).trans hw, happ'⟩
  saved id r' hr' := by
    obtain ⟨hg', hid, hsv', hlook⟩ := h.saved id r' hr'
    have hne := recordPath_ne_tmpPath id (ho.named r hg)
    exact ⟨hg', hid, hsv', fun hrun => (AList.lookup_insert_ne hne).trans (hlook hrun)⟩
  deleting q name hq := by
    rw [setCall_calls] at hq
    split_ifs at hq
    exact h.deleting q name hq
  dropping q name names records hq := by
    rw [setCall_calls] at hq
    split_ifs at hq
    exact h.dropping q name names records hq

/-- The file of a record goes that no running process has put in place. -/
lemma Safe.erase (ho : Owned sys owner good) (h : Safe sys owner good w) {name : String}
    (hname : ∃ id, name = recordPath id ∧ ∀ r, w.saved id = some r → owner id ∉ w.running) :
    Safe sys owner good { w with dir := w.dir.erase name } := by
  obtain ⟨id₀, rfl, hid₀⟩ := hname
  exact
  { ended := h.ended
    whole := fun r₀ body hg₀ hb => by
      refine h.whole r₀ body hg₀ ?_
      have hb' : (w.dir.erase (recordPath id₀)).lookup (recordPath r₀.instanceId) = some body := hb
      rw [HashMap.lookup_erase_of] at hb'
      split_ifs at hb'
      exact hb'
    saving := fun q r left hq => by
      obtain ⟨hg, hp, hsv, written, hw, happ⟩ := h.saving q r left hq
      have hne := (recordPath_ne_tmpPath id₀ (ho.named r hg)).symm
      exact ⟨hg, hp, hsv, written, (AList.lookup_erase_ne hne).trans hw, happ⟩
    saved := fun id r hr => by
      obtain ⟨hg, hid, hsv, hlook⟩ := h.saved id r hr
      refine ⟨hg, hid, hsv, fun hrun => ?_⟩
      have hne : recordPath id ≠ recordPath id₀ := by
        intro he
        obtain rfl := recordPath_injective he
        exact hid₀ r hr hrun
      exact (AList.lookup_erase_ne hne).trans (hlook hrun)
    deleting := h.deleting
    dropping := h.dropping }

/-- A record is in place once its temporary file is renamed. -/
lemma Safe.commit (ho : Owned sys owner good) (h : Safe sys owner good w)
    (hc : w.calls p = .saving r []) : Safe sys owner good (advanceSave w p r [] 0) := by
  obtain ⟨hg, hp, hsv, written, hw, happ⟩ := h.saving p r [] hc
  rw [List.append_nil] at happ
  -- of all the records' files the rename touches the one
  have hdir : ∀ id, (((w.dir.erase (tmpPath r.instanceId)).insert (recordPath r.instanceId)
      written).lookup (recordPath id)) =
        if id = r.instanceId then some written else w.dir.lookup (recordPath id) := by
    intro id
    rw [HashMap.lookup_insert_of]
    by_cases hid : id = r.instanceId
    · rw [if_pos hid, if_pos (by rw [hid])]
    · rw [if_neg hid, if_neg fun he => hid (recordPath_injective he),
        AList.lookup_erase_ne (recordPath_ne_tmpPath id (ho.named r hg))]
  simp only [advanceSave, rename, hw]
  exact
  { ended := h.ended
    whole := fun r₀ body hg₀ hb => by
      have hb' := (hdir r₀.instanceId).symm.trans hb
      split_ifs at hb' with hid
      · exact ⟨r, hg, hid.symm, hsv, (Option.some.inj hb').symm.trans happ⟩
      · exact h.whole r₀ body hg₀ hb'
    saving := fun q r' left hq => by
      rw [setCall_calls] at hq
      split_ifs at hq with hqp
      obtain ⟨hg', hp', hsv', written', hw', happ'⟩ := h.saving q r' left hq
      have hid : r'.instanceId ≠ r.instanceId := fun he => hqp (hp'.symm.trans (he ▸ hp))
      -- another save has another temporary file
      have hne : tmpPath r'.instanceId ≠ tmpPath r.instanceId := fun he =>
        hid (tmpPath_injective (ho.named r' hg') (ho.named r hg) he)
      refine ⟨hg', hp', hsv', written', ?_, happ'⟩
      have hne' := (recordPath_ne_tmpPath r.instanceId (ho.named r' hg')).symm
      exact (AList.lookup_insert_ne hne').trans ((AList.lookup_erase_ne hne).trans hw')
    saved := fun id r' hr' => by
      have hr := (Function.update_apply w.saved r.instanceId (some r) id).symm.trans hr'
      split_ifs at hr with hid
      · obtain rfl := Option.some.inj hr
        refine ⟨hg, hid.symm, hsv, fun _ => ?_⟩
        exact (hdir id).trans (by rw [if_pos hid, happ])
      · obtain ⟨hg', hid', hsv', hlook⟩ := h.saved id r' hr
        exact ⟨hg', hid', hsv', fun hrun => (hdir id).trans (by rw [if_neg hid, hlook hrun])⟩
    deleting := fun q name hq => by
      rw [setCall_calls] at hq
      split_ifs at hq with hqp
      obtain ⟨id, rfl, ho', hnone⟩ := h.deleting q name hq
      have hid : id ≠ r.instanceId := fun he => hqp (ho'.symm.trans (he ▸ hp))
      exact ⟨id, rfl, ho', (Function.update_of_ne hid _ _).trans hnone⟩
    dropping := fun q name names records hq => by
      rw [setCall_calls] at hq
      split_ifs at hq
      exact h.dropping q name names records hq }

/-- The record of a process that runs and listens is alive. -/
lemma isAlive_of_running (ho : Owned sys owner good) (hg : good r)
    (hrun : owner r.instanceId ∈ w.running)
    (hport : w.ports r.controlPort = some (owner r.instanceId)) :
    isAlive (w.oracle sys) r = true := by
  obtain ⟨hpid, hne⟩ := ho.pid r hg
  have hany : w.running.any (fun p => sys.pid p == r.pid) = true :=
    List.any_eq_true.mpr ⟨_, hrun, by simp [hpid]⟩
  simp only [isAlive, Shared.oracle, hany, hport, Bool.and_true, Option.isSome_some, bne_iff_ne]
  exact hne

/-- The files of processes that run are kept when they are read. -/
lemma keeps_of_good (ho : Owned sys owner good) (hg : good r) (hsv : Served owner w r)
    (hend : w.ended (owner r.instanceId) ≠ true) (readDir : HashMap.Order String (List UInt8))
    (shown : String → String) :
    (w.store sys readDir shown).live (sys.serde.toVecPretty r) = some r ∧
      (w.store sys readDir shown).keeps (sys.serde.toVecPretty r) = true := by
  obtain ⟨hrun, hport⟩ := hsv.resolve_left hend
  have halive := isAlive_of_running ho hg hrun hport
  obtain ⟨text, htext, hparse⟩ := ho.reads r hg
  have hlive : (w.store sys readDir shown).live (sys.serde.toVecPretty r) = some r := by
    simp [Store.live, Store.reads, Shared.store, htext, hparse, Except.toOption,
      Option.filter_some, halive]
  exact ⟨hlive, Store.keeps_of_live hlive⟩

/-- A listing goes on. -/
lemma Safe.list (ho : Owned sys owner good) (h : Safe sys owner good w) (names : List String)
    (records : List SessionRecord) : Safe sys owner good (advanceList sys w p names records) := by
  cases names with
  | nil => exact h.setCall _ (by simp) (by simp) (by simp)
  | cons name names =>
    have hnext : ∀ more, Safe sys owner good (w.setCall p (.listing names more)) :=
      fun more => h.setCall w.returned (by simp) (by simp) (by simp)
    by_cases hext : extension name = some "json"
    · cases hb : w.dir.lookup name with
      | none =>
        simp only [advanceList, hext, if_true, readToString, hb]
        exact hnext records
      | some body =>
        rw [advanceList_cons hext hb .listed id]
        split_ifs with hkeeps
        · exact hnext _
        · refine h.setCall w.returned (by simp) (by simp) fun n ns rs hc => ?_
          obtain ⟨rfl, -, -⟩ := Call.dropping.inj hc
          obtain ⟨i, -, rfl⟩ := exists_id_of_extension hext
          refine ⟨i, rfl, fun r hg hid => ?_⟩
          obtain ⟨r', hg', hid', hsv, rfl⟩ := h.whole r body hg (by rw [hid, hb])
          by_contra hend
          rw [← hid, ← hid'] at hend
          exact hkeeps (keeps_of_good ho hg' hsv hend _ _).2
    · simp only [advanceList, hext, if_false]
      exact hnext records

/-- Processes come and go: what the directory holds does not change. -/
lemma Safe.environment {w' : Shared} (h : Safe sys owner good w) (hdir : w'.dir = w.dir)
    (hsaved : w'.saved = w.saved) (hcalls : ∀ p, w'.calls p = w.calls p ∨ w'.calls p = .idle)
    (hend : ∀ p, w'.ended p = true → p ∉ w'.running)
    (hmore : ∀ p, w.ended p = true → w'.ended p = true)
    (hserved : ∀ r, Served owner w r → Served owner w' r) : Safe sys owner good w' where
  ended := hend
  whole r₀ body hg hb := by
    obtain ⟨r, hr, hid, hsv, hbody⟩ := h.whole r₀ body hg (hdir ▸ hb)
    exact ⟨r, hr, hid, hserved r hsv, hbody⟩
  saving p r left hc := by
    rcases hcalls p with he | he
    · obtain ⟨hg, hp, hsv, hrest⟩ := h.saving p r left (he ▸ hc)
      exact ⟨hg, hp, hserved r hsv, hdir ▸ hrest⟩
    · simp [he] at hc
  saved id r hr := by
    obtain ⟨hg, hid, hsv, hlook⟩ := h.saved id r (hsaved ▸ hr)
    refine ⟨hg, hid, hserved r hsv, fun hrun => ?_⟩
    rw [hdir]
    rw [Served, hid] at hsv
    rcases hsv with he | ⟨hrun', -⟩
    · exact absurd hrun (hend _ (hmore _ he))
    · exact hlook hrun'
  deleting p name hc := by
    rcases hcalls p with he | he
    · rw [hsaved]
      exact h.deleting p name (he ▸ hc)
    · simp [he] at hc
  dropping p name names records hc := by
    rcases hcalls p with he | he
    · obtain ⟨id, hname, hall⟩ := h.dropping p name names records (he ▸ hc)
      exact ⟨id, hname, fun r hg hid => hmore _ (hall r hg hid)⟩
    · simp [he] at hc

/-- The next step of a call. -/
lemma Safe.advance (ho : Owned sys owner good) (h : Safe sys owner good w) (bytes : ℕ) :
    Safe sys owner good (advance sys w p bytes) := by
  unfold SharedStore.advance
  split
  · exact h
  · rename_i r left hc
    cases left with
    | nil => exact h.commit ho hc
    | cons b left =>
      obtain ⟨hg, hp, hsv, written, hw, happ⟩ := h.saving p r _ hc
      refine h.write ho hg hp hsv ?_
      simp only [hw, Option.getD_some]
      rw [List.append_assoc, List.take_append_drop, happ]
  · rename_i name hc
    obtain ⟨id, hname, -, hnone⟩ := h.deleting p name hc
    exact (h.erase ho ⟨id, hname, by simp [hnone]⟩).idle p
  · exact h.list ho _ _
  · rename_i name names records hc
    obtain ⟨id, hname, hall⟩ := h.dropping p name names records hc
    refine (h.erase ho ⟨id, hname, fun r hr => ?_⟩).setCall w.returned (by simp) (by simp) (by simp)
    obtain ⟨hg, hid, -, -⟩ := h.saved id r hr
    exact h.ended _ (hall r hg hid)

/-- The owner begins to delete its file. -/
lemma Safe.delete {id : String} (h : Safe sys owner good w) (hid : owner id = p) :
    Safe sys owner good ({ w with saved := Function.update w.saved id none }.setCall p
      (.deleting (recordPath id))) where
  ended := h.ended
  whole := h.whole
  saving q r left hq := by
    rw [setCall_calls] at hq
    split_ifs at hq
    exact h.saving q r left hq
  saved id' r hr := by
    have hr' := (Function.update_apply w.saved id none id').symm.trans hr
    split_ifs at hr'
    exact h.saved id' r hr'
  deleting q name hq := by
    rw [setCall_calls] at hq
    split_ifs at hq with hqp
    · obtain rfl := Call.deleting.inj hq
      exact ⟨id, rfl, hid.trans hqp.symm, Function.update_self ..⟩
    · obtain ⟨id', hname, howner, hnone⟩ := h.deleting q name hq
      refine ⟨id', hname, howner, ?_⟩
      have hu := Function.update_apply w.saved id none id'
      split_ifs at hu
      · exact hu
      · exact hu.trans hnone
  dropping q name names records hq := by
    rw [setCall_calls] at hq
    split_ifs at hq
    exact h.dropping q name names records hq

/-- **One step** of any process keeps the directory safe. -/
theorem Safe.step (ho : Owned sys owner good) (h : Safe sys owner good w) {i : Input}
    (hi : Fits owner good w i) : Safe sys owner good (step sys w i) := by
  -- whoever was served is so until its process ends
  have hserved : ∀ r, Served owner w r → Served owner (SharedStore.step sys w i) r :=
    fun r hr => served_step hr i
  cases i with
  | start q =>
    simp only [SharedStore.step] at hserved ⊢
    split_ifs at hserved ⊢ with hc
    · exact h
    · refine h.environment rfl rfl (fun p => .inl rfl) (fun p hp hmem => ?_) (fun p hp => hp)
        hserved
      rcases List.mem_cons.mp hmem with rfl | hmem
      · exact hc (by simp [show w.ended p = true from hp])
      · exact h.ended p hp hmem
  | exit q =>
    refine h.environment rfl rfl (fun p => ?_) (fun p hp hmem => ?_) (fun p hp => ?_) hserved
    · -- the call that the process was in is broken off
      by_cases hpq : p = q
      · exact .inr (by simp [SharedStore.step, hpq])
      · exact .inl (by simp [SharedStore.step, hpq])
    · obtain ⟨hmem, hpq⟩ := List.mem_filter.mp hmem
      have hne : p ≠ q := by simpa using hpq
      exact h.ended p (by simpa [SharedStore.step, hne] using hp) hmem
    · by_cases hpq : p = q
      · simp [SharedStore.step, hpq]
      · simp [SharedStore.step, hpq, hp]
  | bind q port =>
    simp only [SharedStore.step] at hserved ⊢
    split_ifs at hserved ⊢
    · exact h.environment rfl rfl (fun p => .inl rfl) h.ended (fun p hp => hp) hserved
    · exact h
  | save q r =>
    simp only [SharedStore.step]
    split_ifs with hfree
    · -- a save is of the process's own record, whose port it listens on
      obtain ⟨hg, hp, hport⟩ := hi
      have hrun : q ∈ w.running := by simpa using (Bool.and_eq_true_iff.mp hfree).1
      exact h.write ho hg hp (.inr ⟨hp.symm ▸ hrun, hp.symm ▸ hport⟩) rfl
    · exact h
  | delete q id =>
    simp only [SharedStore.step]
    split_ifs
    · exact h.delete hi
    · exact h
  | list q names =>
    simp only [SharedStore.step]
    split_ifs
    · exact h.setCall w.returned (by simp) (by simp) (by simp)
    · exact h
  | advance q bytes =>
    simp only [SharedStore.step]
    split_ifs
    · exact h.advance ho bytes
    · exact h
  | fail q =>
    simp only [SharedStore.step]
    split
    · exact h.idle q
    · exact h

/-- **A run** keeps the directory safe. -/
theorem Safe.run (ho : Owned sys owner good) {inputs : List Input}
    (hi : Along (SharedStore.step sys) (Fits owner good) w inputs)
    (h : Safe sys owner good w) : Safe sys owner good (inputs.foldl (SharedStore.step sys) w) := by
  induction inputs generalizing w with
  | nil => exact h
  | cons i inputs ih => exact ih hi.2 (h.step ho hi.1)

end Safety

lemma safe_new (sys : System) (owner : String → Process) {good : SessionRecord → Prop} {dir : Dir}
    (hnew : ∀ r, good r → dir.lookup (recordPath r.instanceId) = none) :
    Safe sys owner good (.new dir) where
  ended p hp := by simp [Shared.new] at hp
  whole r₀ body hg hb := by
    rw [show (Shared.new dir).dir = dir from rfl, hnew r₀ hg] at hb
    cases hb
  saving p r left hc := by simp [Shared.new] at hc
  saved id r hr := by simp [Shared.new] at hr
  deleting p name hc := by simp [Shared.new] at hc
  dropping p name names records hc := by simp [Shared.new] at hc

/-- **No torn and no lost session**: whatever the processes do, and wherever they are killed, the
file of an id holds a whole record that its owner saved; and while the owner runs, the record it
put in place last is there until it deletes it, every listing that comes to it takes it, and no
listing is about to drop it. -/
theorem sessions_kept {sys : System} {owner : String → Process} {good : SessionRecord → Prop}
    (ho : Owned sys owner good) {dir : Dir} {inputs : List Input}
    (hnew : ∀ r, good r → dir.lookup (recordPath r.instanceId) = none)
    (hi : Along (step sys) (Fits owner good) (.new dir) inputs) :
    let w := inputs.foldl (step sys) (.new dir)
    (∀ r₀ body, good r₀ → w.dir.lookup (recordPath r₀.instanceId) = some body →
      ∃ r, good r ∧ r.instanceId = r₀.instanceId ∧ body = sys.serde.toVecPretty r) ∧
    ∀ id r, w.saved id = some r → owner id ∈ w.running →
      w.dir.lookup (recordPath id) = some (sys.serde.toVecPretty r) ∧
      (∀ readDir shown, (w.store sys readDir shown).get w.dir id = (w.dir, .ok (some r))) ∧
      (∀ q names records bytes, q ∈ w.running →
        w.calls q = .listing (recordPath id :: names) records →
        step sys w (.advance q bytes) = w.setCall q (.listing names (records ++ [r]))) ∧
      ∀ q name names records, w.calls q = .dropping name names records → name ≠ recordPath id := by
  intro w
  have h : Safe sys owner good w := (safe_new sys owner hnew).run ho hi
  refine ⟨fun r₀ body hg hb => ?_, fun id r hr hrun => ?_⟩
  · obtain ⟨r, hg', hid, -, hbody⟩ := h.whole r₀ body hg hb
    exact ⟨r, hg', hid, hbody⟩
  · obtain ⟨hg, rfl, hsv, hlook⟩ := h.saved id r hr
    have hfile := hlook hrun
    have hend : w.ended (owner r.instanceId) ≠ true := fun he => h.ended _ he hrun
    have hkeeps := fun readDir shown => keeps_of_good ho hg hsv hend readDir shown
    refine ⟨hfile, fun readDir shown => ?_, fun q names records bytes hq hc => ?_,
      fun q name names records hc he => ?_⟩
    · -- the record is what a get reads and keeps
      obtain ⟨hlive, hkeep⟩ := hkeeps readDir shown
      obtain ⟨hreads, halive⟩ := Option.filter_eq_some_iff.mp hlive
      rw [Store.get_record hfile hreads, Store.pruned_of_keeps hfile hkeep, if_pos halive]
    · -- and what a listing takes along
      obtain ⟨hlive, hkeep⟩ := hkeeps .listed (fun name => name)
      have hq' : w.running.contains q = true := by simpa using hq
      simp only [step, hq', if_true, advance, hc]
      rw [advanceList_cons (extension_recordPath (ho.named r hg)) hfile .listed (fun name => name),
        if_pos hkeep, hlive]
      rfl
    · -- what is about to be dropped is of processes that have ended
      obtain ⟨id, hname, hall⟩ := h.dropping q name names records hc
      have hid := recordPath_injective (he.symm.trans hname)
      exact hend (hid ▸ hall r hg hid)

/-! ### Calls that nothing interrupts -/

section Alone

variable {sys : System} {w : Shared} {p : Process} {r : SessionRecord}

/-- So many steps of a process in turn, with the bytes that a write takes. -/
def advances (p : Process) (writes : List ℕ) : List Input := writes.map (.advance p)

@[simp] lemma setCall_setCall (w : Shared) (p : Process) (call call' : Call) :
    (w.setCall p call).setCall p call' = w.setCall p call' := by
  simp [Shared.setCall]

lemma setCall_idle (h : w.calls p = .idle) : w.setCall p .idle = w := by
  simp [Shared.setCall, ← h]

lemma advances_idle (h : w.calls p = .idle) (writes : List ℕ) :
    (advances p writes).foldl (step sys) w = w := by
  induction writes with
  | nil => rfl
  | cons n writes ih =>
    have hstep : step sys w (.advance p n) = w := by simp [step, advance, h]
    rw [advances, List.map_cons, List.foldl_cons, hstep]
    exact ih

lemma step_advance (hp : p ∈ w.running) (n : ℕ) :
    step sys w (.advance p n) = advance sys w p n := by
  simp [step, hp]

/-- The rest of a save, whatever the pieces are in which it is written. -/
lemma save_rest (hp : p ∈ w.running) (dir : Dir) (written left : List UInt8) {writes : List ℕ}
    (hpos : ∀ n ∈ writes, 0 < n) (hlen : left.length < writes.length) :
    (advances p writes).foldl (step sys)
        ({ w with dir := dir.insert (tmpPath r.instanceId) written }.setCall p (.saving r left)) =
      { w with
        dir := ((dir.insert (tmpPath r.instanceId) (written ++ left)).erase
          (tmpPath r.instanceId)).insert (recordPath r.instanceId) (written ++ left)
        saved := Function.update w.saved r.instanceId (some r) }.setCall p .idle := by
  induction writes generalizing written left with
  -- the pieces are more than the bytes, so that a turn is left to rename
  | nil => simp at hlen
  | cons n writes ih =>
    rw [advances, List.map_cons, List.foldl_cons]
    cases left with
    | nil =>
      -- all is written: the temporary file is renamed
      have hstep : step sys
          ({ w with dir := dir.insert (tmpPath r.instanceId) written }.setCall p (.saving r []))
          (.advance p n) = { w with
            dir := ((dir.insert (tmpPath r.instanceId) written).erase
              (tmpPath r.instanceId)).insert (recordPath r.instanceId) written
            saved := Function.update w.saved r.instanceId (some r) }.setCall p .idle := by
        rw [step_advance (by exact hp)]
        simp [advance, advanceSave, rename, Shared.setCall]
      rw [hstep, List.append_nil]
      exact advances_idle (by simp) writes
    | cons b left =>
      have hstep : step sys
          ({ w with dir := dir.insert (tmpPath r.instanceId) written }.setCall p
            (.saving r (b :: left))) (.advance p n) =
          { w with
            dir := dir.insert (tmpPath r.instanceId) (written ++ (b :: left).take n) }.setCall p
              (.saving r ((b :: left).drop n)) := by
        rw [step_advance (by exact hp)]
        simp [advance, advanceSave, Shared.setCall]
      have hn := hpos n List.mem_cons_self
      have hshort : ((b :: left).drop n).length < writes.length := by
        rw [List.length_drop]
        simp only [List.length_cons] at hlen ⊢
        omega
      rw [hstep]
      have hrest := ih (written ++ (b :: left).take n) ((b :: left).drop n)
        (fun m hm => hpos m (List.mem_cons_of_mem _ hm)) hshort
      rw [List.append_assoc, List.take_append_drop] at hrest
      exact hrest

/-- A save that nothing interrupts. -/
lemma save_alone (hp : p ∈ w.running) (hidle : w.calls p = .idle) {writes : List ℕ}
    (hpos : ∀ n ∈ writes, 0 < n) (hlen : (sys.serde.toVecPretty r).length < writes.length)
    (readDir : HashMap.Order String (List UInt8)) (shown : String → String) :
    (.save p r :: advances p writes).foldl (step sys) w =
      { w with
        dir := ((w.store sys readDir shown).save w.dir r).1
        saved := Function.update w.saved r.instanceId (some r) } := by
  have hstep : step sys w (.save p r) =
      { w with dir := w.dir.insert (tmpPath r.instanceId) [] }.setCall p
        (.saving r (sys.serde.toVecPretty r)) := by
    simp [step, Shared.free, hp, hidle, Call.isIdle]
  have hsave : ((w.store sys readDir shown).save w.dir r).1 =
      ((w.dir.insert (tmpPath r.instanceId) (sys.serde.toVecPretty r)).erase
        (tmpPath r.instanceId)).insert (recordPath r.instanceId) (sys.serde.toVecPretty r) := by
    rw [Store.save, Store.rename_insert]
    rfl
  rw [List.foldl_cons, hstep, save_rest hp w.dir [] _ hpos hlen, hsave]
  exact setCall_idle hidle

/-- So many steps, and then one before them. -/
lemma advances_succ {u v : Shared} (h : step sys u (.advance p 0) = v) (k : ℕ) :
    (advances p (List.replicate (k + 1) 0)).foldl (step sys) u =
      (advances p (List.replicate k 0)).foldl (step sys) v := by
  rw [← h]
  rfl

/-- One name of a listing takes a step, or two where the file is dropped. -/
lemma list_name (hp : p ∈ w.running) (name : String) (names : List String) (dir : Dir)
    (records : List SessionRecord) (readDir : HashMap.Order String (List UInt8))
    (shown : String → String) : ∃ j dir' records',
      (w.store sys readDir shown).readEach (name :: names) dir records =
          (w.store sys readDir shown).readEach names dir' records' ∧
        ∀ k, (advances p (List.replicate (k + j) 0)).foldl (step sys)
            ({ w with dir }.setCall p (.listing (name :: names) records)) =
          (advances p (List.replicate k 0)).foldl (step sys)
            ({ w with dir := dir' }.setCall p (.listing names records')) := by
  set u := { w with dir }.setCall p (.listing (name :: names) records) with hu
  -- one turn, whatever it does
  have hone : ∀ {call},
      advanceList sys u p (name :: names) records = { w with dir }.setCall p call →
        step sys u (.advance p 0) = { w with dir }.setCall p call := by
    intro call h
    rw [step_advance (by exact hp), ← h]
    simp [advance, hu]
  by_cases hext : extension name = some "json"
  · cases hb : dir.lookup name with
    | none =>
      -- the file has gone since the directory was read
      refine ⟨1, dir, records, ?_, advances_succ (hone ?_)⟩
      · rw [Store.readEach_cons hext, hb, Store.pruned_of_missing hb]
        simp
      · simp [hu, advanceList, hext, readToString, hb, Shared.setCall]
    | some body =>
      have hread : advanceList sys u p (name :: names) records =
          if (w.store sys readDir shown).keeps body then
            u.setCall p (.listing names
              (records ++ ((w.store sys readDir shown).live body).toList))
          else u.setCall p (.dropping name names records) :=
        advanceList_cons hext hb readDir shown
      by_cases hkeeps : (w.store sys readDir shown).keeps body = true
      · refine ⟨1, dir, records ++ ((w.store sys readDir shown).live body).toList, ?_,
          advances_succ (hone (hread.trans ((if_pos hkeeps).trans (setCall_setCall ..))))⟩
        rw [Store.readEach_cons hext, hb, Store.pruned_of_keeps hb hkeeps]
        simp
      · -- a file that is not kept is dropped at the next turn
        have hlive : (w.store sys readDir shown).live body = none := by
          by_contra hne
          obtain ⟨r, hr⟩ := Option.ne_none_iff_exists'.mp hne
          exact hkeeps (Store.keeps_of_live hr)
        have hdrop : step sys ({ w with dir }.setCall p (.dropping name names records))
            (.advance p 0) = { w with dir := dir.erase name }.setCall p
              (.listing names records) := by
          rw [step_advance (by exact hp)]
          simp [advance, Shared.setCall]
        refine ⟨2, dir.erase name, records, ?_, fun k => ?_⟩
        · rw [Store.readEach_cons hext, hb, Option.bind_some, hlive,
            Store.pruned_of_drops hb (by simpa using hkeeps)]
          simp
        · rw [advances_succ (hone (hread.trans ((if_neg hkeeps).trans (setCall_setCall ..)))),
            advances_succ hdrop]
  · -- a name that is no record's is passed over
    refine ⟨1, dir, records, ?_, advances_succ (hone ?_)⟩
    · rw [Store.readEach, if_neg hext]
    · simp [hu, advanceList, hext, Shared.setCall]

/-- A listing that nothing interrupts, from where it is. -/
lemma list_rest (hp : p ∈ w.running) (names : List String) (dir : Dir)
    (records : List SessionRecord) (readDir : HashMap.Order String (List UInt8))
    (shown : String → String) : ∃ k,
      (advances p (List.replicate k 0)).foldl (step sys)
          ({ w with dir }.setCall p (.listing names records)) =
        { w with
          dir := ((w.store sys readDir shown).readEach names dir records).1
          returned := w.returned ++
            [(p, sortById ((w.store sys readDir shown).readEach names dir records).2)] }.setCall p
              .idle := by
  induction names generalizing dir records with
  | nil =>
    refine ⟨1, ?_⟩
    have hstep : step sys ({ w with dir }.setCall p (.listing [] records)) (.advance p 0) =
        { w with dir, returned := w.returned ++ [(p, sortById records)] }.setCall p .idle := by
      rw [step_advance (by exact hp)]
      simp [advance, advanceList, Shared.setCall]
    rw [advances_succ hstep]
    rfl
  | cons name names ih =>
    obtain ⟨j, dir', records', heq, hj⟩ := list_name hp name names dir records readDir shown
    obtain ⟨k, hk⟩ := ih dir' records'
    exact ⟨k + j, by rw [hj, hk, heq]⟩

/-- **A call that nothing interrupts** does what the store's own model says: a save, in whatever
pieces it is written, a deletion, and a listing of the names that are there. -/
theorem undisturbed_calls (hp : p ∈ w.running) (hidle : w.calls p = .idle)
    (readDir : HashMap.Order String (List UInt8)) (shown : String → String) :
    let store := w.store sys readDir shown
    (∀ r writes, (∀ n ∈ writes, 0 < n) → (sys.serde.toVecPretty r).length < writes.length →
      (.save p r :: advances p writes).foldl (step sys) w =
        { w with
          dir := (store.save w.dir r).1
          saved := Function.update w.saved r.instanceId (some r) }) ∧
    (∀ id, ∃ saved, [.delete p id, .advance p 0].foldl (step sys) w =
      { w with dir := (SessionStore.Store.delete w.dir id).1, saved }) ∧
    ∃ k records, (store.listActive w.dir).2 = .ok records ∧
      (.list p ((readDir.visit w.dir).map (·.1)) :: advances p (List.replicate k 0)).foldl
          (step sys) w =
        { w with dir := (store.listActive w.dir).1, returned := w.returned ++ [(p, records)] } := by
  intro store
  refine ⟨fun r writes hpos hlen => save_alone hp hidle hpos hlen readDir shown, fun id => ?_, ?_⟩
  · cases hb : w.dir.lookup (recordPath id) with
    | none =>
      refine ⟨w.saved, ?_⟩
      simp [step, hb, Store.delete, advance, hidle, hp]
    | some body =>
      refine ⟨Function.update w.saved id none, ?_⟩
      simp [step, hb, Store.delete, advance, hidle, hp, Shared.free, Call.isIdle, Shared.setCall]
  · have hstep : step sys w (.list p ((readDir.visit w.dir).map (·.1))) =
        w.setCall p (.listing ((readDir.visit w.dir).map (·.1)) []) := by
      simp [step, Shared.free, hp, hidle, Call.isIdle]
    obtain ⟨k, hk⟩ := list_rest hp ((readDir.visit w.dir).map (·.1)) w.dir [] readDir shown
    refine ⟨k, _, rfl, ?_⟩
    rw [List.foldl_cons, hstep]
    exact hk.trans (setCall_idle hidle)

end Alone

/-! ### Two sessions -/

/-- The record of a process that runs no more. -/
def gone : SessionRecord := ⟨"b", 99, 5679, "fake", none, none, none, 1⟩

def goneText : List Char :=
  ("\x7b\n  \"instance_id\": \"b\",\n  \"pid\": 99,\n  \"control_port\": 5679,\n" ++
    "  \"adapter_id\": \"fake\",\n  \"started_at_unix\": 1\n\x7d").toList

/-- Two records are written and read, and each process has a pid of its own. -/
def attachedSystem : System where
  pid p := UInt32.ofNat (7 + p)
  serde :=
    { toVecPretty := fun record =>
        Utf8.encode (if record.instanceId = "b" then goneText else attachedText)
      fromStr := fun text =>
        if text = goneText then .ok gone else attachedStore.serde.fromStr text }

/-- The process 0 listens on the port of its record; the process 1 has begun to list. -/
def listening (dir : Dir) : Shared :=
  [.start 0, .start 1, .bind 0 5678, .list 1 ["a.json"]].foldl (step attachedSystem) (.new dir)

/-- More writes of one byte than the record needs. -/
def writes : List ℕ := List.replicate ((Utf8.encode attachedText).length + 1) 1

def attachedInputs : List Input :=
  [.start 0, .start 1, .bind 0 5678, .list 1 ["a.json"]] ++ .save 0 attached :: advances 0 writes

lemma fromStr_attachedText : attachedSystem.serde.fromStr attachedText = .ok attached := by
  have hne : attachedText ≠ goneText := by decide
  simp [attachedSystem, attachedStore, hne]

lemma owned_attached : Owned attachedSystem (fun _ => 0) (· = attached) where
  named r h := by simp [h, attached]
  pid r h := by simp [h, attached, attachedSystem]
  reads r h := by
    rw [h]
    exact ⟨attachedText, Utf8.decode_encode attachedText, fromStr_attachedText⟩

lemma fits_advances (w : Shared) (l : List ℕ) :
    Along (step attachedSystem) (Fits (fun _ => 0) (· = attached)) w (advances 0 l) := by
  induction l generalizing w with
  | nil => trivial
  | cons n l ih => exact ⟨trivial, ih _⟩

lemma running_listening (dir : Dir) : (0 : Process) ∈ (listening dir).running :=
  List.mem_cons_of_mem _ (List.mem_singleton_self 0)

lemma foldl_attachedInputs (dir : Dir) : attachedInputs.foldl (step attachedSystem) (.new dir) =
    { listening dir with
      dir := (((listening dir).store attachedSystem .listed id).save dir attached).1
      saved := Function.update (listening dir).saved "a" (some attached) } := by
  rw [attachedInputs, List.foldl_append]
  exact save_alone (running_listening dir) rfl (by simp [writes])
    (by simp [writes, attachedSystem, attached]) .listed id

lemma fits_attachedInputs :
    Along (step attachedSystem) (Fits (fun _ => 0) (· = attached)) (.new ∅) attachedInputs := by
  have hfits : Fits (fun _ => 0) (· = attached) (listening ∅) (.save 0 attached) := ⟨rfl, rfl, rfl⟩
  rw [attachedInputs, along_append]
  refine ⟨⟨trivial, trivial, trivial, trivial, trivial⟩, ?_⟩
  rw [Along]
  exact ⟨hfits, fits_advances _ _⟩

lemma running_attached (dir : Dir) :
    (attachedInputs.foldl (step attachedSystem) (.new dir)).running = [1, 0] := by
  rw [foldl_attachedInputs]
  rfl

lemma saved_attached :
    (attachedInputs.foldl (step attachedSystem) (.new ∅)).saved "a" = some attached := by
  rw [foldl_attachedInputs]
  exact Function.update_self "a" (some attached) (listening ∅).saved

lemma calls_attached (dir : Dir) :
    (attachedInputs.foldl (step attachedSystem) (.new dir)).calls 1 =
      .listing [recordPath "a"] [] := by
  rw [foldl_attachedInputs]
  rfl

/-- The process that began to list before the save takes the record, and is killed. -/
def killedInputs : List Input := attachedInputs ++ [.advance 1 0, .exit 1]

theorem sessions_kept_attached :
    step attachedSystem (attachedInputs.foldl (step attachedSystem) (.new ∅)) (.advance 1 0) =
        (attachedInputs.foldl (step attachedSystem) (.new ∅)).setCall 1
          (.listing [] [attached]) ∧
      (killedInputs.foldl (step attachedSystem) (.new ∅)).dir.lookup "a.json" =
        some (Utf8.encode attachedText) := by
  have hnew : ∀ r, r = attached → (∅ : Dir).lookup (recordPath r.instanceId) = none := by simp
  have hrunning := running_attached ∅
  have hsaved := saved_attached
  have hcalls := calls_attached ∅
  have hkept := (sessions_kept owned_attached hnew fits_attachedInputs).2
  have hfits : Along (step attachedSystem) (Fits (fun _ => 0) (· = attached)) (.new ∅)
      killedInputs :=
    along_append.mpr ⟨fits_attachedInputs, trivial, trivial, trivial⟩
  have hkilled := (sessions_kept owned_attached hnew hfits).2
  rw [killedInputs, List.foldl_append, List.foldl_cons, List.foldl_cons, List.foldl_nil]
    at hkilled ⊢
  generalize attachedInputs.foldl (step attachedSystem) (.new ∅) = w at *
  have htakes := (hkept "a" attached hsaved (by simp [hrunning])).2.2.1 1 [] [] 0
    (by simp [hrunning]) hcalls
  rw [List.nil_append] at htakes
  rw [htakes] at hkilled ⊢
  refine ⟨rfl, (hkilled "a" attached ?_ ?_).1⟩
  · exact hsaved
  · simp [step, Shared.setCall, hrunning]

/-- A directory that a session which has ended has left its file in. -/
def leftDir : Dir := (∅ : Dir).insert "b.json" (Utf8.encode goneText)

def attachedDir : Dir := leftDir.insert "a.json" (Utf8.encode attachedText)

lemma dir_attached :
    (attachedInputs.foldl (step attachedSystem) (.new leftDir)).dir = attachedDir := by
  have htmp : tmpPath "a" = "a.json.tmp" := tmpPath_eq (by decide)
  have hpath : recordPath "a" = "a.json" := rfl
  rw [foldl_attachedInputs]
  simp only [Store.save, Store.rename_insert]
  show (AList.insert (recordPath "a") _
    ((AList.insert (tmpPath "a") _ leftDir).erase (tmpPath "a"))) = _
  rw [htmp, hpath]
  rfl

lemma live_attached : ((listening leftDir).store attachedSystem .listed id).live
    (Utf8.encode attachedText) = some attached := by
  have halive : isAlive ((listening leftDir).oracle attachedSystem) attached = true := by decide
  simp [Store.live, Store.reads, Shared.store, fromStr_attachedText, Except.toOption,
    Option.filter_some, halive]

lemma keeps_gone : ((listening leftDir).store attachedSystem .listed id).keeps
    (Utf8.encode goneText) = false := by
  have hgone : isAlive ((listening leftDir).oracle attachedSystem) gone = false := by decide
  have hparse : attachedSystem.serde.fromStr goneText = .ok gone := by simp [attachedSystem]
  simp [Store.keeps, Shared.store, hparse, hgone]

/-- A listing takes the record of the process that runs, and drops the other file. -/
lemma listActive_attached (store : Store)
    (hstore : store = (listening leftDir).store attachedSystem .listed id) :
    (store.listActive attachedDir).2 = .ok [attached] ∧
      (store.listActive attachedDir).1.lookup "a.json" = some (Utf8.encode attachedText) ∧
      (store.listActive attachedDir).1.lookup "b.json" = none := by
  have hlive : store.live (Utf8.encode attachedText) = some attached := hstore ▸ live_attached
  have hgone : store.keeps (Utf8.encode goneText) = false := hstore ▸ keeps_gone
  have hdead : store.live (Utf8.encode goneText) = none := by
    by_contra hne
    obtain ⟨record, hrecord⟩ := Option.ne_none_iff_exists'.mp hne
    exact absurd (Store.keeps_of_live hrecord) (by simp [hgone])
  have ha : attachedDir.lookup "a.json" = some (Utf8.encode attachedText) := AList.lookup_insert ..
  have hb : attachedDir.lookup "b.json" = some (Utf8.encode goneText) := rfl
  have hnames : (store.readDir.visit attachedDir).map (·.1) = ["a.json", "b.json"] := by
    rw [hstore]
    rfl
  have hjson : extension "a.json" = some "json" ∧ extension "b.json" = some "json" :=
    ⟨extension_recordPath (by decide : "a" ≠ ""), extension_recordPath (by decide : "b" ≠ "")⟩
  refine ⟨?_, ?_, ?_⟩
  · rw [Store.listActive_records, hnames]
    simp [hjson, ha, hb, hlive, hdead, sortBy]
  · rw [Store.lookup_listActive, if_pos hjson.1, ha, Option.filter_some,
      if_pos (Store.keeps_of_live hlive)]
  · rw [Store.lookup_listActive, if_pos hjson.2, hb]
    simp [hgone]

/-- All three calls, where the file of a live record is beside that of a process that has ended. -/
theorem undisturbed_calls_attached :
    let w := attachedInputs.foldl (step attachedSystem) (.new leftDir)
    (∃ dir saved, (.save 0 attached :: advances 0 writes).foldl (step attachedSystem) w =
        { w with dir, saved } ∧ dir.lookup "a.json" = some (Utf8.encode attachedText)) ∧
      (∃ saved, [.delete 0 "a", .advance 0 0].foldl (step attachedSystem) w =
        { w with dir := attachedDir.erase "a.json", saved }) ∧
      ∃ k dir, (.list 0 ["a.json", "b.json"] :: advances 0 (List.replicate k 0)).foldl
          (step attachedSystem) w = { w with dir, returned := w.returned ++ [(0, [attached])] } ∧
        dir.lookup "a.json" = some (Utf8.encode attachedText) ∧ dir.lookup "b.json" = none := by
  intro w
  have hw : w = _ := foldl_attachedInputs leftDir
  have hrun : (0 : Process) ∈ w.running := by simp [w, running_attached]
  have hidle : w.calls 0 = .idle := by rw [hw]; rfl
  have hstore : w.store attachedSystem .listed id =
      (listening leftDir).store attachedSystem .listed id := by rw [hw]; rfl
  have hdir : w.dir = attachedDir := dir_attached
  obtain ⟨hsave, hdelete, k, records, hrecords, hlist⟩ :=
    @undisturbed_calls attachedSystem w 0 hrun hidle .listed id
  obtain ⟨hactive, ha, hb⟩ := listActive_attached _ hstore
  rw [hdir] at hrecords hlist hdelete hsave
  obtain rfl := Except.ok.inj (hrecords.symm.trans hactive)
  refine ⟨⟨_, _, hsave attached writes (by simp [writes])
    (by simp [writes, attachedSystem, attached]), ?_⟩, hdelete "a", k, _, hlist, ha, hb⟩
  exact ((Store.save_eq _ attachedDir (by decide : attached.instanceId ≠ "")).2 "a").trans
    (if_pos rfl)

end DappyCore.SharedStore
