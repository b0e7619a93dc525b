import DappyCore.SessionStore

/-!
What the session store stands for: a map from ids to the records last saved and not deleted, in
which the directory and the map are compared operation by operation.
-/

namespace DappyCore.SessionStore

open Lib Lib.Keyed Lib.Trace Instances Import

/-! ### The map it stands for -/

/-- What there is under an id: the record last saved, or something else that another program wrote
in its place. -/
inductive Slot
  | record (record : SessionRecord)
  | corrupt

/-- The records last saved and not deleted. -/
abbrev Registry := String → Option Slot

inductive Op
  | save (record : SessionRecord)
  | delete (instanceId : String)
  | get (instanceId : String)
  | listActive
  /-- Another program writes a file. -/
  | write (name : String) (body : List UInt8)

/-- What is corrupt is dropped where it is read. -/
def dropCorrupt : Option Slot → Option Slot
  | some .corrupt => none
  | slot => slot

def Registry.step (m : Registry) : Op → Registry
  | .save record => Function.update m record.instanceId (some (.record record))
  | .delete id => Function.update m id none
  | .get id => Function.update m id (dropCorrupt (m id))
  | .listActive => fun id => dropCorrupt (m id)
  | .write name _ => fun id => if id ≠ "" ∧ recordPath id = name then some .corrupt else m id

/-- The live records, each once and in the order of their ids. -/
structure Lists (o : Oracle) (m : Registry) (records : List SessionRecord) : Prop where
  mem : ∀ record,
    record ∈ records ↔ m record.instanceId = some (.record record) ∧ isAlive o record = true
  sorted : records.Pairwise fun a b => a.instanceId < b.instanceId

/-- An id that makes a file name. -/
structure Plain (id : String) : Prop where
  nonempty : id ≠ ""
  separator : '/' ∉ id.toList
  nul : '\x00' ∉ id.toList

namespace Store

variable (store : Store)

def step (dir : Dir) : Op → Dir
  | .save record => (store.save dir record).1
  | .delete id => (delete dir id).1
  | .get id => (store.get dir id).1
  | .listActive => (store.listActive dir).1
  | .write name body => dir.insert name body

/-- The file under an id is what the map says. When a record is dead its file may be gone. -/
def Holds (file : Option (List UInt8)) (id : String) : Option Slot → Prop
  | none => file = none
  | some .corrupt => ∃ body, file = some body ∧ store.reads body = none
  | some (.record record) => record.instanceId = id ∧
    ((∃ body, file = some body ∧ store.reads body = some record) ∨
      isAlive store.oracle record = false ∧ file = none)

structure Represents (dir : Dir) (m : Registry) : Prop where
  unnamed : m "" = none
  files : ∀ id, id ≠ "" → store.Holds (dir.lookup (recordPath id)) id (m id)

/-- Every record in the directory is filed under its own id. -/
def Filed (dir : Dir) : Prop :=
  ∀ id body record, id ≠ "" → dir.lookup (recordPath id) = some body →
    store.reads body = some record → record.instanceId = id

/-- What a directory holds at first. -/
def contents (dir : Dir) : Registry := fun id =>
  if id = "" then none
  else (dir.lookup (recordPath id)).map fun body => (store.reads body).elim .corrupt .record

/-- The answer to an operation is what the map says. -/
def Answers (dir : Dir) (m : Registry) : Op → Prop
  | .save record => (store.save dir record).2 = .ok ()
  | .delete id => (delete dir id).2 = .ok ()
  | .get id =>
    match m id with
    | some (.record record) =>
      (store.get dir id).2 = .ok (if isAlive store.oracle record then some record else none)
    | _ => (store.get dir id).2 = .ok none
  | .listActive => ∃ records, (store.listActive dir).2 = .ok records ∧
    Lists store.oracle m records
  | .write _ _ => True

/-- The operation does to the directory what it does to the map. -/
structure Conforms (dir : Dir) (m : Registry) (op : Op) : Prop where
  answer : store.Answers dir m op
  next : store.Represents (store.step dir op) (m.step op)

/-- Ids are names, and no other program writes a record. -/
def Allowed : Op → Prop
  | .save record => Plain record.instanceId
  | .delete id | .get id => Plain id
  | .listActive => True
  | .write name body => extension name = some "json" → store.reads body = none

/-- A file that is asked for holds a record, and those that are listed are texts. -/
def Readable (dir : Dir) : Op → Prop
  | .get id => ∀ body, dir.lookup (recordPath id) = some body → (store.reads body).isSome
  | .listActive => ∀ name body, extension name = some "json" → dir.lookup name = some body →
    (Utf8.decode body).isSome
  | .save _ | .delete _ | .write _ _ => True

end Store

namespace Store

variable {store : Store} {dir : Dir} {m : Registry} {id : String} {body : List UInt8}
  {record : SessionRecord}

/-! ### Reading -/

/-- **The bytes of a file** are no text, hold no record, or hold one. -/
theorem body_cases (store : Store) (body : List UInt8) :
    (Utf8.decode body = none ∧ store.reads body = none ∧ store.keeps body = true) ∨
      ((Utf8.decode body).isSome ∧ store.reads body = none ∧ store.keeps body = false) ∨
      ∃ record, (Utf8.decode body).isSome ∧ store.reads body = some record ∧
        store.keeps body = isAlive store.oracle record := by
  have h : ((∅ : Dir).insert "" body).lookup "" = some body := AList.lookup_insert _
  rcases store.readRecord_cases h with ⟨hd, hr, hk, -⟩ | ⟨hd, hr, hk, -⟩ |
    ⟨record, hd, hr, hk, -⟩
  · exact .inl ⟨hd, hr, hk⟩
  · exact .inr (.inl ⟨hd, hr, hk⟩)
  · exact .inr (.inr ⟨record, hd, hr, hk⟩)

/-- **A file that is read** becomes what the map says of it, unless it is no text. -/
theorem holds_read_iff {file : Option (List UInt8)} {slot : Option Slot}
    (h : store.Holds file id slot) :
    store.Holds (file.filter store.keeps) id (dropCorrupt slot) ↔
      ∀ body, file = some body → (Utf8.decode body).isSome := by
  match slot, h with
  | none, h =>
    obtain rfl : file = none := h
    exact ⟨by simp, fun _ => rfl⟩
  | some .corrupt, h =>
    obtain ⟨body, rfl, hreads⟩ := h
    rcases store.body_cases body with ⟨htext, -, hkeeps⟩ | ⟨htext, -, hdrops⟩ |
      ⟨record, -, hrecord, -⟩
    · simp [Holds, dropCorrupt, Option.filter_some, hkeeps, htext]
    · simp [Holds, dropCorrupt, Option.filter_some, hdrops, htext]
    · simp [hrecord] at hreads
  | some (.record record), h =>
    obtain ⟨hid, ⟨body, rfl, hreads⟩ | ⟨hdead, rfl⟩⟩ := h
    · rcases store.body_cases body with ⟨-, hnone, -⟩ | ⟨-, hnone, -⟩ |
        ⟨found, htext, hfound, hkeeps⟩
      · simp [hreads] at hnone
      · simp [hreads] at hnone
      · obtain rfl := Option.some.inj (hreads.symm.trans hfound)
        refine ⟨fun _ body' hbody => Option.some.inj hbody ▸ htext, fun _ => ⟨hid, ?_⟩⟩
        cases halive : isAlive store.oracle record with
        | true => exact .inl ⟨body, by simp [Option.filter_some, hkeeps, halive], hreads⟩
        | false => exact .inr ⟨rfl, by simp [Option.filter_some, hkeeps, halive]⟩
    · exact ⟨by simp, fun _ => ⟨hid, .inr ⟨hdead, rfl⟩⟩⟩

/-- The record in a file of the directory is the map's, and the file is the record's. -/
lemma Represents.record_of_reads {n : String} (h : store.Represents dir m)
    (hext : extension n = some "json") (hn : dir.lookup n = some body)
    (hreads : store.reads body = some record) :
    n = recordPath record.instanceId ∧ m record.instanceId = some (.record record) := by
  obtain ⟨id, hid, rfl⟩ := exists_id_of_extension hext
  have hfile := h.files id hid
  rw [hn] at hfile
  match hm : m id with
  | none => simp [hm, Holds] at hfile
  | some .corrupt =>
    rw [hm] at hfile
    obtain ⟨body', hbody, hnone⟩ := hfile
    obtain rfl := Option.some.inj hbody
    simp [hreads] at hnone
  | some (.record found) =>
    rw [hm] at hfile
    obtain ⟨rfl, ⟨body', hbody, hfound⟩ | ⟨-, hnone⟩⟩ := hfile
    · obtain rfl := Option.some.inj hbody
      obtain rfl := Option.some.inj (hreads.symm.trans hfound)
      exact ⟨rfl, hm⟩
    · simp at hnone

/-- The file of a live record is there. -/
lemma Represents.file_of_alive (h : store.Represents dir m)
    (hm : m record.instanceId = some (.record record))
    (halive : isAlive store.oracle record = true) :
    record.instanceId ≠ "" ∧ ∃ body, dir.lookup (recordPath record.instanceId) = some body ∧
      store.reads body = some record := by
  have hid : record.instanceId ≠ "" := by
    intro hempty
    rw [hempty, h.unnamed] at hm
    simp at hm
  have hfile := h.files _ hid
  rw [hm] at hfile
  rcases hfile.2 with hfile | ⟨hdead, -⟩
  · exact ⟨hid, hfile⟩
  · simp [halive] at hdead

/-! ### Getting -/

lemma get_dir (store : Store) (dir : Dir) (id : String) :
    (store.get dir id).1 = store.pruned dir (recordPath id) := by
  cases h : dir.lookup (recordPath id) with
  | none => rw [get_missing h, pruned_of_missing h]
  | some body =>
    cases hreads : store.reads body with
    | none =>
      obtain ⟨e, he⟩ := get_corrupt h hreads
      rw [he]
    | some record => rw [get_record h hreads]

lemma isSome_decode_of_reads {record : SessionRecord} (h : store.reads body = some record) :
    (Utf8.decode body).isSome := by
  obtain ⟨text, htext, -⟩ := Option.bind_eq_some_iff.mp h
  rw [htext]
  rfl

/-- The answer is the map's where there is no corrupt file: such a file is an error. -/
lemma Represents.get_answers_iff (h : store.Represents dir m) (hid : id ≠ "") :
    store.Answers dir m (.get id) ↔ store.Readable dir (.get id) := by
  have hfile := h.files id hid
  simp only [Answers, Readable]
  match hm : m id with
  | none =>
    rw [hm] at hfile
    have hnone : dir.lookup (recordPath id) = none := hfile
    exact iff_of_true (by rw [get_missing hnone]) (by simp [hnone])
  | some .corrupt =>
    rw [hm] at hfile
    obtain ⟨body, hbody, hreads⟩ := hfile
    obtain ⟨e, he⟩ := get_corrupt hbody hreads
    refine iff_of_false (by simp [he]) fun hreadable => ?_
    have hsome := hreadable body hbody
    simp [hreads] at hsome
  | some (.record record) =>
    rw [hm] at hfile
    obtain ⟨rfl, ⟨body, hbody, hreads⟩ | ⟨hdead, hnone⟩⟩ := hfile
    · exact iff_of_true (by rw [get_record hbody hreads]) (by simp [hbody, hreads])
    · exact iff_of_true (by simp [get_missing hnone, hdead]) (by simp [hnone])

lemma Represents.get (h : store.Represents dir m) (hid : id ≠ "")
    (hreadable : store.Readable dir (.get id)) :
    store.Represents (store.get dir id).1 (m.step (.get id)) := by
  rw [get_dir]
  refine ⟨by rw [Registry.step, Function.update_of_ne hid.symm, h.unnamed], fun id' hid' => ?_⟩
  rw [lookup_pruned, Registry.step]
  by_cases heq : id' = id
  · subst heq
    rw [if_pos rfl, Function.update_self]
    refine (holds_read_iff (h.files id' hid)).mpr fun body hbody => ?_
    obtain ⟨record, hrecord⟩ := Option.isSome_iff_exists.mp (hreadable body hbody)
    exact isSome_decode_of_reads hrecord
  · rw [if_neg fun hp => heq (recordPath_injective hp), Function.update_of_ne heq]
    exact h.files id' hid'

/-! ### Listing -/

lemma Represents.listActive_iff (h : store.Represents dir m) :
    store.Represents (store.listActive dir).1 (m.step .listActive) ↔
      store.Readable dir .listActive := by
  have hlookup : ∀ id, id ≠ "" → (store.listActive dir).1.lookup (recordPath id) =
      (dir.lookup (recordPath id)).filter store.keeps := by
    intro id hid
    rw [lookup_listActive, if_pos (extension_recordPath hid)]
  constructor
  · intro hnext name body hext hbody
    obtain ⟨id, hid, rfl⟩ := exists_id_of_extension hext
    have hfile := hnext.files id hid
    rw [hlookup id hid] at hfile
    exact (holds_read_iff (h.files id hid)).mp hfile body hbody
  · intro htext
    refine ⟨by simp [Registry.step, h.unnamed, dropCorrupt], fun id hid => ?_⟩
    rw [hlookup id hid]
    exact (holds_read_iff (h.files id hid)).mpr fun body hbody =>
      htext _ body (extension_recordPath hid) hbody

/-- In the order of their ids, and with no id twice, the ids go up. -/
lemma pairwise_lt_of_nodup {l : List SessionRecord} (h : (l.map (·.instanceId)).Nodup) :
    (sortBy (fun a b => decide (a ≤ b)) (·.instanceId) l).Pairwise
      fun a b => a.instanceId < b.instanceId := by
  refine (pairwise_sortBy_of_nodup orderTest_le h).imp fun ⟨hle, hne⟩ => ?_
  rw [← String.not_le]
  exact fun hge => hne (String.le_antisymm (of_decide_eq_true hle) hge)

theorem Represents.listActive_answers (h : store.Represents dir m) :
    store.Answers dir m .listActive := by
  have hfound : ∀ n record, (if extension n = some "json" then (dir.lookup n).bind store.live
      else none) = some record → recordPath record.instanceId = n ∧
        m record.instanceId = some (.record record) ∧ isAlive store.oracle record = true := by
    intro n record hn
    split_ifs at hn with hext
    obtain ⟨body, hbody, hlive⟩ := Option.bind_eq_some_iff.mp hn
    obtain ⟨hreads, halive⟩ := Option.filter_eq_some_iff.mp hlive
    obtain ⟨hpath, hm⟩ := h.record_of_reads hext hbody hreads
    exact ⟨hpath.symm, hm, halive⟩
  refine ⟨_, store.listActive_records dir, ⟨fun record => ?_, pairwise_lt_of_nodup ?_⟩⟩
  · rw [(sortBy_perm _).mem_iff, List.mem_filterMap]
    constructor
    · rintro ⟨n, -, hn⟩
      exact (hfound n record hn).2
    · rintro ⟨hm, halive⟩
      obtain ⟨hid, body, hbody, hreads⟩ := h.file_of_alive hm halive
      refine ⟨recordPath record.instanceId, ?_, ?_⟩
      · rw [mem_names, hbody]
        rfl
      · rw [if_pos (extension_recordPath hid), hbody]
        exact Option.filter_eq_some_iff.mpr ⟨hreads, halive⟩
  · have hsub := map_filterMap_sublist (fun n record hn => (hfound n record hn).1)
      ((store.readDir.visit dir).map (·.1))
    have hnames : ((store.readDir.visit dir).map (·.1)).Nodup := store.readDir.nodup_keys dir
    have hnodup := hnames.sublist hsub
    refine List.Nodup.of_map recordPath ?_
    rw [List.map_map]
    exact hnodup

/-! ### Writing -/

lemma Represents.save (h : store.Represents dir m) (hid : record.instanceId ≠ "")
    (hround : store.reads (store.serde.toVecPretty record) = some record) :
    store.Conforms dir m (.save record) := by
  obtain ⟨hanswer, hlookup⟩ := store.save_eq dir hid
  refine ⟨hanswer, ?_, fun id hid' => ?_⟩
  · rw [Registry.step, Function.update_of_ne hid.symm, h.unnamed]
  · rw [step, hlookup, Registry.step]
    by_cases heq : id = record.instanceId
    · rw [if_pos heq, heq, Function.update_self]
      exact ⟨rfl, .inl ⟨_, rfl, hround⟩⟩
    · rw [if_neg heq, Function.update_of_ne heq]
      exact h.files id hid'

lemma Represents.delete (h : store.Represents dir m) (hid : id ≠ "") :
    store.Conforms dir m (.delete id) := by
  obtain ⟨hanswer, hlookup⟩ := delete_eq dir id
  refine ⟨hanswer, ?_, fun id' hid' => ?_⟩
  · rw [Registry.step, Function.update_of_ne hid.symm, h.unnamed]
  · rw [step, hlookup, Registry.step]
    by_cases heq : id' = id
    · rw [if_pos heq, heq, Function.update_self]
      rfl
    · rw [if_neg heq, Function.update_of_ne heq]
      exact h.files id' hid'

/-- A file of another program takes the place of a record, or of none. -/
lemma Represents.write {name : String} (h : store.Represents dir m)
    (hbody : extension name = some "json" → store.reads body = none) :
    store.Conforms dir m (.write name body) := by
  refine ⟨trivial, ?_, fun id hid => ?_⟩
  · simp [Registry.step, h.unnamed]
  · simp only [step, Registry.step]
    by_cases heq : recordPath id = name
    · rw [if_pos ⟨hid, heq⟩, heq, AList.lookup_insert]
      exact ⟨body, rfl, hbody (heq ▸ extension_recordPath hid)⟩
    · rw [if_neg fun hp => heq hp.2, AList.lookup_insert_ne heq]
      exact h.files id hid

/-! ### Runs -/

/-- **One operation** conforms exactly when it can read what it is to read. -/
theorem conforms_iff {op : Op} (h : store.Represents dir m) (hallowed : store.Allowed op)
    (hround : ∀ record, op = .save record →
      store.reads (store.serde.toVecPretty record) = some record) :
    store.Conforms dir m op ↔ store.Readable dir op := by
  cases op with
  | save record =>
    exact ⟨fun _ => trivial, fun _ => h.save hallowed.nonempty (hround record rfl)⟩
  | delete id => exact ⟨fun _ => trivial, fun _ => h.delete hallowed.nonempty⟩
  | get id =>
    have hiff := h.get_answers_iff hallowed.nonempty
    exact ⟨fun hc => hiff.mp hc.answer,
      fun hreadable => ⟨hiff.mpr hreadable, h.get hallowed.nonempty hreadable⟩⟩
  | listActive =>
    exact ⟨fun hc => h.listActive_iff.mp hc.next,
      fun htext => ⟨h.listActive_answers, h.listActive_iff.mpr htext⟩⟩
  | write name body => exact ⟨fun _ => trivial, fun _ => h.write hallowed⟩

/-- A directory in which every record is filed under its own id represents what it holds. -/
lemma represents_contents (h : store.Filed dir) : store.Represents dir (store.contents dir) := by
  refine ⟨by simp [contents], fun id hid => ?_⟩
  rw [contents, if_neg hid]
  cases hbody : dir.lookup (recordPath id) with
  | none => rfl
  | some body =>
    cases hreads : store.reads body with
    | none => simp [Holds, hreads]
    | some record => simp [Holds, hreads, h id body record hid hbody hreads]

/-- The directory and the map, after each other. -/
def stepBoth (store : Store) (s : Dir × Registry) (op : Op) : Dir × Registry :=
  (store.step s.1 op, s.2.step op)

lemma foldl_stepBoth (store : Store) (ops : List Op) (dir : Dir) (m : Registry) :
    ops.foldl store.stepBoth (dir, m) = (ops.foldl store.step dir, ops.foldl Registry.step m) := by
  induction ops generalizing dir m with
  | nil => rfl
  | cons op ops ih => exact ih (store.step dir op) (m.step op)

theorem along_conforms_iff {s : Dir × Registry} {ops : List Op} (h : store.Represents s.1 s.2)
    (hallowed : ∀ op ∈ ops, store.Allowed op)
    (hround : ∀ record, .save record ∈ ops →
      store.reads (store.serde.toVecPretty record) = some record) :
    Along store.stepBoth (fun s op => store.Conforms s.1 s.2 op) s ops ↔
      Along store.stepBoth (fun s op => store.Readable s.1 op) s ops := by
  induction ops generalizing s with
  | nil => exact Iff.rfl
  | cons op ops ih =>
    have hiff := conforms_iff h (hallowed op List.mem_cons_self) fun record he =>
      hround record (he ▸ List.mem_cons_self)
    have hrest : ∀ hc : store.Conforms s.1 s.2 op, _ := fun hc => ih (s := store.stepBoth s op)
      hc.next (fun op' hop => hallowed op' (List.mem_cons_of_mem _ hop))
      fun record hmem => hround record (List.mem_cons_of_mem _ hmem)
    rw [Along, Along]
    constructor
    · rintro ⟨hc, hlater⟩
      exact ⟨hiff.mp hc, (hrest hc).mp hlater⟩
    · rintro ⟨hreadable, hlater⟩
      exact ⟨hiff.mpr hreadable, (hrest (hiff.mpr hreadable)).mpr hlater⟩

/-- **The session store behaves as a map** in a run exactly when no corrupt file is asked for and
every file that is listed is text: asking for a corrupt file is an error and no answer, and a file
that is no text stays where it is. -/
theorem behaves_as_map_iff (store : Store) (dir : Dir) (ops : List Op) (hdir : store.Filed dir)
    (hallowed : ∀ op ∈ ops, store.Allowed op)
    (hround : ∀ record, .save record ∈ ops →
      store.reads (store.serde.toVecPretty record) = some record) :
    (∀ done op rest, ops = done ++ op :: rest → store.Conforms (done.foldl store.step dir)
        (done.foldl Registry.step (store.contents dir)) op) ↔
      ∀ done op rest, ops = done ++ op :: rest →
        store.Readable (done.foldl store.step dir) op := by
  have hiff := along_conforms_iff (s := (dir, store.contents dir)) (represents_contents hdir)
    hallowed hround
  rw [along_iff, along_iff] at hiff
  simpa only [foldl_stepBoth] using hiff

/-! ### Files that others leave alone -/

/-- The files of records are texts. -/
def Texts (dir : Dir) : Prop :=
  ∀ id body, id ≠ "" → dir.lookup (recordPath id) = some body → (Utf8.decode body).isSome

/-- The file under an id is a record's, if there is one. -/
def Sound (store : Store) (dir : Dir) (id : String) : Prop :=
  ∀ body, dir.lookup (recordPath id) = some body → (store.reads body).isSome

/-- An operation leaves the file under an id, or there is none, or a record, or a file that another
program wrote. -/
lemma lookup_step {op : Op} (hallowed : store.Allowed op) (hid : id ≠ "")
    (h : (store.step dir op).lookup (recordPath id) = some body) :
    dir.lookup (recordPath id) = some body ∨
      (∃ record, op = .save record ∧ body = store.serde.toVecPretty record) ∨
      op = .write (recordPath id) body := by
  cases op with
  | save record =>
    rw [step, (store.save_eq dir hallowed.nonempty).2] at h
    split_ifs at h
    · exact .inr (.inl ⟨record, rfl, (Option.some.inj h).symm⟩)
    · exact .inl h
  | delete id' =>
    rw [step, (delete_eq dir id').2] at h
    split_ifs at h
    exact .inl h
  | get id' =>
    rw [step, get_dir, lookup_pruned] at h
    split_ifs at h with heq
    · rw [← heq] at h
      exact .inl (Option.filter_eq_some_iff.mp h).1
    · exact .inl h
  | listActive =>
    rw [step, lookup_listActive, if_pos (extension_recordPath hid)] at h
    exact .inl (Option.filter_eq_some_iff.mp h).1
  | write name body' =>
    rw [step, HashMap.lookup_insert_of] at h
    split_ifs at h with heq
    · obtain rfl := Option.some.inj h
      exact .inr (.inr (heq ▸ rfl))
    · exact .inl h

section Step

variable {op : Op} (hallowed : store.Allowed op)
  (hround : ∀ record, op = .save record →
    store.reads (store.serde.toVecPretty record) = some record)

include hallowed hround

/-- Texts stay where others write texts. -/
lemma Texts.step (h : Texts dir)
    (hwrite : ∀ name body, op = .write name body → (Utf8.decode body).isSome) :
    Texts (store.step dir op) := by
  intro id body hid hbody
  rcases lookup_step hallowed hid hbody with hbefore | ⟨record, hsave, rfl⟩ | hop
  · exact h id body hid hbefore
  · exact isSome_decode_of_reads (hround record hsave)
  · exact hwrite _ body hop

lemma Sound.step (h : Sound store dir id) (hid : id ≠ "")
    (hwrite : ∀ body, op ≠ .write (recordPath id) body) : Sound store (store.step dir op) id := by
  intro body hbody
  rcases lookup_step hallowed hid hbody with hbefore | ⟨record, hsave, rfl⟩ | hop
  · exact h body hbefore
  · rw [hround record hsave]
    rfl
  · exact absurd hop (hwrite body)

end Step

lemma Texts.readable {op : Op} (h : Texts dir)
    (hget : ∀ id, op = .get id → Sound store dir id) : store.Readable dir op := by
  cases op with
  | get id => exact hget id rfl
  | listActive =>
    intro name body hext
    obtain ⟨id, hid, rfl⟩ := exists_id_of_extension hext
    exact h id body hid
  | save _ | delete _ | write _ _ => trivial

/-- **Where others write nothing but texts** into a directory of texts, and none of them under an
id that is asked for, all that is read can be read. -/
theorem Texts.along {ops : List Op} (h : Texts dir)
    (hallowed : ∀ op ∈ ops, store.Allowed op)
    (hround : ∀ record, .save record ∈ ops →
      store.reads (store.serde.toVecPretty record) = some record)
    (hwrite : ∀ name body, .write name body ∈ ops → (Utf8.decode body).isSome)
    (hget : ∀ id, .get id ∈ ops → Sound store dir id ∧
      ∀ body, .write (recordPath id) body ∉ ops) :
    ∀ done op rest, ops = done ++ op :: rest → store.Readable (done.foldl store.step dir) op := by
  rw [← along_iff (P := store.Readable)]
  induction ops generalizing dir with
  | nil => trivial
  | cons op ops ih =>
    -- what is written is text, and under the ids that are asked for only saves write
    have hop := hallowed op List.mem_cons_self
    have hsave : ∀ record, op = .save record →
        store.reads (store.serde.toVecPretty record) = some record :=
      fun record he => hround record (he ▸ List.mem_cons_self)
    have hnext : Texts (store.step dir op) := h.step hop hsave
      fun name body he => hwrite name body (he ▸ List.mem_cons_self)
    refine ⟨h.readable fun id he => (hget id (he ▸ List.mem_cons_self)).1,
      ih hnext (fun op' hmem => hallowed op' (List.mem_cons_of_mem _ hmem))
      (fun record hmem => hround record (List.mem_cons_of_mem _ hmem))
      (fun name body hmem => hwrite name body (List.mem_cons_of_mem _ hmem)) fun id hmem => ?_⟩
    obtain ⟨hsound, hleft⟩ := hget id (List.mem_cons_of_mem _ hmem)
    have hid : id ≠ "" := (hallowed _ (List.mem_cons_of_mem _ hmem)).nonempty
    exact ⟨hsound.step hop hsave hid fun body he => hleft body (he ▸ List.mem_cons_self),
      fun body hwritten => hleft body (List.mem_cons_of_mem _ hwritten)⟩

end Store

/-! ### Two runs -/

def attached : SessionRecord := ⟨"a", 7, 5678, "fake", none, none, none, 1⟩

def attachedText : List Char :=
  ("\x7b\n  \"instance_id\": \"a\",\n  \"pid\": 7,\n  \"control_port\": 5678,\n" ++
    "  \"adapter_id\": \"fake\",\n  \"started_at_unix\": 1\n\x7d").toList

/-- Everything is alive, and one record is written and read. -/
def attachedStore : Store where
  serde :=
    { toVecPretty := fun _ => Utf8.encode attachedText
      fromStr := fun text =>
        if text = attachedText then .ok attached
        else .error "key must be a string at line 1 column 2" }
  oracle := ⟨fun _ => true, fun _ => true⟩
  readDir := .listed
  shown := fun name => "\"/sessions/" ++ name ++ "\""

def brokenText : List Char := "\x7bnot json".toList

theorem behaves_as_map_iff_attached : Store.Texts ∅ ∧
    ∀ done op rest, [.save attached, .write "broken.json" (Utf8.encode brokenText), .listActive,
        .get "a", .delete "a"] = done ++ op :: rest →
      attachedStore.Conforms (done.foldl attachedStore.step ∅)
        (done.foldl Registry.step (attachedStore.contents ∅)) op := by
  have hround : attachedStore.reads (attachedStore.serde.toVecPretty attached) = some attached := by
    simp [Store.reads, attachedStore, Except.toOption]
  have hbroken : attachedStore.reads (Utf8.encode brokenText) = none := by
    have hne : brokenText ≠ attachedText := by decide
    simp [Store.reads, attachedStore, hne, Except.toOption]
  have hplain : Plain "a" := ⟨by decide, by decide, by decide⟩
  have hallowed : ∀ op ∈ [.save attached, .write "broken.json" (Utf8.encode brokenText),
      .listActive, .get "a", .delete "a"], attachedStore.Allowed op := by
    simp [Store.Allowed, attached, hplain, hbroken]
  have hrounds : ∀ record, .save record ∈ [Op.save attached,
      .write "broken.json" (Utf8.encode brokenText), .listActive, .get "a", .delete "a"] →
      attachedStore.reads (attachedStore.serde.toVecPretty record) = some record := by
    simp [hround]
  have hempty : Store.Texts ∅ := by
    intro id body _ hbody
    simp at hbody
  refine ⟨hempty, (attachedStore.behaves_as_map_iff ∅ _ ?_ hallowed hrounds).mpr
    (hempty.along hallowed hrounds ?_ ?_)⟩
  · intro id body record _ hbody
    simp at hbody
  · simp
  · intro id hmem
    obtain rfl : id = "a" := by simpa using hmem
    refine ⟨fun body hbody => by simp at hbody, fun body hwritten => ?_⟩
    simp [recordPath] at hwritten

/-- A file that is no text is never dropped. -/
theorem binary_file_stays : ¬ ∀ (store : Store) (dir : Dir) (ops : List Op), store.Filed dir →
    (∀ op ∈ ops, store.Allowed op) →
    (∀ record, .save record ∈ ops →
      store.reads (store.serde.toVecPretty record) = some record) →
    ∀ done op rest, ops = done ++ op :: rest → store.Conforms (done.foldl store.step dir)
      (done.foldl Registry.step (store.contents dir)) op := by
  intro h
  have hdecode : Utf8.decode [0xff] = none := by decide
  have hconforms := h attachedStore ∅ [.write "broken.json" [0xff], .listActive]
    (fun _ _ _ _ hbody => by simp at hbody) (by simp [Store.Allowed, Store.reads, hdecode])
    (by simp) [.write "broken.json" [0xff]] .listActive [] rfl
  have hfile := hconforms.next.files "broken" (by decide)
  have hgone : (attachedStore.listActive ((∅ : Dir).insert "broken.json" [0xff])).1.lookup
      "broken.json" = none := hfile
  have hext : extension "broken.json" = some "json" := by decide
  rw [Store.lookup_listActive, if_pos hext, AList.lookup_insert] at hgone
  simp [Option.filter_some, Store.keeps, hdecode] at hgone

end DappyCore.SessionStore
