import DappyCore.Import
import DappyCore.Lib.Effect
import DappyCore.Lib.Keyed
import DappyCore.Lib.Trace
import DappyCore.Lib.Utf8
import Mathlib.Data.List.DropRight

/-!
The session store: one file of a directory for each session, written under a temporary name and
renamed. Reading drops the files of sessions that are no longer alive, and those that hold none.
-/

namespace DappyCore.SessionStore

open Lib Lib.Effect Lib.Keyed Instances Import

/-! ### Files -/

/-- The directory: the bytes of each of its files. -/
abbrev Dir := HashMap String (List UInt8)

/-- `Path::extension`, of a file of the directory: what is after the last dot of its name, unless
the name begins with it. -/
def extension (name : String) : Option String :=
  let after := name.toList.rtakeWhile (· ≠ '.')
  if name.toList.length ≤ after.length + 1 then none else some (String.ofList after)

/-- `Path::with_extension`. -/
def withExtension (name ext : String) : String :=
  match extension name with
  | none => name ++ "." ++ ext
  | some _ => String.ofList (name.toList.rdropWhile (· ≠ '.')) ++ ext

/-- `fs::read_to_string`. -/
def readToString (dir : Dir) (name : String) : Except String (List Char) :=
  match dir.lookup name with
  | none => .error "No such file or directory (os error 2)"
  | some body =>
    match Utf8.decode body with
    | none => .error "stream did not contain valid UTF-8"
    | some text => .ok text

/-- `fs::rename`. -/
def rename (dir : Dir) (source target : String) : Except String Dir :=
  match dir.lookup source with
  | none => .error "No such file or directory (os error 2)"
  | some body => .ok ((dir.erase source).insert target body)

/-! ### The store -/

/-- What `serde_json` makes of a record, and of a text. -/
structure Serde where
  toVecPretty : SessionRecord → List UInt8
  fromStr : List Char → Except String SessionRecord

/-- File-backed session registry, with what it asks of the system: which processes and ports are
there, in what order a directory is listed, and how the path of a file is shown. -/
structure Store where
  serde : Serde
  oracle : Oracle
  readDir : HashMap.Order String (List UInt8)
  shown : String → String

/-- Whether the owning process is alive and the control port is still bound. -/
def isAlive (o : Oracle) (record : SessionRecord) : Bool :=
  o.isPidAlive record.pid && o.isControlPortInUse record.controlPort

def recordPath (instanceId : String) : String := instanceId ++ ".json"

namespace Store

variable (store : Store)

def save (dir : Dir) (record : SessionRecord) : Dir × Except InstanceError Unit :=
  let path := recordPath record.instanceId
  let tmp := withExtension path "json.tmp"
  let dir := dir.insert tmp (store.serde.toVecPretty record)
  match rename dir tmp path with
  | .ok dir => (dir, .ok ())
  | .error err => (dir, .error (.other ("commit session file: " ++ err)))

def delete (dir : Dir) (instanceId : String) : Dir × Except InstanceError Unit :=
  let path := recordPath instanceId
  if (dir.lookup path).isSome then (dir.erase path, .ok ()) else (dir, .ok ())

def readRecord (dir : Dir) (name : String) : Dir × Except InstanceError SessionRecord :=
  match readToString dir name with
  | .error err =>
    (dir, .error (.other ("read session " ++ store.shown name ++ ": " ++ err)))
  | .ok body =>
    match store.serde.fromStr body with
    | .ok record => (dir, .ok record)
    | .error err =>
      (dir.erase name, .error (.other ("parse session " ++ store.shown name ++ ": " ++ err)))

def get (dir : Dir) (instanceId : String) :
    Dir × Except InstanceError (Option SessionRecord) :=
  let path := recordPath instanceId
  if (dir.lookup path).isSome then
    match store.readRecord dir path with
    | (dir, .error e) => (dir, .error e)
    | (dir, .ok record) =>
      if isAlive store.oracle record then (dir, .ok (some record)) else (dir.erase path, .ok none)
  else (dir, .ok none)

/-- The loop over the names in the directory, with the records found so far. -/
def readEach : List String → Dir → List SessionRecord → Dir × List SessionRecord
  | [], dir, records => (dir, records)
  | name :: names, dir, records =>
    if extension name = some "json" then
      match store.readRecord dir name with
      | (dir, .error _) => readEach names dir records
      | (dir, .ok record) =>
        if isAlive store.oracle record then readEach names dir (records ++ [record])
        else readEach names (dir.erase name) records
    else readEach names dir records

/-- List sessions whose owning process is still alive (stale files are removed). -/
def listActive (dir : Dir) : Dir × Except InstanceError (List SessionRecord) :=
  let (dir, records) := store.readEach ((store.readDir.visit dir).map (·.1)) dir []
  (dir, .ok (sortBy (fun a b => decide (a ≤ b)) (·.instanceId) records))

end Store

/-! ### Names -/

lemma recordPath_injective {id id' : String} (h : recordPath id = recordPath id') : id = id' := by
  have hl := congrArg String.toList h
  simp only [recordPath, String.toList_append] at hl
  exact String.toList_inj.mp (List.append_cancel_right hl)

lemma rtakeWhile_recordPath (id : String) :
    (recordPath id).toList.rtakeWhile (· ≠ '.') = "json".toList := by
  simp [recordPath, List.rtakeWhile]

lemma extension_recordPath {id : String} (h : id ≠ "") :
    extension (recordPath id) = some "json" := by
  have hid : id.toList ≠ [] := fun he => h (String.toList_inj.mp he)
  have hlen := List.length_pos_iff.mpr hid
  have hlong : ¬ (recordPath id).toList.length ≤ "json".toList.length + 1 := by
    have hpath : (recordPath id).toList.length = id.toList.length + 5 := by simp [recordPath]
    have hjson : "json".toList.length = 4 := rfl
    omega
  rw [extension, rtakeWhile_recordPath, if_neg hlong]
  rfl

lemma split_at_last_dot {l after : List Char} (hafter : l.rtakeWhile (· ≠ '.') = after)
    (hlen : after.length + 1 < l.length) : ∃ stem, stem ≠ [] ∧ l = stem ++ '.' :: after := by
  have happend := List.rdropWhile_append_rtakeWhile (p := fun c => decide (c ≠ '.')) (l := l)
  rw [hafter] at happend
  rcases List.eq_nil_or_concat (l.rdropWhile (· ≠ '.')) with hnil | ⟨stem, c, hfront⟩
  · rw [hnil, List.nil_append] at happend
    subst happend
    omega
  · rw [List.concat_eq_append] at hfront
    have hne : l.rdropWhile (· ≠ '.') ≠ [] := by
      rw [hfront]
      exact List.concat_ne_nil c stem
    have hget : (l.rdropWhile (· ≠ '.')).getLast hne = c := by
      simp only [hfront, List.getLast_append_singleton]
    have hlast := List.rdropWhile_last_not _ _ hne
    rw [hget] at hlast
    have hc : c = '.' := by simpa using hlast
    have hl : l = stem ++ '.' :: after := by
      rw [← happend, hfront, hc, List.append_assoc]
      rfl
    refine ⟨stem, fun hnil => ?_, hl⟩
    rw [hl, hnil] at hlen
    simp at hlen

/-- Only the files of records are listed. -/
lemma exists_id_of_extension {name : String} (h : extension name = some "json") :
    ∃ id, id ≠ "" ∧ name = recordPath id := by
  rw [extension] at h
  split_ifs at h with hlong
  have hafter := congrArg String.toList (Option.some.inj h)
  rw [String.toList_ofList] at hafter
  obtain ⟨stem, hstem, hl⟩ := split_at_last_dot hafter (by rw [← hafter]; omega)
  refine ⟨String.ofList stem, fun hempty => hstem ?_, String.toList_inj.mp ?_⟩
  · simpa using congrArg String.toList hempty
  · rw [hl]
    simp [recordPath]

lemma tmp_name {id : String} (h : id ≠ "") :
    withExtension (recordPath id) "json.tmp" = id ++ ".json.tmp" := by
  have hfront : (recordPath id).toList.rdropWhile (· ≠ '.') = id.toList ++ ['.'] := by
    simp [recordPath, List.rdropWhile]
  simp only [withExtension, extension_recordPath h, hfront]
  refine String.toList_inj.mp ?_
  simp

lemma recordPath_ne_tmp (id id' : String) : recordPath id ≠ id' ++ ".json.tmp" := by
  intro h
  have hl := congrArg (fun name => name.toList.getLast?) h
  simp [recordPath] at hl

/-! ### What reading does to a file -/

namespace Store

variable (store : Store)

/-- The record that is read from the bytes of a file. -/
def reads (body : List UInt8) : Option SessionRecord :=
  (Utf8.decode body).bind fun text => (store.serde.fromStr text).toOption

/-- Whether a file is still there when it has been read. -/
def keeps (body : List UInt8) : Bool :=
  match Utf8.decode body with
  | none => true
  | some text =>
    match store.serde.fromStr text with
    | .ok record => isAlive store.oracle record
    | .error _ => false

/-- The record of a file, where it is alive. -/
def live (body : List UInt8) : Option SessionRecord :=
  (store.reads body).filter (isAlive store.oracle)

/-- The directory after a file has been read. -/
def pruned (dir : Dir) (name : String) : Dir :=
  if (dir.lookup name).all store.keeps then dir else dir.erase name

variable {store : Store} {dir : Dir} {name id : String} {body : List UInt8}

lemma lookup_pruned (store : Store) (dir : Dir) (name n : String) :
    (store.pruned dir name).lookup n =
      if n = name then (dir.lookup name).filter store.keeps else dir.lookup n := by
  rw [pruned]
  split_ifs with hall hn hn
  · rw [hn]
    cases h : dir.lookup name with
    | none => rfl
    | some body =>
      rw [h, Option.all_some] at hall
      simp [Option.filter_some, hall]
  · rfl
  · rw [hn, AList.lookup_erase]
    cases h : dir.lookup name with
    | none => rfl
    | some body =>
      rw [h, Option.all_some] at hall
      simp [Option.filter_some, hall]
  · rw [AList.lookup_erase_ne hn]

/-- A live record is in a file that stays. -/
lemma keeps_of_live {record : SessionRecord} (h : store.live body = some record) :
    store.keeps body = true := by
  obtain ⟨hreads, halive⟩ := Option.filter_eq_some_iff.mp h
  obtain ⟨text, htext, hrecord⟩ := Option.bind_eq_some_iff.mp hreads
  simp [keeps, htext, toOption_eq_some.mp hrecord, halive]

/-- **Reading a file**: it is no text, it holds no record, or it holds one. -/
theorem readRecord_cases (store : Store) (h : dir.lookup name = some body) :
    (Utf8.decode body = none ∧ store.reads body = none ∧ store.keeps body = true ∧
        ∃ e, store.readRecord dir name = (dir, .error e)) ∨
      ((Utf8.decode body).isSome ∧ store.reads body = none ∧ store.keeps body = false ∧
        ∃ e, store.readRecord dir name = (dir.erase name, .error e)) ∨
      ∃ record, (Utf8.decode body).isSome ∧ store.reads body = some record ∧
        store.keeps body = isAlive store.oracle record ∧
        store.readRecord dir name = (dir, .ok record) := by
  cases htext : Utf8.decode body with
  | none =>
    have he : store.readRecord dir name = (dir, .error (.other ("read session " ++
      store.shown name ++ ": " ++ "stream did not contain valid UTF-8"))) := by
      simp [readRecord, readToString, h, htext]
    exact .inl ⟨rfl, by simp [reads, htext], by simp [keeps, htext], _, he⟩
  | some text =>
    cases hparse : store.serde.fromStr text with
    | error err =>
      have he : store.readRecord dir name = (dir.erase name, .error (.other ("parse session " ++
        store.shown name ++ ": " ++ err))) := by
        simp [readRecord, readToString, h, htext, hparse]
      exact .inr (.inl ⟨rfl, by simp [reads, htext, hparse, Except.toOption],
        by simp [keeps, htext, hparse], _, he⟩)
    | ok record =>
      have he : store.readRecord dir name = (dir, .ok record) := by
        simp [readRecord, readToString, h, htext, hparse]
      exact .inr (.inr ⟨record, rfl, by simp [reads, htext, hparse, Except.toOption],
        by simp [keeps, htext, hparse], he⟩)

lemma pruned_of_keeps (h : dir.lookup name = some body) (hkeeps : store.keeps body = true) :
    store.pruned dir name = dir := by simp [pruned, h, hkeeps]

lemma pruned_of_drops (h : dir.lookup name = some body) (hdrops : store.keeps body = false) :
    store.pruned dir name = dir.erase name := by simp [pruned, h, hdrops]

lemma pruned_of_missing (h : dir.lookup name = none) : store.pruned dir name = dir := by
  simp [pruned, h]

/-! ### Operations -/

lemma get_missing (h : dir.lookup (recordPath id) = none) :
    store.get dir id = (dir, .ok none) := by simp [get, h]

lemma get_corrupt (h : dir.lookup (recordPath id) = some body) (hreads : store.reads body = none) :
    ∃ e, store.get dir id = (store.pruned dir (recordPath id), .error e) := by
  rcases store.readRecord_cases h with ⟨-, -, hkeeps, e, he⟩ |
    ⟨-, -, hdrops, e, he⟩ | ⟨record, -, hrecord, -, -⟩
  · exact ⟨e, by simp [get, h, he, pruned_of_keeps h hkeeps]⟩
  · exact ⟨e, by simp [get, h, he, pruned_of_drops h hdrops]⟩
  · simp [hrecord] at hreads

lemma get_record {record : SessionRecord} (h : dir.lookup (recordPath id) = some body)
    (hreads : store.reads body = some record) :
    store.get dir id = (store.pruned dir (recordPath id),
      .ok (if isAlive store.oracle record then some record else none)) := by
  rcases store.readRecord_cases h with ⟨-, hnone, -⟩ | ⟨-, hnone, -⟩ |
    ⟨found, -, hfound, hkeeps, he⟩
  · simp [hreads] at hnone
  · simp [hreads] at hnone
  · obtain rfl := Option.some.inj (hreads.symm.trans hfound)
    cases halive : isAlive store.oracle record with
    | true => simp [get, h, he, halive, pruned_of_keeps h (hkeeps.trans halive)]
    | false => simp [get, h, he, halive, pruned_of_drops h (hkeeps.trans halive)]

/-- One file of a listing. -/
lemma readEach_cons (hext : extension name = some "json") (names : List String)
    (records : List SessionRecord) :
    store.readEach (name :: names) dir records = store.readEach names (store.pruned dir name)
      (records ++ ((dir.lookup name).bind store.live).toList) := by
  rw [readEach, if_pos hext]
  cases h : dir.lookup name with
  | none => simp [readRecord, readToString, h, pruned_of_missing h]
  | some body =>
    rcases store.readRecord_cases h with ⟨-, hnone, hkeeps, e, he⟩ |
      ⟨-, hnone, hdrops, e, he⟩ | ⟨record, -, hrecord, hkeeps, he⟩
    · simp [he, live, hnone, pruned_of_keeps h hkeeps]
    · simp [he, live, hnone, pruned_of_drops h hdrops]
    · cases halive : isAlive store.oracle record with
      | true =>
        rw [pruned_of_keeps h (hkeeps.trans halive)]
        simp [he, live, hrecord, Option.filter_some, halive]
      | false =>
        rw [pruned_of_drops h (hkeeps.trans halive)]
        simp [he, live, hrecord, Option.filter_some, halive]

lemma bind_live_pruned (store : Store) (dir : Dir) (name n : String) :
    ((store.pruned dir name).lookup n).bind store.live = (dir.lookup n).bind store.live := by
  rw [lookup_pruned]
  split_ifs with hn
  · rw [hn]
    cases h : dir.lookup name with
    | none => rfl
    | some body =>
      by_cases hkeeps : store.keeps body = true
      · simp [Option.filter_some, hkeeps]
      · have hlive : store.live body = none := by
          by_contra hne
          obtain ⟨record, hrecord⟩ := Option.ne_none_iff_exists'.mp hne
          exact hkeeps (keeps_of_live hrecord)
        simp [Option.filter_some, hkeeps, hlive]
  · rfl

/-- **A listing** prunes the files of records and takes the live ones. -/
theorem readEach_eq (store : Store) (names : List String) (dir : Dir)
    (records : List SessionRecord) :
    (store.readEach names dir records).2 = records ++ names.filterMap (fun n =>
        if extension n = some "json" then (dir.lookup n).bind store.live else none) ∧
      ∀ n, (store.readEach names dir records).1.lookup n =
        if n ∈ names ∧ extension n = some "json" then (dir.lookup n).filter store.keeps
        else dir.lookup n := by
  induction names generalizing dir records with
  | nil => simp [readEach]
  | cons name names ih =>
    by_cases hext : extension name = some "json"
    · rw [readEach_cons hext]
      obtain ⟨hrecords, hlookup⟩ := ih (store.pruned dir name)
        (records ++ ((dir.lookup name).bind store.live).toList)
      constructor
      · -- the record is taken if it is live
        simp only [bind_live_pruned] at hrecords
        rw [hrecords, List.filterMap_cons, if_pos hext]
        cases (dir.lookup name).bind store.live <;> simp
      · intro n
        rw [hlookup, lookup_pruned]
        by_cases hn : n = name
        · -- a name that comes again is pruned again
          subst hn
          simp [hext, Option.filter_filter]
        · simp [hn]
    · have hskip : store.readEach (name :: names) dir records =
          store.readEach names dir records := by
        rw [readEach, if_neg hext]
      rw [hskip]
      obtain ⟨hrecords, hlookup⟩ := ih dir records
      refine ⟨?_, fun n => ?_⟩
      · rw [hrecords, List.filterMap_cons, if_neg hext]
      · rw [hlookup]
        by_cases hn : n = name
        · subst hn
          simp [hext]
        · simp [hn]

lemma mem_names (store : Store) (dir : Dir) (n : String) :
    n ∈ (store.readDir.visit dir).map (·.1) ↔ (dir.lookup n).isSome := by
  rw [Option.isSome_iff_exists]
  constructor
  · intro h
    obtain ⟨⟨n, body⟩, he, rfl⟩ := List.mem_map.mp h
    exact ⟨body, store.readDir.mem_visit.mp he⟩
  · rintro ⟨body, h⟩
    exact List.mem_map.mpr ⟨⟨n, body⟩, store.readDir.mem_visit.mpr h, rfl⟩

theorem lookup_listActive (store : Store) (dir : Dir) (n : String) :
    (store.listActive dir).1.lookup n =
      if extension n = some "json" then (dir.lookup n).filter store.keeps else dir.lookup n := by
  have h := (store.readEach_eq ((store.readDir.visit dir).map (·.1)) dir []).2 n
  simp only [mem_names] at h
  rw [listActive]
  refine h.trans ?_
  cases hn : dir.lookup n <;> simp

theorem listActive_records (store : Store) (dir : Dir) : (store.listActive dir).2 =
    .ok (sortBy (fun a b => decide (a ≤ b)) (·.instanceId)
      (((store.readDir.visit dir).map (·.1)).filterMap fun n =>
        if extension n = some "json" then (dir.lookup n).bind store.live else none)) := by
  have h := (store.readEach_eq ((store.readDir.visit dir).map (·.1)) dir []).1
  rw [List.nil_append] at h
  rw [← h]
  rfl

lemma rename_insert (dir : Dir) (source target : String) (body : List UInt8) :
    rename (dir.insert source body) source target =
      .ok (((dir.insert source body).erase source).insert target body) := by
  rw [rename, AList.lookup_insert]

/-- **Saving** touches the file of the record alone: the temporary name is none of a record. -/
theorem save_eq {record : SessionRecord} (store : Store) (dir : Dir)
    (h : record.instanceId ≠ "") : (store.save dir record).2 = .ok () ∧
      ∀ id, (store.save dir record).1.lookup (recordPath id) =
        if id = record.instanceId then some (store.serde.toVecPretty record)
        else dir.lookup (recordPath id) := by
  have hsave : store.save dir record =
      (((dir.insert (withExtension (recordPath record.instanceId) "json.tmp")
        (store.serde.toVecPretty record)).erase
          (withExtension (recordPath record.instanceId) "json.tmp")).insert
            (recordPath record.instanceId) (store.serde.toVecPretty record), .ok ()) := by
    simp only [save, rename_insert]
  rw [hsave, tmp_name h]
  refine ⟨rfl, fun id => ?_⟩
  split_ifs with hid
  · rw [hid, AList.lookup_insert]
  · rw [AList.lookup_insert_ne fun he => hid (recordPath_injective he),
      AList.lookup_erase_ne (recordPath_ne_tmp id _),
      AList.lookup_insert_ne (recordPath_ne_tmp id _)]

theorem delete_eq (dir : Dir) (instanceId : String) : (delete dir instanceId).2 = .ok () ∧
    ∀ id, (delete dir instanceId).1.lookup (recordPath id) =
      if id = instanceId then none else dir.lookup (recordPath id) := by
  cases h : dir.lookup (recordPath instanceId) with
  | none =>
    have hdelete : delete dir instanceId = (dir, .ok ()) := by simp [delete, h]
    rw [hdelete]
    refine ⟨rfl, fun id => ?_⟩
    split_ifs with hid
    · rw [hid]
      exact h
    · rfl
  | some body =>
    have hdelete : delete dir instanceId = (dir.erase (recordPath instanceId), .ok ()) := by
      simp [delete, h]
    rw [hdelete]
    refine ⟨rfl, fun id => ?_⟩
    split_ifs with hid
    · rw [hid]
      exact AList.lookup_erase ..
    · exact AList.lookup_erase_ne fun he => hid (recordPath_injective he)

end Store

end DappyCore.SessionStore
