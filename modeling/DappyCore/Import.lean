import DappyCore.Instances

/-!
Importing the sessions of the on-disk store into the registry.
-/

namespace DappyCore.Import

open Lib Instances

/-- A session as the store keeps it. -/
structure SessionRecord where
  instanceId : String
  pid : UInt32
  controlPort : UInt16
  adapterId : String
  program : Option String
  scope : Option String
  parentId : Option String
  startedAtUnix : ℤ

def recordId (record : SessionRecord) : InstanceId := ⟨record.instanceId⟩

/-- What the new spec of a record starts from: a generated id and the time of day. -/
abbrev Fresh := SessionRecord → InstanceId × ℤ

def specOfRecord (fresh : Fresh) (record : SessionRecord) : InstanceSpec :=
  let spec := InstanceSpec.new (fresh record).1 (fresh record).2 "dap-session"
    |>.withId (recordId record)
    |>.withControlPort record.controlPort
    |>.withPid record.pid
    |>.withTag "adapter" record.adapterId
  let spec := record.program.elim spec spec.withLabel
  let spec := record.scope.elim spec spec.withScope
  record.parentId.elim spec fun parentId => spec.withParentId ⟨parentId⟩

/-- The loop over the records, with the ids imported so far. -/
def importRecords (fresh : Fresh) : List SessionRecord → InstanceManager → List InstanceId →
    InstanceManager × Except InstanceError (List InstanceId)
  | [], m, imported => (m, .ok imported)
  | record :: rest, m, imported =>
    match InstanceManager.get m (recordId record) with
    | .ok _ => importRecords fresh rest m imported
    | .error _ =>
      match InstanceManager.register m (specOfRecord fresh record) with
      | (m, .error e) => (m, .error e)
      | (m, .ok _) =>
        match InstanceManager.setState m (recordId record) .running with
        | (m, .error e) => (m, .error e)
        | (m, .ok _) => importRecords fresh rest m (imported ++ [recordId record])

/-- The store's answer is an input: the active records, or an error. -/
def importFromStore (fresh : Fresh) (m : InstanceManager)
    (active : Except InstanceError (List SessionRecord)) :
    InstanceManager × Except InstanceError (List InstanceId) :=
  match active with
  | .error e => (m, .error e)
  | .ok records => importRecords fresh records m []

variable {fresh : Fresh} {m : InstanceManager}

lemma specOfRecord_id (fresh : Fresh) (record : SessionRecord) :
    (specOfRecord fresh record).id = recordId record := by
  unfold specOfRecord
  cases record.program <;> cases record.scope <;> cases record.parentId <;> rfl

/-! ### The loop -/

lemma importRecords_known {record : SessionRecord} (h : (m.lookup (recordId record)).isSome)
    (rest : List SessionRecord) (imported : List InstanceId) :
    importRecords fresh (record :: rest) m imported = importRecords fresh rest m imported := by
  obtain ⟨handle, hm⟩ := Option.isSome_iff_exists.mp h
  simp [importRecords, InstanceManager.get, hm]

/-- The importer takes a new instance from pending to running, which `set_state` refuses. -/
lemma importRecords_new {record : SessionRecord} (h : m.lookup (recordId record) = none)
    (rest : List SessionRecord) (imported : List InstanceId) :
    importRecords fresh (record :: rest) m imported =
      (AList.insert (recordId record) ⟨specOfRecord fresh record, .pending⟩ m,
        .error (.invalidTransition "pending" "running")) := by
  have hid := specOfRecord_id fresh record
  have hfree : m.lookup (specOfRecord fresh record).id = none := hid ▸ h
  have hreg := InstanceManager.register_new hfree
  have hset := InstanceManager.running_rejected hfree
  rw [hreg, hid] at hset
  rw [hid] at hreg
  simp only [importRecords, InstanceManager.get, h, hreg, hset]

/-- **What the loop does**: it passes over known ids and ends at the first new one, which
stays behind pending. -/
theorem importRecords_cases (fresh : Fresh) (records : List SessionRecord) (m : InstanceManager)
    (imported : List InstanceId) :
    ((∀ record ∈ records, (m.lookup (recordId record)).isSome) ∧
        importRecords fresh records m imported = (m, .ok imported)) ∨
      ∃ record ∈ records, m.lookup (recordId record) = none ∧
        importRecords fresh records m imported =
          (AList.insert (recordId record) ⟨specOfRecord fresh record, .pending⟩ m,
            .error (.invalidTransition "pending" "running")) := by
  induction records with
  | nil => exact .inl ⟨by simp, rfl⟩
  | cons record rest ih =>
    cases h : m.lookup (recordId record) with
    -- the first that is new is registered, and then cannot be set to running
    | none => exact .inr ⟨record, List.mem_cons_self, h, importRecords_new h rest imported⟩
    | some handle =>
      rw [importRecords_known (by simp [h])]
      rcases ih with ⟨hall, heq⟩ | ⟨r, hr, hnone, heq⟩
      · refine .inl ⟨fun r hr => ?_, heq⟩
        rcases List.mem_cons.mp hr with rfl | hr
        · simp [h]
        · exact hall r hr
      · exact .inr ⟨r, List.mem_cons_of_mem _ hr, hnone, heq⟩

/-! ### Discovery -/

/-- The instance runs, with all the record says. -/
structure Imported (record : SessionRecord) (handle : InstanceHandle) : Prop where
  state : handle.state = .running
  controlPort : handle.spec.controlPort = some record.controlPort
  pid : handle.spec.pid = some record.pid
  adapter : handle.spec.tags.lookup "adapter" = some record.adapterId
  label : handle.spec.label = record.program
  scope : handle.spec.scope = record.scope
  parent : handle.spec.parentId = record.parentId.map InstanceId.mk

/-- The result of an import that discovers every new session and leaves the rest alone. -/
structure Discovers (m : InstanceManager) (records : List SessionRecord)
    (result : InstanceManager × Except InstanceError (List InstanceId)) : Prop where
  ids : result.2 = .ok ((records.map recordId).filter fun id => (m.lookup id).isNone)
  registered : ∀ record ∈ records, m.lookup (recordId record) = none →
    ∃ handle, result.1.lookup (recordId record) = some handle ∧ Imported record handle
  unchanged : ∀ id handle, m.lookup id = some handle → result.1.lookup id = some handle

/-- **Importing discovers every session exactly when there is none to discover.** -/
theorem discovers_iff (fresh : Fresh) (m : InstanceManager) (records : List SessionRecord) :
    Discovers m records (importFromStore fresh m (.ok records)) ↔
      ∀ record ∈ records, (m.lookup (recordId record)).isSome := by
  have hrun : importFromStore fresh m (.ok records) = importRecords fresh records m [] := rfl
  rcases importRecords_cases fresh records m [] with ⟨hall, heq⟩ | ⟨record, hr, hnone, heq⟩
  · rw [hrun, heq]
    refine ⟨fun _ => hall, fun _ => ⟨?_, ?_, fun _ _ h => h⟩⟩
    · -- every record is known: there is nothing to import
      have hnil : (records.map recordId).filter (fun id => (m.lookup id).isNone) = [] := by
        rw [List.filter_eq_nil_iff]
        intro id hid
        obtain ⟨r, hr, rfl⟩ := List.mem_map.mp hid
        simpa [Option.isNone_iff_eq_none, Option.isSome_iff_ne_none] using hall r hr
      rw [hnil]
    · intro r hr h
      have hk := hall r hr
      simp [h] at hk
  · constructor
    · -- a new record makes the import fail, and no ids are returned
      intro h
      have hids := h.ids
      rw [hrun, heq] at hids
      cases hids
    · intro h
      have hk := h record hr
      simp [hnone] at hk

/-- A session of another process, as it is stored. -/
def stored : SessionRecord :=
  ⟨"imported-session", 4711, 4712, "fake", some "main.py", some "ws", none, 1⟩

theorem import_refuses_a_new_session :
    ¬ Discovers ∅ [stored] (importFromStore (fun _ => (⟨"generated"⟩, 0)) ∅ (.ok [stored])) := by
  intro h
  have hids : Except.error (InstanceError.invalidTransition "pending" "running") = .ok _ := h.ids
  cases hids

/-! ### Exporting -/

/-- Build a cross-process session record from a managed instance handle. -/
def sessionRecordFromHandle (handle : InstanceHandle) : Option SessionRecord := do
  let controlPort ← handle.spec.controlPort
  let pid ← handle.spec.pid
  let adapterId ← handle.spec.tags.lookup "adapter"
  return {
    instanceId := handle.spec.id.value
    pid
    controlPort
    adapterId
    program := handle.spec.label
    scope := handle.spec.scope
    parentId := handle.spec.parentId.map InstanceId.value
    startedAtUnix := handle.spec.createdAtUnix }

/-- What is exported of a record's spec is the record, but for the time. -/
lemma sessionRecordFromHandle_specOfRecord (fresh : Fresh) (record : SessionRecord)
    (state : InstanceState) :
    sessionRecordFromHandle ⟨specOfRecord fresh record, state⟩ =
      some { record with startedAtUnix := (fresh record).2 } := by
  have hadapter : (specOfRecord fresh record).tags.lookup "adapter" = some record.adapterId := by
    unfold specOfRecord
    cases record.program <;> cases record.scope <;> cases record.parentId <;>
      exact AList.lookup_insert _
  rcases record with ⟨instanceId, pid, controlPort, adapterId, program, scope, parentId, started⟩
  simp only [sessionRecordFromHandle, hadapter]
  cases program <;> cases scope <;> cases parentId <;> rfl

/-- **A record comes back** from the registry exactly where it was registered at the very time
that it says the session started. -/
theorem record_round_trip_iff (fresh : Fresh) {m : InstanceManager} {record : SessionRecord}
    (h : m.lookup (recordId record) = none) :
    ((InstanceManager.register m (specOfRecord fresh record)).1.lookup (recordId record)).bind
        sessionRecordFromHandle = some record ↔
      (fresh record).2 = record.startedAtUnix := by
  have hid := specOfRecord_id fresh record
  rw [InstanceManager.register_new (hid ▸ h), hid, AList.lookup_insert, Option.bind_some,
    sessionRecordFromHandle_specOfRecord, Option.some.injEq]
  rcases record with ⟨instanceId, pid, controlPort, adapterId, program, scope, parentId, started⟩
  simp

theorem record_round_trip_at_its_start :
    ((InstanceManager.register ∅ (specOfRecord (fun _ => (⟨"generated"⟩, 1)) stored)).1.lookup
      (recordId stored)).bind sessionRecordFromHandle = some stored :=
  (record_round_trip_iff (fun _ => (⟨"generated"⟩, 1)) (AList.lookup_empty _)).mpr rfl

theorem record_exported_with_another_start :
    ((InstanceManager.register ∅ (specOfRecord (fun _ => (⟨"generated"⟩, 2)) stored)).1.lookup
      (recordId stored)).bind sessionRecordFromHandle ≠ some stored := by
  intro h
  have hstarted := congrArg (Option.map SessionRecord.startedAtUnix) h
  cases hstarted

end DappyCore.Import
