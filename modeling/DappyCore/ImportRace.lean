import DappyCore.Import
import DappyCore.Lib.Trace

/-!
Importing sessions while other tasks make their calls. The importer takes the lock three times
for a record: to look for its id, to register it, and to set its state.
-/

namespace DappyCore.ImportRace

open Lib Lib.Trace Instances Import

/-! ### Steps -/

/-- What the importer does next for the record it is at. -/
inductive Stage | get | register | setState
  deriving DecidableEq

/-- The map, and where the importer is: the records from the current one on, the ids imported so
far, and what the call came to. -/
structure State where
  map : InstanceManager
  todo : List SessionRecord
  stage : Stage
  imported : List InstanceId
  outcome : Option (Except InstanceError (List InstanceId))

inductive Step
  | importer
  | call (call : Call)

/-- The call begins with the store's answer. -/
def begun (m : InstanceManager) (active : Except InstanceError (List SessionRecord)) : State :=
  match active with
  | .error e => ⟨m, [], .get, [], some (.error e)⟩
  | .ok records => ⟨m, records, .get, [], none⟩

def importerStep (fresh : Fresh) (s : State) : State :=
  match s.outcome, s.todo with
  | some _, _ => s
  | none, [] => { s with outcome := some (.ok s.imported) }
  | none, record :: rest =>
    match s.stage with
    | .get =>
      match s.map.get (recordId record) with
      | .ok _ => { s with todo := rest }
      | .error _ => { s with stage := .register }
    | .register =>
      match s.map.register (specOfRecord fresh record) with
      | (map, .error e) => { s with map, outcome := some (.error e) }
      | (map, .ok _) => { s with map, stage := .setState }
    | .setState =>
      match s.map.setState (recordId record) .running with
      | (map, .error e) => { s with map, outcome := some (.error e) }
      | (map, .ok _) => ⟨map, rest, .get, s.imported ++ [recordId record], none⟩

def step (fresh : Fresh) (s : State) : Step → State
  | .importer => importerStep fresh s
  | .call call => { s with map := call.apply s.map }

/-- The importer is about to register an instance under the id, and nobody else has. -/
def Registers (s : State) (id : InstanceId) : Prop :=
  s.outcome = none ∧ s.stage = .register ∧ s.map.lookup id = none ∧
    ∃ record rest, s.todo = record :: rest ∧ recordId record = id

/-- The importer's next step ends the call with an error. -/
def FailsNext (fresh : Fresh) (s : State) : Prop :=
  s.outcome = none ∧ ∃ e, (importerStep fresh s).outcome = some (.error e)

/-- What the calls of the other tasks alone leave. -/
def leftByOthers (m : InstanceManager) : List Step → InstanceManager
  | [] => m
  | .importer :: run => leftByOthers m run
  | .call call :: run => leftByOthers (call.apply m) run

variable {fresh : Fresh} {s : State} {id : InstanceId} {run : List Step}

/-- The importer registered the id in the run. -/
def RegisteredIn (fresh : Fresh) (s : State) (run : List Step) (id : InstanceId) : Prop :=
  ∃ pre post, run = pre ++ .importer :: post ∧ Registers (pre.foldl (step fresh) s) id

/-- Nothing is left of what the importer registered, and the rest is as the others left it. -/
structure AllOrNothing (fresh : Fresh) (s : State) (run : List Step) : Prop where
  absent : ∀ id, RegisteredIn fresh s run id →
    (run.foldl (step fresh) s).map.lookup id = none
  others : ∀ id, ¬ RegisteredIn fresh s run id →
    (run.foldl (step fresh) s).map.lookup id = (leftByOthers s.map run).lookup id

/-- At the step with which the call fails, nothing is left of it. -/
def UndoneOnFailure (fresh : Fresh) (s : State) (run : List Step) : Prop :=
  ∀ done rest, run = done ++ .importer :: rest → FailsNext fresh (done.foldl (step fresh) s) →
    AllOrNothing fresh s (done ++ [.importer])

/-- Another task removes the instance, and none registers one under its id after that. -/
def TakenBack (id : InstanceId) (run : List Step) : Prop :=
  ∃ pre post, run = pre ++ .call (.remove id) :: post ∧
    ∀ spec, .call (.register spec) ∈ post → spec.id ≠ id

/-! ### One step -/

/-- **One step of the importer** leaves the map alone, registers, or sets a state. -/
theorem importerStep_cases (fresh : Fresh) (s : State) :
    ((importerStep fresh s).map = s.map ∧ ∀ id, ¬ Registers s id) ∨
      (∃ record, (∀ id, Registers s id ↔ id = recordId record) ∧ (importerStep fresh s).map =
        AList.insert (recordId record) ⟨specOfRecord fresh record, .pending⟩ s.map) ∨
      ∃ record rest, s.outcome = none ∧ s.stage = .setState ∧ s.todo = record :: rest ∧
        (importerStep fresh s).map = (s.map.setState (recordId record) .running).1 := by
  rcases s with ⟨map, todo, stage, imported, outcome⟩
  cases outcome with
  | some r => exact .inl ⟨rfl, fun id h => Option.some_ne_none r h.1⟩
  | none =>
    cases todo with
    | nil =>
      refine .inl ⟨rfl, ?_⟩
      rintro id ⟨-, -, -, record, rest, htodo, -⟩
      cases htodo
    | cons record rest =>
      cases stage with
      | get =>
        -- it only looks for the id
        refine .inl ⟨?_, fun id h => Stage.noConfusion h.2.1⟩
        simp only [importerStep]
        cases map.get (recordId record) <;> rfl
      | register =>
        have hid := specOfRecord_id fresh record
        cases hl : map.lookup (recordId record) with
        | none =>
          refine .inr (.inl ⟨record, fun id => ?_, ?_⟩)
          · constructor
            · rintro ⟨-, -, -, record', rest', htodo, rfl⟩
              rw [(List.cons.inj htodo).1]
            · rintro rfl
              exact ⟨rfl, rfl, hl, record, rest, rfl, rfl⟩
          · have hreg := InstanceManager.register_new (m := map) (hid ▸ hl)
            rw [hid] at hreg
            simp only [importerStep, hreg]
        | some handle =>
          -- another task has registered the id meanwhile: the call ends
          have hreg := InstanceManager.register_taken (m := map) (hid ▸ hl)
          refine .inl ⟨by simp only [importerStep, hreg], ?_⟩
          rintro id ⟨-, -, hnone, record', rest', htodo, rfl⟩
          obtain ⟨rfl, rfl⟩ := List.cons.inj htodo
          exact Option.some_ne_none handle (hl.symm.trans hnone)
      | setState =>
        refine .inr (.inr ⟨record, rest, rfl, rfl, rfl, ?_⟩)
        simp only [importerStep]
        rcases map.setState (recordId record) .running with ⟨map', _ | _⟩ <;> rfl

/-- The importer comes to set a state only from having registered. -/
lemma registers_of_setState (ho : (importerStep fresh s).outcome = none)
    (hs : (importerStep fresh s).stage = .setState) :
    ∃ record rest, (importerStep fresh s).todo = record :: rest ∧
      Registers s (recordId record) := by
  rcases s with ⟨map, todo, stage, imported, outcome⟩
  cases outcome with
  | some r => cases ho
  | none =>
    cases todo with
    | nil => cases ho
    | cons record rest =>
      cases stage with
      | get =>
        -- from the look for the id it goes to the next record, or to registering
        simp only [importerStep] at hs
        cases hg : map.get (recordId record) <;> rw [hg] at hs <;> cases hs
      | register =>
        have hid := specOfRecord_id fresh record
        cases hl : map.lookup (recordId record) with
        | none =>
          have hreg := InstanceManager.register_new (m := map) (hid ▸ hl)
          refine ⟨record, rest, ?_, rfl, rfl, hl, record, rest, rfl, rfl⟩
          simp only [importerStep, hreg]
        | some handle =>
          have hreg := InstanceManager.register_taken (m := map) (hid ▸ hl)
          simp only [importerStep, hreg] at ho
          cases ho
      | setState =>
        simp only [importerStep] at ho hs
        rcases hset : map.setState (recordId record) .running with ⟨map', e | h⟩
        · rw [hset] at ho
          cases ho
        · rw [hset] at hs
          cases hs

/-- What it registers is there. -/
lemma lookup_of_registers (h : Registers s id) : (importerStep fresh s).map.lookup id ≠ none := by
  rcases importerStep_cases fresh s with ⟨-, hno⟩ | ⟨record, hiff, hmap⟩ | ⟨_, _, -, hs, -⟩
  · exact absurd h (hno id)
  · rw [hmap, (hiff id).mp h, AList.lookup_insert]
    exact Option.some_ne_none _
  · exact Stage.noConfusion (hs.symm.trans h.2.1)

lemma lookup_setState_eq_none {m : InstanceManager} {id' : InstanceId} {next : InstanceState} :
    (m.setState id' next).1.lookup id = none ↔ m.lookup id = none := by
  rw [InstanceManager.lookup_setState]
  split_ifs <;> simp

/-- **An instance comes up** by being registered, by the importer or another task. -/
theorem exists_register {i : Step} (hs : s.map.lookup id = none)
    (h : (step fresh s i).map.lookup id ≠ none) :
    i = .importer ∧ Registers s id ∨ ∃ spec, i = .call (.register spec) ∧ spec.id = id := by
  cases i with
  | importer =>
    refine .inl ⟨rfl, ?_⟩
    rcases importerStep_cases fresh s with ⟨hmap, -⟩ | ⟨record, hiff, hmap⟩ | ⟨_, _, -, -, -, hmap⟩
    · exact absurd (hmap ▸ hs) h
    · by_contra hno
      have hne : id ≠ recordId record := fun e => hno ((hiff id).mpr e)
      exact h (by rw [step, hmap, AList.lookup_insert_ne hne, hs])
    · exact absurd (by rw [step, hmap, lookup_setState_eq_none, hs]) h
  | call call =>
    refine .inr ?_
    simp only [step, Call.lookup_apply] at h
    split_ifs at h with e
    · subst e
      rw [hs] at h
      cases call with
      | register spec => exact ⟨spec, rfl, rfl⟩
      | _ => exact absurd rfl h
    · exact absurd hs h

/-- **An instance goes** by being removed by another task. -/
theorem eq_remove {i : Step} (hs : s.map.lookup id ≠ none)
    (h : (step fresh s i).map.lookup id = none) : i = .call (.remove id) := by
  cases i with
  | importer =>
    refine absurd ?_ hs
    rcases importerStep_cases fresh s with ⟨hmap, -⟩ | ⟨record, hiff, hmap⟩ | ⟨_, _, -, -, -, hmap⟩
    · rwa [step, hmap] at h
    · rw [step, hmap, HashMap.lookup_insert_of] at h
      split_ifs at h
      exact h
    · rwa [step, hmap, lookup_setState_eq_none] at h
  | call call =>
    simp only [step, Call.lookup_apply] at h
    split_ifs at h with e
    · subst e
      cases call with
      | remove id => rfl
      | register spec => cases h
      | _ => exact absurd (Option.map_eq_none_iff.mp h) hs
    · exact absurd h hs

/-! ### Undisturbed -/

/-- The loop over the records is taken step by step. -/
lemma foldl_importRecords (fresh : Fresh) (records : List SessionRecord) (m : InstanceManager)
    (imported : List InstanceId) :
    ∃ n, ((List.replicate n .importer).foldl (step fresh)
        ⟨m, records, .get, imported, none⟩).map = (importRecords fresh records m imported).1 ∧
      ((List.replicate n .importer).foldl (step fresh)
        ⟨m, records, .get, imported, none⟩).outcome =
          some (importRecords fresh records m imported).2 := by
  induction records generalizing m imported with
  | nil => exact ⟨1, rfl, rfl⟩
  | cons record rest ih =>
    cases hg : m.get (recordId record) with
    | ok handle =>
      -- the record is passed over
      obtain ⟨n, hmap, hout⟩ := ih m imported
      refine ⟨n + 1, ?_⟩
      simp only [List.replicate_succ, List.foldl_cons, step, importerStep, importRecords, hg]
      exact ⟨hmap, hout⟩
    | error e =>
      cases hr : m.register (specOfRecord fresh record) with | mk m₁ result
      cases result with
      | error e =>
        -- registering fails
        refine ⟨2, ?_⟩
        simp only [List.replicate_succ, List.replicate_zero, List.foldl_cons, List.foldl_nil, step,
          importerStep, importRecords, hg, hr, and_self]
      | ok id =>
        cases hs : m₁.setState (recordId record) .running with | mk m₂ result
        cases result with
        | error e =>
          -- setting the state fails
          refine ⟨3, ?_⟩
          simp only [List.replicate_succ, List.replicate_zero, List.foldl_cons, List.foldl_nil,
            step, importerStep, importRecords, hg, hr, hs, and_self]
        | ok handle =>
          -- the record is imported, in three steps
          obtain ⟨n, hmap, hout⟩ := ih m₂ (imported ++ [recordId record])
          refine ⟨n + 3, ?_⟩
          simp only [List.replicate_succ, List.foldl_cons, step, importerStep, importRecords, hg,
            hr, hs]
          exact ⟨hmap, hout⟩

/-- **Undisturbed**, the steps come to what `import_from_store` does. -/
theorem foldl_importFromStore (fresh : Fresh) (m : InstanceManager)
    (active : Except InstanceError (List SessionRecord)) :
    ∃ n, ((List.replicate n .importer).foldl (step fresh) (begun m active)).map =
        (importFromStore fresh m active).1 ∧
      ((List.replicate n .importer).foldl (step fresh) (begun m active)).outcome =
        some (importFromStore fresh m active).2 := by
  cases active with
  | error e => exact ⟨0, rfl, rfl⟩
  | ok records => exact foldl_importRecords fresh records m []

/-! ### Runs -/

/-- What is there and then is not has been taken back. -/
lemma takenBack_of_absent (hs : s.map.lookup id ≠ none)
    (h : (run.foldl (step fresh) s).map.lookup id = none) : TakenBack id run := by
  obtain ⟨pre, i, post, rfl, hpre, hpost⟩ :=
    exists_lasting (p := fun s : State => s.map.lookup id = none) hs h
  obtain rfl := eq_remove hpre (hpost [] List.nil_prefix)
  refine ⟨pre, post, rfl, fun spec hmem he => ?_⟩
  obtain ⟨mid, rest, rfl⟩ := List.append_of_mem hmem
  have hnone := hpost (mid ++ [.call (.register spec)]) ⟨rest, by simp⟩
  rw [List.foldl_append, List.foldl_cons, List.foldl_nil, step] at hnone
  simp [Call.lookup_apply, Call.target, Call.effect, he] at hnone

/-- What is taken back whenever the importer registers it is not there in the end. The run is
followed from the last time that the instance was removed. -/
lemma absent_of_takenBack (h : TakenBack id run)
    (hreg : ∀ pre post, run = pre ++ .importer :: post →
      Registers (pre.foldl (step fresh) s) id → TakenBack id post) :
    (run.foldl (step fresh) s).map.lookup id = none := by
  induction hn : run.length using Nat.strong_induction_on generalizing s run with
  | _ n ih =>
    obtain ⟨pre, post, rfl, hpost⟩ := h
    by_contra hend
    rw [List.foldl_append, List.foldl_cons] at hend
    have hgone : ¬ (step fresh (pre.foldl (step fresh) s) (.call (.remove id))).map.lookup id ≠
        none := by
      rw [step, not_not, Call.lookup_apply, Call.target, if_pos rfl, Call.effect]
    obtain ⟨mid, i, rest, rfl, hmid, hrest⟩ :=
      exists_lasting (p := fun s : State => s.map.lookup id ≠ none) hgone hend
    rcases exists_register (not_not.mp hmid) (hrest [] List.nil_prefix) with
      ⟨rfl, hi⟩ | ⟨spec, rfl, he⟩
    · have hback := hreg (pre ++ .call (.remove id) :: mid) rest (by simp)
        (by rwa [List.foldl_append, List.foldl_cons])
      refine hrest rest (List.prefix_refl _) (ih rest.length ?_ hback ?_ rfl)
      · simp only [← hn, List.length_append, List.length_cons]
        omega
      · rintro pre' post' rfl hreg'
        refine hreg (pre ++ .call (.remove id) :: (mid ++ .importer :: pre')) post' (by simp) ?_
        simpa only [List.foldl_append, List.foldl_cons] using hreg'
    · exact hpost spec (by simp) he

/-- What the importer does not register it leaves alone. -/
lemma lookup_leftByOthers {m : InstanceManager} (hno : ¬ RegisteredIn fresh s run id)
    (hstage : s.outcome = none → s.stage = .setState → ∀ record rest, s.todo = record :: rest →
      recordId record ≠ id)
    (hm : s.map.lookup id = m.lookup id) :
    (run.foldl (step fresh) s).map.lookup id = (leftByOthers m run).lookup id := by
  induction run generalizing s m with
  | nil => exact hm
  | cons i run ih =>
    have hrest : ¬ RegisteredIn fresh (step fresh s i) run id := by
      rintro ⟨pre, post, rfl, hreg⟩
      exact hno ⟨i :: pre, post, rfl, hreg⟩
    cases i with
    | call call =>
      refine ih hrest hstage ?_
      simp only [step, Call.lookup_apply, hm]
    | importer =>
      have hfirst : ¬ Registers s id := fun h => hno ⟨[], run, rfl, h⟩
      refine ih hrest (fun ho hs record rest htodo => ?_) (Eq.trans ?_ hm)
      · obtain ⟨record', rest', htodo', hreg⟩ := registers_of_setState ho hs
        obtain ⟨rfl, rfl⟩ := List.cons.inj (htodo'.symm.trans htodo)
        exact fun e => hfirst (e ▸ hreg)
      · rcases importerStep_cases fresh s with ⟨hmap, -⟩ | ⟨record, hiff, hmap⟩ |
          ⟨record, rest, ho, hs, htodo, hmap⟩
        · rw [step, hmap]
        · rw [step, hmap, AList.lookup_insert_ne fun e => hfirst ((hiff id).mpr e)]
        · have hne : id ≠ recordId record := fun e => hstage ho hs record rest htodo e.symm
          rw [step, hmap, InstanceManager.lookup_setState, if_neg hne]

/-- **An import leaves nothing behind** exactly where another task takes back each instance
that it registers. -/
theorem allOrNothing_iff (fresh : Fresh) (m : InstanceManager)
    (active : Except InstanceError (List SessionRecord)) (run : List Step) :
    AllOrNothing fresh (begun m active) run ↔
      ∀ pre post id, run = pre ++ .importer :: post →
        Registers (pre.foldl (step fresh) (begun m active)) id → TakenBack id post := by
  constructor
  · rintro h pre post id rfl hreg
    have habsent := h.absent id ⟨pre, post, rfl, hreg⟩
    rw [List.foldl_append, List.foldl_cons] at habsent
    exact takenBack_of_absent (lookup_of_registers hreg) habsent
  · intro h
    refine ⟨fun id hin => ?_, fun id hno => ?_⟩
    · obtain ⟨pre, post, rfl, hreg⟩ := hin
      rw [List.foldl_append, List.foldl_cons]
      refine absent_of_takenBack (h pre post id rfl hreg) ?_
      rintro pre' post' rfl hreg'
      refine h (pre ++ .importer :: pre') post' id (by simp) ?_
      rwa [List.foldl_append, List.foldl_cons]
    · refine lookup_leftByOthers hno (fun _ hs => ?_) ?_
      · cases active <;> cases hs
      · cases active <;> rfl

/-- The step with which the call fails registers nothing. -/
lemma not_registers_of_failsNext (h : FailsNext fresh s) : ¬ Registers s id := by
  rintro ⟨-, hstage, hnone, record, rest, htodo, rfl⟩
  obtain ⟨ho, e, he⟩ := h
  rcases s with ⟨map, todo, stage, imported, outcome⟩
  obtain rfl : outcome = none := ho
  obtain rfl : stage = .register := hstage
  obtain rfl : todo = record :: rest := htodo
  have hid := specOfRecord_id fresh record
  have hreg := InstanceManager.register_new (m := map) (hid ▸ hnone)
  simp [importerStep, hreg] at he

lemma takenBack_importer : TakenBack id (run ++ [.importer]) ↔ TakenBack id run := by
  constructor
  · rintro ⟨pre, post, hrun, hpost⟩
    rcases List.eq_nil_or_concat' post with rfl | ⟨post, i, rfl⟩
    · obtain ⟨-, hlast⟩ := List.append_inj' hrun rfl
      cases hlast
    · rw [← List.cons_append, ← List.append_assoc] at hrun
      obtain ⟨rfl, -⟩ := List.append_inj' hrun rfl
      exact ⟨pre, post, rfl, fun spec hmem => hpost spec (List.mem_append_left _ hmem)⟩
  · rintro ⟨pre, post, rfl, hpost⟩
    refine ⟨pre, post ++ [.importer], by simp, fun spec hmem => hpost spec ?_⟩
    simpa using hmem

/-- **A failed import is undone** exactly where, by the step with which it fails, other tasks have
undone what it registered. -/
theorem failed_import_undone_iff (fresh : Fresh) (m : InstanceManager)
    (active : Except InstanceError (List SessionRecord)) (run : List Step) :
    UndoneOnFailure fresh (begun m active) run ↔
      ∀ done rest, run = done ++ .importer :: rest →
        FailsNext fresh (done.foldl (step fresh) (begun m active)) →
        ∀ pre post id, done = pre ++ .importer :: post →
          Registers (pre.foldl (step fresh) (begun m active)) id → TakenBack id post := by
  refine forall_congr' fun done => forall_congr' fun rest => imp_congr_right fun _ =>
    imp_congr_right fun hfails => ?_
  rw [allOrNothing_iff]
  constructor
  · rintro h pre post id rfl hreg
    exact takenBack_importer.mp (h pre (post ++ [.importer]) id (by simp) hreg)
  · intro h pre post id hdone hreg
    rcases List.eq_nil_or_concat' post with rfl | ⟨post, i, rfl⟩
    · obtain ⟨rfl, -⟩ := List.append_inj' hdone rfl
      exact absurd hreg (not_registers_of_failsNext hfails)
    · rw [← List.cons_append, ← List.append_assoc] at hdone
      obtain ⟨hbefore, hlast⟩ := List.append_inj' hdone rfl
      obtain rfl := (List.cons.inj hlast).1
      exact takenBack_importer.mpr (h pre post id hbefore hreg)

/-- The importer registers a record, and then cannot set its state. -/
theorem failed_import_leaves_an_instance :
    ¬ UndoneOnFailure (fun _ => (⟨"generated"⟩, 0)) (begun ∅ (.ok [stored]))
      [.importer, .importer, .importer] := by
  intro h
  have hundone := h [.importer, .importer] [] rfl ⟨rfl, _, rfl⟩
  have hreg : Registers (step (fun _ => (⟨"generated"⟩, 0)) (begun ∅ (.ok [stored])) .importer)
      (recordId stored) := ⟨rfl, rfl, rfl, stored, [], rfl, rfl⟩
  have habsent := hundone.absent (recordId stored) ⟨[.importer], [.importer], rfl, hreg⟩
  cases habsent

end DappyCore.ImportRace
