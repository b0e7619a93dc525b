import DappyCore.Instances
import DappyCore.Lib.Trace

/-!
Pruning stale instances while other tasks make their calls. `prune_stale` takes the lock once to
list the instances, and once more for each that it removes.
-/

namespace DappyCore.Pruning

open Lib Lib.Trace Instances

/-! ### Undisturbed -/

/-- The ids of the instances that do not look alive. -/
def staleIds (o : Oracle) (order : HashMap.Order InstanceId InstanceHandle)
    (m : InstanceManager) : List InstanceId :=
  ((m.list order none).filter fun handle => !handle.isAlive o).map (·.spec.id)

/-- The loop over the stale ids, with the ids removed so far. -/
def removeEach : List InstanceId → InstanceManager → List InstanceId →
    InstanceManager × List InstanceId
  | [], m, removed => (m, removed)
  | id :: stale, m, removed =>
    match m.remove id with
    | (m, .ok _) => removeEach stale m (removed ++ [id])
    | (m, .error _) => removeEach stale m removed

/-- Remove instances whose owning process or control port is no longer alive. -/
def pruneStale (o : Oracle) (order : HashMap.Order InstanceId InstanceHandle)
    (m : InstanceManager) : InstanceManager × List InstanceId :=
  removeEach (staleIds o order m) m []

/-! ### Among other tasks -/

/-- The map, and where a call of `prune_stale` is: what it has still to remove, and what it has
removed. -/
structure State where
  map : InstanceManager
  stale : List InstanceId
  removed : List InstanceId

inductive Step
  | call (call : Call)
  | list
  | remove

def start : State := ⟨∅, [], []⟩

def step (o : Oracle) (order : HashMap.Order InstanceId InstanceHandle) (s : State) :
    Step → State
  | .call call => { s with map := call.apply s.map }
  | .list =>
    -- the next call of `prune_stale` begins when the one before it is done
    if s.stale = [] then { s with stale := staleIds o order s.map, removed := [] } else s
  | .remove =>
    match s.stale with
    | [] => s
    | id :: stale =>
      match s.map.remove id with
      | (map, .ok _) => ⟨map, stale, s.removed ++ [id]⟩
      | (map, .error _) => ⟨map, stale, s.removed⟩

/-- There is an instance under the id, and it looks alive. -/
def AliveAt (o : Oracle) (m : InstanceManager) (id : InstanceId) : Prop :=
  ∃ handle, m.lookup id = some handle ∧ handle.isAlive o

/-- A run from the start. -/
def after (o : Oracle) (order : HashMap.Order InstanceId InstanceHandle) (done : List Step) :
    State :=
  done.foldl (step o order) start

/-- The call brings an instance to life that was not there or did not look alive. -/
def Revives (o : Oracle) (m : InstanceManager) (call : Call) (id : InstanceId) : Prop :=
  ¬ AliveAt o m id ∧ AliveAt o (call.apply m) id

/-- Nothing is removed that looks alive at that moment. -/
def RemovesOnlyStale (o : Oracle) (s : State) : Step → Prop
  | .remove => ∀ id ∈ s.stale.head?, ¬ AliveAt o s.map id
  | .call _ | .list => True

/-- The call takes its life from an instance that looked alive. -/
def Ends (o : Oracle) (m : InstanceManager) (call : Call) (id : InstanceId) : Prop :=
  AliveAt o m id ∧ ¬ AliveAt o (call.apply m) id

/-- A call brought the instance to life while it waited to be removed, and in all the time that it
has waited since no call has taken its life again. -/
structure BroughtBack (o : Oracle) (order : HashMap.Order InstanceId InstanceHandle)
    (id : InstanceId) (pre : List Step) (call : Call) (mid : List Step) : Prop where
  revived : Revives o (after o order pre).map call id
  waits : ∀ m, m <+: mid → id ∈ (after o order (pre ++ .call call :: m)).stale
  unended : ∀ m call' rest, mid = m ++ .call call' :: rest →
    ¬ Ends o (after o order (pre ++ .call call :: m)).map call' id

/-- What the next removal is of has not been brought back since it was listed. -/
def NotBroughtBack (o : Oracle) (order : HashMap.Order InstanceId InstanceHandle)
    (done : List Step) : Step → Prop
  | .remove => ∀ id ∈ (after o order done).stale.head?, ∀ pre call mid,
      done = pre ++ .call call :: mid → ¬ BroughtBack o order id pre call mid
  | .call _ | .list => True

variable {o : Oracle} {order : HashMap.Order InstanceId InstanceHandle} {s : State}
  {m : InstanceManager} {id : InstanceId}

/-! ### One step -/

lemma aliveAt_congr {m' : InstanceManager} (h : m'.lookup id = m.lookup id) :
    AliveAt o m' id ↔ AliveAt o m id := by
  unfold AliveAt
  rw [h]

lemma step_remove (o : Oracle) (order : HashMap.Order InstanceId InstanceHandle)
    {stale : List InstanceId} (h : s.stale = id :: stale) :
    (step o order s .remove).map = (s.map.remove id).1 ∧
      (step o order s .remove).stale = stale := by
  simp only [step, h]
  rcases s.map.remove id with ⟨map, _ | _⟩ <;> exact ⟨rfl, rfl⟩

/-- Where a call brings an instance to life, it registers it, restarts it after it stopped or
failed, or gives it a process or a port that is alive. -/
theorem revives_cases {call : Call} (h : Revives o m call id) :
    call.target = id ∧
      ((∃ spec, call = .register spec ∧ m.lookup id = none) ∨
        (∃ handle, call = .setState id .starting ∧ m.lookup id = some handle ∧
          (handle.state = .stopped ∨ handle.state = .failed)) ∨
        (∃ pid, call = .setPid id pid ∧ o.isPidAlive pid) ∨
        ∃ port, call = .setControlPort id port ∧ o.isControlPortInUse port) := by
  obtain ⟨hdead, handle, hl, halive⟩ := h
  have htarget : call.target = id := by
    by_contra hne
    rw [Call.lookup_apply, if_neg fun e => hne e.symm] at hl
    exact hdead ⟨handle, hl, halive⟩
  subst htarget
  rw [Call.lookup_apply, if_pos rfl] at hl
  refine ⟨rfl, ?_⟩
  cases call with
  | register spec =>
    -- an id that is taken stays with the instance that has it
    refine .inl ⟨spec, rfl, ?_⟩
    cases hm : m.lookup (Call.register spec).target with
    | none => rfl
    | some old =>
      rw [hm] at hl
      obtain rfl : old = handle := Option.some.inj hl
      exact absurd ⟨old, hm, halive⟩ hdead
  | setState _ next =>
    obtain ⟨old, hm, rfl⟩ := Option.map_eq_some_iff.mp hl
    have hold : ¬ old.isAlive o := fun h => hdead ⟨old, hm, h⟩
    split_ifs at halive with hn
    · refine .inr (.inl ⟨old, ?_, hm, ?_⟩)
      · rcases old with ⟨spec, state⟩
        cases state <;> cases next <;>
          simp_all [InstanceState.canTransitionTo, InstanceHandle.isAlive, Call.target]
      · rcases old with ⟨spec, state⟩
        cases state <;> cases next <;>
          simp_all [InstanceState.canTransitionTo, InstanceHandle.isAlive]
    · exact absurd halive hold
  | setPid _ pid =>
    obtain ⟨old, hm, rfl⟩ := Option.map_eq_some_iff.mp hl
    refine .inr (.inr (.inl ⟨pid, rfl, ?_⟩))
    rcases old with ⟨spec, state⟩
    cases state <;> simp_all [InstanceHandle.isAlive, InstanceSpec.withPid]
  | setControlPort _ port =>
    obtain ⟨old, hm, rfl⟩ := Option.map_eq_some_iff.mp hl
    refine .inr (.inr (.inr ⟨port, rfl, ?_⟩))
    rcases old with ⟨spec, state⟩
    cases state <;> simp_all [InstanceHandle.isAlive, InstanceSpec.withControlPort]
  | remove _ => cases hl

lemma foldl_remove (stale : List InstanceId) (m : InstanceManager) (removed : List InstanceId) :
    (List.replicate stale.length .remove).foldl (step o order) ⟨m, stale, removed⟩ =
      ⟨(removeEach stale m removed).1, [], (removeEach stale m removed).2⟩ := by
  induction stale generalizing m removed with
  | nil => rfl
  | cons id stale ih =>
    rw [List.length_cons, List.replicate_succ, List.foldl_cons]
    simp only [step, removeEach]
    rcases m.remove id with ⟨map, _ | _⟩ <;> exact ih map _

/-- **Undisturbed**, the steps come to what `prune_stale` does. -/
theorem foldl_pruneStale (o : Oracle) (order : HashMap.Order InstanceId InstanceHandle)
    (m : InstanceManager) (removed : List InstanceId) :
    (.list :: List.replicate (staleIds o order m).length .remove).foldl (step o order)
        ⟨m, [], removed⟩ =
      ⟨(pruneStale o order m).1, [], (pruneStale o order m).2⟩ :=
  foldl_remove (staleIds o order m) m []

/-- Where a call takes its life from an instance, it removes it, lets it stop or fail, or gives it a
process or a port that is not alive. -/
theorem ends_cases {call : Call} (h : Ends o m call id) :
    call.target = id ∧
      (call = .remove id ∨ call = .setState id .stopped ∨ call = .setState id .failed ∨
        (∃ pid, call = .setPid id pid ∧ ¬ o.isPidAlive pid) ∨
        ∃ port, call = .setControlPort id port ∧ ¬ o.isControlPortInUse port) := by
  obtain ⟨⟨handle, hl, halive⟩, hdead⟩ := h
  have htarget : call.target = id := by
    by_contra hne
    refine hdead ⟨handle, ?_, halive⟩
    rw [Call.lookup_apply, if_neg fun e => hne e.symm, hl]
  subst htarget
  have heffect : ∀ handle', call.effect (some handle) = some handle' → ¬ handle'.isAlive o := by
    intro handle' he halive'
    refine hdead ⟨handle', ?_, halive'⟩
    rw [Call.lookup_apply, if_pos rfl, hl, he]
  refine ⟨rfl, ?_⟩
  rcases handle with ⟨spec, state⟩
  cases call with
  | register spec' => exact absurd halive (heffect _ rfl)
  | setState _ next =>
    have hnext := heffect _ rfl
    cases state <;> cases next <;>
      simp_all [InstanceState.canTransitionTo, InstanceHandle.isAlive, Call.target]
  | setPid _ pid =>
    have hnext := heffect _ rfl
    refine .inr (.inr (.inr (.inl ⟨pid, rfl, fun hpid => hnext ?_⟩)))
    cases state <;> simp_all [InstanceHandle.isAlive, InstanceSpec.withPid]
  | setControlPort _ port =>
    have hnext := heffect _ rfl
    refine .inr (.inr (.inr (.inr ⟨port, rfl, fun hport => hnext ?_⟩)))
    cases state <;> simp_all [InstanceHandle.isAlive, InstanceSpec.withControlPort]
  | remove _ => exact .inl rfl

/-! ### Runs -/

/-- Every handle is under its own id, and none is listed twice. -/
structure ListInv (s : State) : Prop where
  keyed : s.map.Keyed
  nodup : s.stale.Nodup

lemma listInv_start : ListInv start where
  keyed := by simp [InstanceManager.Keyed, start]
  nodup := List.nodup_nil

lemma dead_of_mem_staleIds (hm : m.Keyed) (h : id ∈ staleIds o order m) : ¬ AliveAt o m id := by
  obtain ⟨handle, hmem, rfl⟩ := List.mem_map.mp h
  obtain ⟨hlist, hdead⟩ := List.mem_filter.mp hmem
  obtain ⟨⟨key, handle'⟩, hvisit, rfl⟩ := List.mem_map.mp (List.mem_filter.mp hlist).1
  have hl : m.lookup key = some handle' := order.mem_visit.mp hvisit
  rintro ⟨handle, hl', halive⟩
  rw [hm key handle' hl, hl] at hl'
  rw [Option.some.inj hl', halive] at hdead
  cases hdead

lemma nodup_staleIds (o : Oracle) (order : HashMap.Order InstanceId InstanceHandle)
    (hm : m.Keyed) : (staleIds o order m).Nodup := by
  have hids : (order.visit m).map (·.2.spec.id) = (order.visit m).map (·.1) :=
    List.map_congr_left fun e he => hm e.1 e.2 (order.mem_visit.mp he)
  have hnodup : ((order.visit m).map (·.2.spec.id)).Nodup := hids ▸ order.nodup_keys m
  have hsub : (staleIds o order m).Sublist ((order.visit m).map (·.2.spec.id)) := by
    have h := (List.filter_sublist (p := fun handle : InstanceHandle => !handle.isAlive o)
      (l := m.list order none)).trans List.filter_sublist
    simpa [staleIds, Function.comp_def] using h.map (·.spec.id)
  exact hnodup.sublist hsub

lemma listInv_step (h : ListInv s) (i : Step) : ListInv (step o order s i) := by
  cases i with
  | call call => exact ⟨Call.keyed_apply h.keyed call, h.nodup⟩
  | list =>
    unfold step
    dsimp only
    split_ifs with hs
    · exact ⟨h.keyed, nodup_staleIds o order h.keyed⟩
    · exact h
  | remove =>
    cases hs : s.stale with
    | nil =>
      have hsame : step o order s .remove = s := by simp [step, hs]
      rwa [hsame]
    | cons id stale =>
      obtain ⟨hmap, hstale⟩ := step_remove o order hs
      refine ⟨fun id' handle hl => ?_, ?_⟩
      · rw [hmap, InstanceManager.lookup_remove] at hl
        split_ifs at hl
        exact h.keyed id' handle hl
      · rw [hstale]
        have hnodup := h.nodup
        rw [hs] at hnodup
        exact (List.nodup_cons.mp hnodup).2

lemma listInv_after (o : Oracle) (order : HashMap.Order InstanceId InstanceHandle)
    (done : List Step) : ListInv (after o order done) :=
  inv_foldl (I := ListInv) (fun _ i h => listInv_step h i) listInv_start done

lemma after_append (done rest : List Step) :
    after o order (done ++ rest) = rest.foldl (step o order) (after o order done) :=
  List.foldl_append

lemma after_concat (done : List Step) (i : Step) :
    after o order (done ++ [i]) = step o order (after o order done) i := after_append done [i]

/-- The pruner does not list again before it is done. -/
lemma step_list (h : id ∈ s.stale) : step o order s .list = s := by
  have hne : s.stale ≠ [] := List.ne_nil_of_mem h
  simp [step, hne]

/-- What still waits after a removal waited before, and is as it was. -/
lemma waits_of_remove (h : ListInv s) (hid : id ∈ (step o order s .remove).stale) :
    id ∈ s.stale ∧ (step o order s .remove).map.lookup id = s.map.lookup id := by
  cases hs : s.stale with
  | nil =>
    have hsame : step o order s .remove = s := by simp [step, hs]
    rw [hsame, hs] at hid
    cases hid
  | cons x stale =>
    obtain ⟨hmap, hstale⟩ := step_remove o order hs
    rw [hstale] at hid
    have hnodup := h.nodup
    rw [hs] at hnodup
    have hne : id ≠ x := fun e => (List.nodup_cons.mp hnodup).1 (e ▸ hid)
    exact ⟨List.mem_cons_of_mem _ hid, by rw [hmap, InstanceManager.lookup_remove, if_neg hne]⟩

lemma BroughtBack.aliveAt {pre mid m : List Step} {call : Call}
    (h : BroughtBack o order id pre call mid) (hm : m <+: mid) :
    AliveAt o (after o order (pre ++ .call call :: m)).map id := by
  induction m using List.reverseRecOn with
  | nil =>
    rw [after_concat]
    exact h.revived.2
  | append_singleton m i ih =>
    have hshorter := (List.prefix_append m [i]).trans hm
    have hbefore := ih hshorter
    have hwaits := h.waits _ hm
    rw [← List.cons_append, ← List.append_assoc, after_concat] at hwaits ⊢
    cases i with
    | call call' =>
      obtain ⟨rest, rfl⟩ := hm
      by_contra hdead
      exact h.unended m call' rest (by simp) ⟨hbefore, hdead⟩
    | list => rwa [step_list (h.waits m hshorter)]
    | remove =>
      exact (aliveAt_congr (waits_of_remove (listInv_after o order _) hwaits).2).mpr hbefore

/-- **What waits and looks alive** was brought back since it was listed. -/
theorem aliveAt_iff {done : List Step} (hid : id ∈ (after o order done).stale) :
    AliveAt o (after o order done).map id ↔
      ∃ pre call mid, done = pre ++ .call call :: mid ∧ BroughtBack o order id pre call mid := by
  constructor
  · intro halive
    let back : State → Prop := fun s => id ∈ s.stale ∧ AliveAt o s.map id
    have hstart : ¬ back start := by simp [back, start]
    have hends : back (done.foldl (step o order) start) := ⟨hid, halive⟩
    obtain ⟨pre, i, mid, rfl, hpre, hmid⟩ := exists_lasting hstart hends
    obtain ⟨hwaits, hback⟩ := hmid [] List.nil_prefix
    cases i with
    | call call =>
      refine ⟨pre, call, mid, rfl, ⟨fun h => hpre ⟨hwaits, h⟩, hback⟩, fun m hm => ?_, ?_⟩
      · rw [after_append]
        exact (hmid m hm).1
      · rintro m call' rest rfl ⟨-, hdead⟩
        have hlater := (hmid (m ++ [.call call']) ⟨rest, by simp⟩).2
        rw [List.foldl_append] at hlater
        rw [after_append] at hdead
        exact hdead hlater
    | list =>
      by_cases hstale : (after o order pre).stale = []
      · -- what has just been listed does not look alive
        have hlisted : step o order (after o order pre) .list =
            { after o order pre with
              stale := staleIds o order (after o order pre).map, removed := [] } := by
          simp [step, hstale]
        have hdead : id ∈ staleIds o order (after o order pre).map →
            ¬ AliveAt o (after o order pre).map id :=
          dead_of_mem_staleIds (listInv_after o order pre).keyed
        change id ∈ (step o order (after o order pre) .list).stale at hwaits
        change AliveAt o (step o order (after o order pre) .list).map id at hback
        rw [hlisted] at hwaits hback
        exact absurd hback (hdead hwaits)
      · have hsame : step o order (after o order pre) .list = after o order pre := by
          simp [step, hstale]
        change id ∈ (step o order (after o order pre) .list).stale at hwaits
        change AliveAt o (step o order (after o order pre) .list).map id at hback
        rw [hsame] at hwaits hback
        exact absurd ⟨hwaits, hback⟩ hpre
    | remove =>
      obtain ⟨hwaited, hsame⟩ := waits_of_remove (listInv_after o order pre) hwaits
      exact absurd ⟨hwaited, (aliveAt_congr hsame).mp hback⟩ hpre
  · rintro ⟨pre, call, mid, rfl, hback⟩
    exact hback.aliveAt List.prefix_rfl

/-- **Pruning removes only what is stale** in a run exactly where nothing that it removes was
brought back to life while it waited to be removed. -/
theorem removesOnlyStale_iff (o : Oracle) (order : HashMap.Order InstanceId InstanceHandle)
    (run : List Step) :
    Along (step o order) (RemovesOnlyStale o) start run ↔
      ∀ done i rest, run = done ++ i :: rest → NotBroughtBack o order done i := by
  rw [along_iff]
  refine forall_congr' fun done => forall_congr' fun i => forall_congr' fun rest =>
    imp_congr_right fun _ => ?_
  cases i with
  | call call => exact Iff.rfl
  | list => exact Iff.rfl
  | remove =>
    refine forall₂_congr fun id hid => ?_
    have halive : AliveAt o (after o order done).map id ↔ _ :=
      aliveAt_iff (List.mem_of_mem_head? hid)
    rw [← after, not_congr halive]
    simp only [not_exists, not_and]

/-- An instance that has failed is listed, restarted, and then removed. -/
def restartedRun : List Step :=
  let id : InstanceId := ⟨"session"⟩
  [.call (.register (.withId (.new ⟨"generated"⟩ 0 "dap-session") id)),
    .call (.setState id .starting), .call (.setState id .failed), .list,
    .call (.setState id .starting), .remove]

theorem prune_removes_a_restarted_instance :
    ¬ Along (step ⟨fun _ => true, fun _ => true⟩ .listed)
      (RemovesOnlyStale ⟨fun _ => true, fun _ => true⟩) start restartedRun := by
  rintro ⟨-, -, -, -, -, hremove, -⟩
  exact hremove ⟨"session"⟩ rfl ⟨_, rfl, rfl⟩

end DappyCore.Pruning
