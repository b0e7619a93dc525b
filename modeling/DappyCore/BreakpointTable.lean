import DappyCore.Breakpoints
import DappyCore.Lib.Trace

/-!
What each operation of the breakpoint tracker does to the entries under each path and to the
table of ids, and the invariant of that table.
-/

namespace DappyCore.Breakpoints.BreakpointTracker

open Lib Json

/-- The entries the snapshot has for a path. -/
def entriesAt (t : BreakpointTracker) (path : String) : List SourceBreakpointSpec :=
  (t.sourceBreakpoints.lookup path).getD []

/-- The tracker with these entries for a path. -/
def put (t : BreakpointTracker) (path : String) (entries : List SourceBreakpointSpec) :
    BreakpointTracker :=
  { t with sourceBreakpoints := t.sourceBreakpoints.insert path entries }

/-- The tracker with an entry more for a path, and its id bound to it. -/
def append (t : BreakpointTracker) (path : String) (spec : SourceBreakpointSpec)
    (id : Option ℤ) : BreakpointTracker :=
  { t.put path (t.entriesAt path ++ [spec]) with
    breakpointIds := id.elim t.breakpointIds fun bpId =>
      t.breakpointIds.insert bpId (path, (t.entriesAt path).length) }

variable {t : BreakpointTracker} {path : String} {bp : Value}

@[simp] lemma entriesAt_put (t : BreakpointTracker) (path : String)
    (entries : List SourceBreakpointSpec) (path' : String) :
    (t.put path entries).entriesAt path' = if path' = path then entries else t.entriesAt path' := by
  unfold entriesAt put
  rw [HashMap.lookup_insert_of]
  split_ifs <;> rfl

lemma entriesAt_append (t : BreakpointTracker) (path : String) (spec : SourceBreakpointSpec)
    (id : Option ℤ) (path' : String) :
    (t.append path spec id).entriesAt path' =
      if path' = path then t.entriesAt path ++ [spec] else t.entriesAt path' :=
  entriesAt_put t path _ path'

lemma lookup_ids_append (t : BreakpointTracker) (path : String) (spec : SourceBreakpointSpec)
    (id : Option ℤ) (id' : ℤ) :
    (t.append path spec id).breakpointIds.lookup id' =
      if id = some id' then some (path, (t.entriesAt path).length)
      else t.breakpointIds.lookup id' := by
  cases id with
  | none => simp [append]
  | some bpId =>
    simp only [append, Option.elim_some, Option.some.injEq]
    rw [HashMap.lookup_insert_of]
    by_cases h : id' = bpId
    · simp [h]
    · have h' : ¬ bpId = id' := fun e => h e.symm
      simp [h, h']

/-! ### Requests and responses -/

section Stored

variable {m : HashMap String (List SourceBreakpointSpec)} {specs : List SourceBreakpointSpec}

/-- A path is there only if it has entries. -/
lemma getD_lookup_stored (path' : String) :
    ((if specs.isEmpty then m.erase path else m.insert path specs).lookup path').getD [] =
      if path' = path then specs else (m.lookup path').getD [] := by
  by_cases hs : specs.isEmpty
  · rw [if_pos hs, HashMap.lookup_erase_of]
    split_ifs
    · simp [List.isEmpty_iff.mp hs]
    · rfl
  · rw [if_neg hs, HashMap.lookup_insert_of]
    split_ifs <;> rfl

lemma lookup_stored_ne_nil (hne : ∀ path', m.lookup path' ≠ some []) (path' : String) :
    (if specs.isEmpty then m.erase path else m.insert path specs).lookup path' ≠ some [] := by
  by_cases hs : specs.isEmpty
  · rw [if_pos hs, HashMap.lookup_erase_of]
    split_ifs
    · simp
    · exact hne path'
  · rw [if_neg hs, HashMap.lookup_insert_of]
    split_ifs
    · intro hnil
      rw [Option.some.inj hnil] at hs
      exact hs rfl
    · exact hne path'

end Stored

lemma entriesAt_rebuild (t : BreakpointTracker) (path path' : String)
    (specs : List SourceBreakpointSpec) :
    (t.rebuildSourceBreakpoints path specs).entriesAt path' =
      if path' = path then specs else t.entriesAt path' :=
  getD_lookup_stored path'

lemma lookup_ids_rebuild (t : BreakpointTracker) (path : String)
    (specs : List SourceBreakpointSpec) (id : ℤ) :
    (t.rebuildSourceBreakpoints path specs).breakpointIds.lookup id =
      (t.breakpointIds.lookup id).filter fun stored => stored.1 ≠ path :=
  HashMap.lookup_retain _ _ _

/-- The path a response stores under and what it stores; nothing if it is no success or
answers no request. -/
def stores (t : BreakpointTracker) (message : Value) :
    Option (String × List SourceBreakpointSpec) :=
  if isSuccess message then
    (t.pendingSetBreakpoints.lookup (answeredSeq message)).map fun pending =>
      (resolvedPath (responseBreakpoints message) pending.sourcePath,
        resolvedSpecs (responseBreakpoints message) pending.specs)
  else none

lemma observe_of_stores_none {message : Value} (h : t.stores message = none) :
    t.observeSetBreakpointsResponse message = t := by
  unfold stores at h
  unfold observeSetBreakpointsResponse
  by_cases hs : isSuccess message
  · rw [if_pos hs, Option.map_eq_none_iff] at h
    simp [hs, h]
  · simp [hs]

/-- A response that stores leaves the rest alone. -/
lemma observe_of_stores {message : Value} {specs : List SourceBreakpointSpec}
    (h : t.stores message = some (path, specs)) :
    (∀ path', (t.observeSetBreakpointsResponse message).entriesAt path' =
        if path' = path then specs else t.entriesAt path') ∧
      (∀ id, (t.observeSetBreakpointsResponse message).breakpointIds.lookup id =
        (t.breakpointIds.lookup id).filter fun stored => stored.1 ≠ path) ∧
      (t.observeSetBreakpointsResponse message).sourceBreakpoints =
        (t.rebuildSourceBreakpoints path specs).sourceBreakpoints := by
  unfold stores at h
  split_ifs at h with hs
  obtain ⟨pending, hp, he⟩ := Option.map_eq_some_iff.mp h
  obtain ⟨rfl, rfl⟩ := Prod.mk.inj he
  simp only [observeSetBreakpointsResponse, hs, not_true_eq_false, if_false, hp]
  exact ⟨fun path' => entriesAt_rebuild _ _ path' _, fun id => lookup_ids_rebuild _ _ _ id, rfl⟩

/-! ### Events -/

/-- Overwrites an entry of the event's path, or appends one. -/
lemma applyNew_cases {spec : SourceBreakpointSpec} (h : newSpec bp = some spec) :
    (∃ index < (t.entriesAt (bpSourcePath bp)).length,
        t.applyNewBreakpoint bp =
          t.put (bpSourcePath bp) ((t.entriesAt (bpSourcePath bp)).set index spec) ∧
        ∃ id stored, intField bp "id" = some id ∧ t.breakpointIds.lookup id = some stored) ∨
      t.applyNewBreakpoint bp = t.append (bpSourcePath bp) spec (intField bp "id") := by
  unfold applyNewBreakpoint
  simp only [h]
  cases hb : ((intField bp "id").bind fun bpId => t.breakpointIds.lookup bpId).filter
      (fun stored => stored.2 < ((t.sourceBreakpoints.lookup (bpSourcePath bp)).getD []).length)
    with
  | none => exact .inr rfl
  | some stored =>
    obtain ⟨hbind, hlt⟩ := Option.filter_eq_some_iff.mp hb
    obtain ⟨id, hid, hl⟩ := Option.bind_eq_some_iff.mp hbind
    exact .inl ⟨stored.2, of_decide_eq_true hlt, rfl, id, stored, hid, hl⟩

lemma applyNew_of_none (h : newSpec bp = none) : t.applyNewBreakpoint bp = t := by
  simp [applyNewBreakpoint, h]

/-- An id that is not bound appends. -/
lemma applyNew_of_unbound {spec : SourceBreakpointSpec} (h : newSpec bp = some spec)
    (hu : ((intField bp "id").bind fun bpId => t.breakpointIds.lookup bpId) = none) :
    t.applyNewBreakpoint bp = t.append (bpSourcePath bp) spec (intField bp "id") := by
  unfold applyNewBreakpoint
  simp only [h, hu]
  rfl

lemma boundEntry_eq_some {id : Option ℤ} {index : ℕ} {entries : List SourceBreakpointSpec}
    (h : t.boundEntry id = some (path, index, entries)) :
    ∃ bpId, id = some bpId ∧ t.breakpointIds.lookup bpId = some (path, index) ∧
      entries = t.entriesAt path ∧ index < entries.length := by
  obtain ⟨⟨path', index'⟩, hbind, hmap⟩ := Option.bind_eq_some_iff.mp h
  obtain ⟨bpId, hid, hl⟩ := Option.bind_eq_some_iff.mp hbind
  obtain ⟨entries', hf, hpair⟩ := Option.map_eq_some_iff.mp hmap
  simp only [Prod.mk.injEq] at hpair
  obtain ⟨rfl, rfl, rfl⟩ := hpair
  obtain ⟨hlook, hlt⟩ := Option.filter_eq_some_iff.mp hf
  exact ⟨bpId, hid, hl, by simp [entriesAt, hlook], of_decide_eq_true hlt⟩

lemma applyChanged_of_bound {index : ℕ} {entries : List SourceBreakpointSpec}
    (h : t.boundEntry (intField bp "id") = some (path, index, entries)) :
    t.applyChangedBreakpoint bp = t.put path (entries.modify index (changeSpec bp)) := by
  simp only [applyChangedBreakpoint, h]
  rfl

lemma applyChanged_of_unbound (h : t.boundEntry (intField bp "id") = none) :
    t.applyChangedBreakpoint bp = t.applyNewBreakpoint bp := by
  simp only [applyChangedBreakpoint, h]

/-- The list and position a `removed` event names. -/
def removedEntry (t : BreakpointTracker) (bp : Value) : Option (String × ℕ) :=
  (intField bp "id").bind fun bpId => t.breakpointIds.lookup bpId

lemma applyRemoved_of_unbound (h : t.removedEntry bp = none) : t.applyRemovedBreakpoint bp = t := by
  unfold removedEntry at h
  unfold applyRemovedBreakpoint
  cases hid : intField bp "id" with
  | none => rfl
  | some bpId =>
    rw [hid, Option.bind_some] at h
    simp only [h]

/-- Positions after the one removed move up. -/
def shifted (path : String) (index : ℕ) (stored : String × ℕ) : String × ℕ :=
  if stored.1 = path ∧ index < stored.2 then (stored.1, stored.2 - 1) else stored

section Removed

variable {bpId : ℤ} {index : ℕ} (hid : intField bp "id" = some bpId)
    (hl : t.breakpointIds.lookup bpId = some (path, index))
include hid hl

lemma lookup_ids_removed (id : ℤ) :
    (t.applyRemovedBreakpoint bp).breakpointIds.lookup id =
      if id = bpId then none else (t.breakpointIds.lookup id).map (shifted path index) := by
  simp only [applyRemovedBreakpoint, hid, hl]
  rw [HashMap.lookup_mapValues, HashMap.lookup_erase_of]
  split_ifs <;> rfl

/-- Nothing is there for the path, or what is left of it is stored again. -/
lemma sourceBreakpoints_removed :
    (t.sourceBreakpoints.lookup path = none ∧
        (t.applyRemovedBreakpoint bp).sourceBreakpoints = t.sourceBreakpoints) ∨
      (t.applyRemovedBreakpoint bp).sourceBreakpoints =
        if ((t.entriesAt path).eraseIdx index).isEmpty then t.sourceBreakpoints.erase path
        else t.sourceBreakpoints.insert path ((t.entriesAt path).eraseIdx index) := by
  cases hs : t.sourceBreakpoints.lookup path with
  | none => exact .inl ⟨rfl, by simp [applyRemovedBreakpoint, hid, hl, hs]⟩
  | some entries =>
    have he : t.entriesAt path = entries := by simp [entriesAt, hs]
    have hrest : (if index < entries.length then entries.eraseIdx index else entries) =
        entries.eraseIdx index := by
      split_ifs with h
      · rfl
      · rw [List.eraseIdx_of_length_le (Nat.le_of_not_lt h)]
    refine .inr ?_
    rw [he]
    simp only [applyRemovedBreakpoint, hid, hl, hs, hrest]

lemma entriesAt_removed (path' : String) :
    (t.applyRemovedBreakpoint bp).entriesAt path' =
      if path' = path then (t.entriesAt path).eraseIdx index else t.entriesAt path' := by
  rcases sourceBreakpoints_removed hid hl with ⟨hs, hmap⟩ | hmap
  · have hempty : t.entriesAt path = [] := by simp [entriesAt, hs]
    have hsame : (t.applyRemovedBreakpoint bp).entriesAt path' = t.entriesAt path' := by
      rw [entriesAt, hmap, entriesAt]
    rw [hsame]
    split_ifs with h
    · rw [h, hempty]
      rfl
    · rfl
  · rw [entriesAt, hmap]
    exact getD_lookup_stored path'

lemma nonempty_removed (hne : ∀ path', t.sourceBreakpoints.lookup path' ≠ some [])
    (path' : String) :
    (t.applyRemovedBreakpoint bp).sourceBreakpoints.lookup path' ≠ some [] := by
  rcases sourceBreakpoints_removed hid hl with ⟨-, hmap⟩ | hmap
  · rw [hmap]
    exact hne path'
  · rw [hmap]
    exact lookup_stored_ne_nil hne path'

end Removed

/-! ### Runs -/

inductive Input
  | setRequest (backendSeq : ℤ) (message : Value)
  | exceptionRequest (message : Value)
  | response (message : Value)
  | event (message : Value)

def step (t : BreakpointTracker) : Input → BreakpointTracker
  | .setRequest backendSeq message => t.trackSetBreakpointsRequest backendSeq message
  | .exceptionRequest message => t.trackSetExceptionBreakpointsRequest message
  | .response message => t.observeSetBreakpointsResponse message
  | .event message => t.observeBreakpointEvent message

/-- The tracker after a run. -/
def after (inputs : List Input) : BreakpointTracker := inputs.foldl step .empty

/-- The reason and the breakpoint of an event. -/
def eventOf (message : Value) : Option (String × Value) :=
  let body := (message.get "body").bind Value.asObject
  (body.bind (lookupField "breakpoint")).bind fun bp =>
    ((body.bind (lookupField "reason")).bind Value.asStr).map fun reason => (reason, bp)

lemma observeEvent_eq (t : BreakpointTracker) (message : Value) :
    t.observeBreakpointEvent message =
      match eventOf message with
      | some ("new", bp) => t.applyNewBreakpoint bp
      | some ("changed", bp) => t.applyChangedBreakpoint bp
      | some ("removed", bp) => t.applyRemovedBreakpoint bp
      | _ => t := by
  unfold observeBreakpointEvent eventOf
  cases hb : (((message.get "body").bind Value.asObject).bind (lookupField "breakpoint")) with
  | none => simp [hb]
  | some bp =>
    cases hr : ((((message.get "body").bind Value.asObject).bind (lookupField "reason")).bind
        Value.asStr) with
    | none => simp [hb, hr]
    | some reason =>
      simp only [hb, hr, Option.bind_some, Option.map_some]
      split <;> simp_all

/-! ### Requests that wait -/

lemma pending_new (t : BreakpointTracker) (bp : Value) :
    (t.applyNewBreakpoint bp).pendingSetBreakpoints = t.pendingSetBreakpoints := by
  unfold applyNewBreakpoint
  split
  · rfl
  · dsimp only
    split <;> rfl

lemma pending_event (t : BreakpointTracker) (message : Value) :
    (t.observeBreakpointEvent message).pendingSetBreakpoints = t.pendingSetBreakpoints := by
  rw [observeEvent_eq]
  split
  · exact pending_new t _
  · unfold applyChangedBreakpoint
    split
    · rfl
    · exact pending_new t _
  · unfold applyRemovedBreakpoint
    split
    · rfl
    · split <;> rfl
  · rfl

/-- **Requests wait** from when they are sent to their success. -/
theorem pending_step (t : BreakpointTracker) (i : Input) (seq : ℤ) :
    (t.step i).pendingSetBreakpoints.lookup seq =
      match i with
      | .setRequest backendSeq message =>
        if seq = backendSeq then some ⟨requestSourcePath message, requestSpecs message⟩
        else t.pendingSetBreakpoints.lookup seq
      | .response message =>
        if isSuccess message ∧ seq = answeredSeq message then none
        else t.pendingSetBreakpoints.lookup seq
      | .exceptionRequest _ | .event _ => t.pendingSetBreakpoints.lookup seq := by
  cases i with
  | setRequest backendSeq message => exact HashMap.lookup_insert_of
  | exceptionRequest message => rfl
  | event message => rw [step, pending_event]
  | response message =>
    dsimp only [step]
    unfold observeSetBreakpointsResponse
    by_cases hs : isSuccess message
    · simp only [hs, not_true_eq_false, if_false, true_and]
      cases hp : t.pendingSetBreakpoints.lookup (answeredSeq message) with
      | none =>
        split_ifs with e
        · rw [e, hp]
        · rfl
      | some pending => exact HashMap.lookup_erase_of
    · simp [hs]

/-! ### The table of ids -/

/-- Every id is bound to an entry that is there, no two to the same, and a path that is there
has an entry. -/
structure TableInv (t : BreakpointTracker) : Prop where
  inRange : ∀ id path index, t.breakpointIds.lookup id = some (path, index) →
    index < (t.entriesAt path).length
  injective : ∀ id id' stored, t.breakpointIds.lookup id = some stored →
    t.breakpointIds.lookup id' = some stored → id = id'
  nonempty : ∀ path, t.sourceBreakpoints.lookup path ≠ some []

lemma tableInv_empty : TableInv empty where
  inRange := by simp [empty]
  injective := by simp [empty]
  nonempty := by simp [empty]

/-- Entries rewritten in place leave the table right. -/
lemma TableInv.put (h : TableInv t) {entries : List SourceBreakpointSpec}
    (hlen : entries.length = (t.entriesAt path).length) (hpos : 0 < (t.entriesAt path).length) :
    TableInv (t.put path entries) where
  inRange id path' index hl := by
    have hlt := h.inRange id path' index hl
    rw [entriesAt_put]
    split_ifs with e
    · rw [hlen]
      exact e ▸ hlt
    · exact hlt
  injective := h.injective
  nonempty path' := by
    simp only [BreakpointTracker.put, HashMap.lookup_insert_of]
    split_ifs
    · intro hnil
      rw [Option.some.inj hnil, List.length_nil] at hlen
      omega
    · exact h.nonempty path'

lemma TableInv.append (h : TableInv t) (path : String) (spec : SourceBreakpointSpec)
    (id : Option ℤ) : TableInv (t.append path spec id) where
  inRange id' path' index hl := by
    rw [lookup_ids_append] at hl
    rw [entriesAt_append]
    split_ifs at hl with hid
    · obtain ⟨rfl, rfl⟩ := Prod.mk.inj (Option.some.inj hl)
      simp
    · have hlt := h.inRange id' path' index hl
      split_ifs with e
      · rw [List.length_append, ← e]
        omega
      · exact hlt
  injective id1 id2 stored h1 h2 := by
    rw [lookup_ids_append] at h1 h2
    -- the new position is past every bound one
    have hnew : ∀ id', t.breakpointIds.lookup id' ≠ some (path, (t.entriesAt path).length) :=
      fun id' hl => absurd (h.inRange id' path _ hl) (by omega)
    split_ifs at h1 h2 with e1 e2 e2
    · exact Option.some.inj (e1.symm.trans e2)
    · exact absurd (h2.trans h1.symm) (hnew id2)
    · exact absurd (h1.trans h2.symm) (hnew id1)
    · exact h.injective id1 id2 stored h1 h2
  nonempty path' := by
    simp only [BreakpointTracker.append, BreakpointTracker.put, HashMap.lookup_insert_of]
    split_ifs
    · simp
    · exact h.nonempty path'

lemma tableInv_new (h : TableInv t) (bp : Value) : TableInv (t.applyNewBreakpoint bp) := by
  cases hn : newSpec bp with
  | none =>
    rw [applyNew_of_none hn]
    exact h
  | some spec =>
    rcases applyNew_cases (t := t) hn with ⟨index, hlt, heq, -⟩ | heq
    · rw [heq]
      exact h.put (List.length_set ..) (Nat.zero_lt_of_lt hlt)
    · rw [heq]
      exact h.append _ _ _

lemma tableInv_changed (h : TableInv t) (bp : Value) : TableInv (t.applyChangedBreakpoint bp) := by
  cases hb : t.boundEntry (intField bp "id") with
  | none =>
    rw [applyChanged_of_unbound hb]
    exact tableInv_new h bp
  | some found =>
    obtain ⟨path, index, entries⟩ := found
    obtain ⟨-, -, -, rfl, hlt⟩ := boundEntry_eq_some hb
    rw [applyChanged_of_bound hb]
    exact h.put (List.length_modify ..) (Nat.zero_lt_of_lt hlt)

lemma shifted_fst (path : String) (index : ℕ) (stored : String × ℕ) :
    (shifted path index stored).1 = stored.1 := by
  unfold shifted
  split_ifs <;> rfl

/-- Positions other than the removed one stay apart. -/
lemma shifted_inj {index : ℕ} {s s' : String × ℕ} (hs : s ≠ (path, index))
    (hs' : s' ≠ (path, index)) (h : shifted path index s = shifted path index s') : s = s' := by
  obtain ⟨p, i⟩ := s
  obtain ⟨p', i'⟩ := s'
  have hp : p = p' := by
    have h1 := congrArg Prod.fst h
    rwa [shifted_fst, shifted_fst] at h1
  subst hp
  have h2 := congrArg Prod.snd h
  by_cases e : p = path
  · subst e
    have hi : i ≠ index := fun e => hs (by rw [e])
    have hi' : i' ≠ index := fun e => hs' (by rw [e])
    simp only [shifted, true_and] at h2
    split_ifs at h2 <;> simp only at h2 <;> congr 1 <;> omega
  · simp only [shifted, e, false_and, if_false] at h2
    rw [h2]

/-- What is bound after a `removed` event was bound before, to another entry. -/
lemma TableInv.before_removed (h : TableInv t) {bpId : ℤ} {index : ℕ}
    (hid : intField bp "id" = some bpId)
    (hl : t.breakpointIds.lookup bpId = some (path, index)) {id : ℤ} {stored : String × ℕ}
    (hs : (t.applyRemovedBreakpoint bp).breakpointIds.lookup id = some stored) :
    ∃ old, t.breakpointIds.lookup id = some old ∧ old ≠ (path, index) ∧
      shifted path index old = stored := by
  rw [lookup_ids_removed hid hl] at hs
  split_ifs at hs with e
  obtain ⟨old, hold, hsh⟩ := Option.map_eq_some_iff.mp hs
  refine ⟨old, hold, ?_, hsh⟩
  rintro rfl
  exact e (h.injective id bpId _ hold hl)

/-- A position moves up by one if it is after the one removed. -/
lemma shifted_eq_some {index i j : ℕ} {q q' : String} (hne : (q, i) ≠ (path, index))
    (h : shifted path index (q, i) = (q', j)) :
    q = q' ∧ (q = path → i ≠ index ∧ j = if index < i then i - 1 else i) ∧
      (q ≠ path → j = i) := by
  have hq : q = q' := by
    have h1 := congrArg Prod.fst h
    rwa [shifted_fst] at h1
  have hj := congrArg Prod.snd h
  refine ⟨hq, fun e => ⟨fun ei => hne (by rw [e, ei]), ?_⟩, fun e => ?_⟩
  · simp only [shifted, e, true_and] at hj
    rw [← hj]
    split_ifs <;> rfl
  · simp only [shifted, e, false_and, if_false] at hj
    exact hj.symm

lemma tableInv_removed (h : TableInv t) (bp : Value) : TableInv (t.applyRemovedBreakpoint bp) := by
  cases hr : t.removedEntry bp with
  | none =>
    rw [applyRemoved_of_unbound hr]
    exact h
  | some stored =>
    obtain ⟨path, index⟩ := stored
    obtain ⟨bpId, hid, hl⟩ := Option.bind_eq_some_iff.mp hr
    have hlt := h.inRange bpId path index hl
    refine ⟨fun id path' j hj => ?_, fun id id' stored h1 h2 => ?_,
      nonempty_removed hid hl h.nonempty⟩
    · obtain ⟨⟨q, i⟩, hold, hne, hsh⟩ := h.before_removed hid hl hj
      obtain ⟨rfl, hsame, hother⟩ := shifted_eq_some hne hsh
      have hi := h.inRange id q i hold
      rw [entriesAt_removed hid hl]
      split_ifs with e
      · obtain ⟨hii, rfl⟩ := hsame e
        subst e
        rw [List.length_eraseIdx_of_lt hlt]
        split_ifs <;> omega
      · rw [hother e]
        exact hi
    · obtain ⟨old, hold, hne, hsh⟩ := h.before_removed hid hl h1
      obtain ⟨old', hold', hne', hsh'⟩ := h.before_removed hid hl h2
      have hs := shifted_inj hne hne' (hsh.trans hsh'.symm)
      exact h.injective id id' old hold (hs ▸ hold')

lemma tableInv_response (h : TableInv t) (message : Value) :
    TableInv (t.observeSetBreakpointsResponse message) := by
  cases hs : t.stores message with
  | none =>
    rw [observe_of_stores_none hs]
    exact h
  | some stored =>
    obtain ⟨path, specs⟩ := stored
    obtain ⟨hentries, hids, hmap⟩ := observe_of_stores hs
    refine ⟨fun id path' index hl => ?_, fun id id' stored h1 h2 => ?_, fun path' => ?_⟩
    · rw [hids] at hl
      obtain ⟨hold, hne⟩ := Option.filter_eq_some_iff.mp hl
      have hne : path' ≠ path := by simpa using hne
      rw [hentries, if_neg hne]
      exact h.inRange id path' index hold
    · rw [hids] at h1 h2
      exact h.injective id id' stored (Option.filter_eq_some_iff.mp h1).1
        (Option.filter_eq_some_iff.mp h2).1
    · rw [hmap]
      exact lookup_stored_ne_nil h.nonempty path'

/-- **One step** keeps the table right. -/
theorem tableInv_step (h : TableInv t) (i : Input) : TableInv (t.step i) := by
  match i with
  | .setRequest _ _ => exact ⟨h.inRange, h.injective, h.nonempty⟩
  | .exceptionRequest _ => exact ⟨h.inRange, h.injective, h.nonempty⟩
  | .response message => exact tableInv_response h message
  | .event message =>
    rw [step, observeEvent_eq]
    split
    · exact tableInv_new h _
    · exact tableInv_changed h _
    · exact tableInv_removed h _
    · exact h

/-- **Every run** keeps the table right. -/
theorem tableInv_after (inputs : List Input) : TableInv (after inputs) := by
  have hstep (t : BreakpointTracker) (i : Input) : TableInv t → TableInv (t.step i) :=
    fun h => tableInv_step h i
  exact Trace.inv_foldl hstep tableInv_empty inputs

/-- **The table in every reachable state**: an id is bound to an entry of a path that is there,
no two ids to the same, and no path is there without entries. -/
theorem table_consistent (inputs : List Input) :
    (∀ id path index, (after inputs).breakpointIds.lookup id = some (path, index) →
      ∃ entries, (after inputs).sourceBreakpoints.lookup path = some entries ∧
        index < entries.length) ∧
      (∀ id id' stored, (after inputs).breakpointIds.lookup id = some stored →
        (after inputs).breakpointIds.lookup id' = some stored → id = id') ∧
      ∀ path, (after inputs).sourceBreakpoints.lookup path ≠ some [] := by
  have hinv := tableInv_after inputs
  refine ⟨fun id path index hl => ?_, hinv.injective, hinv.nonempty⟩
  have hlt := hinv.inRange id path index hl
  unfold entriesAt at hlt
  cases hs : (after inputs).sourceBreakpoints.lookup path with
  | none =>
    rw [hs, Option.getD_none, List.length_nil] at hlt
    omega
  | some entries =>
    rw [hs, Option.getD_some] at hlt
    exact ⟨entries, rfl, hlt⟩

end DappyCore.Breakpoints.BreakpointTracker
