import DappyCore.Lib.Machine
import DappyCore.BreakpointTable
import DappyCore.MuxMessage

/-!
Breakpoint events about breakpoints that a `setBreakpoints` response reported. The tracker
stores what the response says, but not under which ids it says it, so an event that names such
an id finds nothing.
-/

namespace DappyCore.EventTracking

open Lib Lib.Machine Json Breakpoints Breakpoints.BreakpointTracker

/-- How many of the response's breakpoints before this one have an entry. -/
def keptBefore (items : List Value) (specs : List SourceBreakpointSpec) (i : ℕ) : ℕ :=
  ((items.zipIdx.take i).filterMap fun (bp, index) => mergeBreakpoint bp specs[index]?).length

/-- The response stores, and reports a breakpoint with id `k` whose entry it puts at this
position of the list under this path. -/
def Reported (t : BreakpointTracker) (message : Value) (k : ℤ) (path : String) (pos : ℕ) :
    Prop :=
  ∃ pending items i bp spec, isSuccess message ∧
    t.pendingSetBreakpoints.lookup (answeredSeq message) = some pending ∧
    responseBreakpoints message = some items ∧
    path = resolvedPath (some items) pending.sourcePath ∧ items[i]? = some bp ∧
    intField bp "id" = some k ∧ mergeBreakpoint bp pending.specs[i]? = some spec ∧
    pos = keptBefore items pending.specs i

/-- Where the entry is after a step: it moves up when one before it is removed. -/
def slotAfter (path : String) (t : BreakpointTracker) (pos : ℕ) : Input → ℕ
  | .event message =>
    match eventOf message with
    | some ("removed", bp) =>
      match t.removedEntry bp with
      | some (p, j) => if p = path ∧ j < pos then pos - 1 else pos
      | none => pos
    | _ => pos
  | _ => pos

/-- The tracker, and the position of the entry followed. -/
def follow (path : String) (s : BreakpointTracker × ℕ) (i : Input) :
    Result (BreakpointTracker × ℕ) Empty :=
  ((s.1.step i, slotAfter path s.1 s.2 i), .ok ())

/-- Everything but the list under this path is as before. -/
def OthersKept (t t' : BreakpointTracker) (path : String) : Prop :=
  ∀ path', path' ≠ path → t'.entriesAt path' = t.entriesAt path'

/-- A `removed` event for `k` removes the entry followed and nothing else, a `changed` event
for `k` updates it in place and nothing else. -/
def Obeyed (path : String) (k : ℤ) (s : BreakpointTracker × ℕ) (i : Input) : Prop :=
  ∀ message reason bp, i = .event message → eventOf message = some (reason, bp) →
    intField bp "id" = some k →
    (reason = "removed" →
      (s.1.step i).entriesAt path = (s.1.entriesAt path).eraseIdx s.2 ∧
        OthersKept s.1 (s.1.step i) path) ∧
    (reason = "changed" →
      (s.1.step i).entriesAt path = (s.1.entriesAt path).modify s.2 (changeSpec bp) ∧
        OthersKept s.1 (s.1.step i) path)

/-- The event says nothing new about this entry. -/
def Unchanging (bp : Value) (entries : List SourceBreakpointSpec) (pos : ℕ) : Prop :=
  ∀ spec, entries[pos]? = some spec → changeSpec bp spec = spec

/-- No `removed` event for `k`. A `changed` event for `k` says nothing new about the entry
followed, nor about the entry an earlier event bound `k` to; if there is none, it has no path
or no line that could be stored. -/
def Quiet (path : String) (k : ℤ) (s : BreakpointTracker × ℕ) (i : Input) : Prop :=
  ∀ message reason bp, i = .event message → eventOf message = some (reason, bp) →
    intField bp "id" = some k →
    reason ≠ "removed" ∧
    (reason = "changed" → Unchanging bp (s.1.entriesAt path) s.2 ∧
      match s.1.breakpointIds.lookup k with
      | some (p, j) => Unchanging bp (s.1.entriesAt p) j
      | none => newSpec bp = none)

/-- The source is not set again, and no other breakpoint is announced under the id. -/
def Unique (path : String) (k : ℤ) (s : BreakpointTracker × ℕ) : Input → Prop
  | .response message => ∀ specs, s.1.stores message ≠ some (path, specs)
  | .event message => ∀ bp, eventOf message = some ("new", bp) → intField bp "id" ≠ some k
  | _ => True

/-- The entry is there, no id is bound to it, and `k` to nothing under its path. -/
structure Inv (path : String) (k : ℤ) (s : BreakpointTracker × ℕ) : Prop where
  table : TableInv s.1
  slot : s.2 < (s.1.entriesAt path).length
  free : ∀ id j, s.1.breakpointIds.lookup id = some (path, j) → j ≠ s.2
  elsewhere : ∀ j, s.1.breakpointIds.lookup k ≠ some (path, j)

variable {t : BreakpointTracker} {path : String} {k : ℤ} {pos : ℕ} {bp : Value}

/-! ### Lists -/

lemma getElem?_filterMap_take {α β : Type} {f : α → Option β} {l : List α} {i : ℕ} {a : α}
    {b : β} (hi : l[i]? = some a) (hf : f a = some b) :
    (l.filterMap f)[((l.take i).filterMap f).length]? = some b := by
  induction l generalizing i with
  | nil => simp at hi
  | cons x rest ih =>
    cases i with
    | zero =>
      rw [List.getElem?_cons_zero] at hi
      obtain rfl := Option.some.inj hi
      simp [hf]
    | succ i =>
      rw [List.getElem?_cons_succ] at hi
      have h := ih hi
      cases hx : f x <;> simpa [hx] using h

lemma modify_eq_self_iff {l : List SourceBreakpointSpec} {i : ℕ} :
    l.modify i (changeSpec bp) = l ↔ Unchanging bp l i := by
  constructor
  · intro h spec hs
    have h' := congrArg (·[i]?) h
    simp only [List.getElem?_modify_eq, hs] at h'
    exact Option.some.inj h'
  · intro h
    refine List.ext_getElem? fun j => ?_
    by_cases e : i = j
    · subst e
      rw [List.getElem?_modify_eq]
      cases hs : l[i]? with
      | none => rfl
      | some spec => simp [h spec hs]
    · rw [List.getElem?_modify_ne _ _ e]

lemma eraseIdx_ne_self {l : List SourceBreakpointSpec} {i : ℕ} (hi : i < l.length) :
    l.eraseIdx i ≠ l := by
  intro h
  have hlen := congrArg List.length h
  rw [List.length_eraseIdx_of_lt hi] at hlen
  omega

lemma append_ne_self (l : List SourceBreakpointSpec) (spec : SourceBreakpointSpec) :
    l ++ [spec] ≠ l := by
  intro h
  have hlen := congrArg List.length h
  rw [List.length_append, List.length_singleton] at hlen
  omega

/-! ### The response -/

lemma inv_reported {message : Value} (ht : TableInv t) (h : Reported t message k path pos) :
    Inv path k (t.step (.response message), pos) := by
  obtain ⟨pending, items, i, bp, spec, hs, hp, hitems, rfl, hi, -, hm, rfl⟩ := h
  have hstores : t.stores message = some (resolvedPath (some items) pending.sourcePath,
      resolvedSpecs (some items) pending.specs) := by
    simp [stores, hs, hp, hitems]
  obtain ⟨hentries, hids, -⟩ := observe_of_stores hstores
  have hbound : ∀ id j, (t.observeSetBreakpointsResponse message).breakpointIds.lookup id ≠
      some (resolvedPath (some items) pending.sourcePath, j) := by
    intro id j hl
    rw [hids] at hl
    have hne := (Option.filter_eq_some_iff.mp hl).2
    simp at hne
  refine ⟨tableInv_step ht (.response message), ?_, fun id j hl => absurd hl (hbound id j),
    fun j => hbound k j⟩
  have hidx : items.zipIdx[i]? = some (bp, i) := by simp [hi]
  have hget := getElem?_filterMap_take
    (f := fun e : Value × ℕ => mergeBreakpoint e.1 pending.specs[e.2]?) hidx hm
  have hne : items.isEmpty = false := by
    cases items with
    | nil => simp at hi
    | cons _ _ => rfl
  have hlt := (List.getElem?_eq_some_iff.mp hget).1
  simp only [step, hentries, if_true, resolvedSpecs, Option.elim_some, mergeBreakpoints, hne]
  exact hlt

/-! ### One event for `k` -/

lemma step_changed {message : Value} (he : eventOf message = some ("changed", bp)) :
    t.step (.event message) = t.applyChangedBreakpoint bp := by
  simp only [step, observeEvent_eq, he]

lemma step_removed {message : Value} (he : eventOf message = some ("removed", bp)) :
    t.step (.event message) = t.applyRemovedBreakpoint bp := by
  simp only [step, observeEvent_eq, he]

lemma boundEntry_of_lookup (ht : TableInv t) (hid : intField bp "id" = some k) {p : String}
    {j : ℕ} (hl : t.breakpointIds.lookup k = some (p, j)) :
    t.boundEntry (intField bp "id") = some (p, j, t.entriesAt p) := by
  have hlt := ht.inRange k p j hl
  rw [boundEntry, hid, Option.bind_some, hl, Option.bind_some]
  cases hs : t.sourceBreakpoints.lookup p with
  | none => simp [entriesAt, hs] at hlt
  | some entries =>
    have he : t.entriesAt p = entries := by simp [entriesAt, hs]
    rw [he] at hlt ⊢
    simp [Option.filter_some, hs, hlt]

lemma boundEntry_of_unbound (hid : intField bp "id" = some k)
    (hl : t.breakpointIds.lookup k = none) : t.boundEntry (intField bp "id") = none := by
  rw [boundEntry, hid, Option.bind_some, hl, Option.bind_none]

section Event

variable (hi : Inv path k (t, pos)) (hid : intField bp "id" = some k)
include hi hid

/-- A `removed` event for `k` leaves the entry where it is. -/
lemma removed_misses : ¬ ((t.applyRemovedBreakpoint bp).entriesAt path =
      (t.entriesAt path).eraseIdx pos ∧ OthersKept t (t.applyRemovedBreakpoint bp) path) := by
  rintro ⟨hpath, hothers⟩
  cases hl : t.breakpointIds.lookup k with
  | none =>
    have hnone : t.removedEntry bp = none := by simp [removedEntry, hid, hl]
    rw [applyRemoved_of_unbound hnone] at hpath
    exact eraseIdx_ne_self hi.slot hpath.symm
  | some stored =>
    obtain ⟨p, j⟩ := stored
    have hp : p ≠ path := by
      rintro rfl
      exact hi.elsewhere j hl
    have h := hothers p hp
    rw [entriesAt_removed hid hl, if_pos rfl] at h
    exact eraseIdx_ne_self (hi.table.inRange k p j hl) h

/-- A `changed` event for `k` does what it should only if there is nothing to do. -/
lemma changed_iff : ((t.applyChangedBreakpoint bp).entriesAt path =
      (t.entriesAt path).modify pos (changeSpec bp) ∧
        OthersKept t (t.applyChangedBreakpoint bp) path) ↔
    Unchanging bp (t.entriesAt path) pos ∧
      match t.breakpointIds.lookup k with
      | some (p, j) => Unchanging bp (t.entriesAt p) j
      | none => newSpec bp = none := by
  cases hl : t.breakpointIds.lookup k with
  | some stored =>
    obtain ⟨p, j⟩ := stored
    have hp : p ≠ path := by
      rintro rfl
      exact hi.elsewhere j hl
    rw [applyChanged_of_bound (boundEntry_of_lookup hi.table hid hl), entriesAt_put,
      if_neg hp.symm]
    refine and_congr ?_ ?_
    · rw [eq_comm, modify_eq_self_iff]
    · show _ ↔ Unchanging bp (t.entriesAt p) j
      rw [← modify_eq_self_iff]
      constructor
      · intro h
        have hj := h p hp
        rwa [entriesAt_put, if_pos rfl] at hj
      · intro h path' _
        rw [entriesAt_put, h]
        split_ifs with e
        · rw [e]
        · rfl
  | none =>
    rw [applyChanged_of_unbound (boundEntry_of_unbound hid hl)]
    cases hn : newSpec bp with
    | none =>
      rw [applyNew_of_none hn, eq_comm, modify_eq_self_iff]
      exact and_congr_right fun _ => ⟨fun _ => rfl, fun _ _ _ => rfl⟩
    | some spec =>
      have hu : ((intField bp "id").bind fun bpId => t.breakpointIds.lookup bpId) = none := by
        rw [hid, Option.bind_some, hl]
      rw [applyNew_of_unbound hn hu]
      refine iff_of_false ?_ (fun h => Option.some_ne_none spec h.2)
      rintro ⟨hpath, hothers⟩
      by_cases e : bpSourcePath bp = path
      · -- the list has an entry more
        rw [entriesAt_append, e, if_pos rfl] at hpath
        have hlen := congrArg List.length hpath
        rw [List.length_append, List.length_modify, List.length_singleton] at hlen
        omega
      · have h := hothers _ e
        rw [entriesAt_append, if_pos rfl] at h
        exact append_ne_self _ _ h

end Event

/-- Along a run that is quiet so far, an event for `k` does what it should exactly if it is
quiet too. -/
lemma obeyed_iff {s : BreakpointTracker × ℕ} (hi : Inv path k s) (i : Input) :
    Obeyed path k s i ↔ Quiet path k s i := by
  constructor
  · intro ho message reason bp hm he hid
    obtain ⟨h1, h2⟩ := ho message reason bp hm he hid
    subst hm
    refine ⟨?_, ?_⟩
    · rintro rfl
      rw [step_removed he] at h1
      exact removed_misses hi hid (h1 rfl)
    · rintro rfl
      rw [step_changed he] at h2
      exact (changed_iff hi hid).mp (h2 rfl)
  · intro hq message reason bp hm he hid
    obtain ⟨h1, h2⟩ := hq message reason bp hm he hid
    subst hm
    refine ⟨fun hr => absurd hr h1, ?_⟩
    rintro rfl
    rw [step_changed he]
    exact (changed_iff hi hid).mpr (h2 rfl)

/-! ### Steps -/

lemma Inv.put (hi : Inv path k (t, pos)) {p : String} {entries : List SourceBreakpointSpec}
    (hlen : entries.length = (t.entriesAt p).length) (hpos : 0 < (t.entriesAt p).length) :
    Inv path k (t.put p entries, pos) where
  table := hi.table.put hlen hpos
  slot := by
    have h := hi.slot
    rw [entriesAt_put]
    split_ifs with e
    · rw [hlen]
      exact e ▸ h
    · exact h
  free := hi.free
  elsewhere := hi.elsewhere

lemma Inv.append (hi : Inv path k (t, pos)) {id : Option ℤ} (hid : id ≠ some k) (p : String)
    (spec : SourceBreakpointSpec) : Inv path k (t.append p spec id, pos) where
  table := hi.table.append p spec id
  slot := by
    have h := hi.slot
    rw [entriesAt_append]
    split_ifs with e
    · rw [List.length_append, ← e]
      exact Nat.lt_add_right _ h
    · exact h
  free id' j hl := by
    have h := hi.slot
    rw [lookup_ids_append] at hl
    split_ifs at hl
    · -- the position of the new entry is past the one followed
      obtain ⟨rfl, rfl⟩ := Prod.mk.inj (Option.some.inj hl)
      exact (ne_of_lt h).symm
    · exact hi.free id' j hl
  elsewhere j := by
    rw [lookup_ids_append, if_neg hid]
    exact hi.elsewhere j

lemma Inv.new (hi : Inv path k (t, pos)) (hid : intField bp "id" ≠ some k) :
    Inv path k (t.applyNewBreakpoint bp, pos) := by
  cases hn : newSpec bp with
  | none =>
    rw [applyNew_of_none hn]
    exact hi
  | some spec =>
    rcases applyNew_cases (t := t) hn with ⟨index, hlt, heq, -⟩ | heq
    · rw [heq]
      exact hi.put (List.length_set ..) (Nat.zero_lt_of_lt hlt)
    · rw [heq]
      exact hi.append hid _ _

lemma Inv.changed (hi : Inv path k (t, pos))
    (hq : intField bp "id" = some k → t.breakpointIds.lookup k = none → newSpec bp = none) :
    Inv path k (t.applyChangedBreakpoint bp, pos) := by
  cases hb : t.boundEntry (intField bp "id") with
  | some found =>
    obtain ⟨p, index, entries⟩ := found
    obtain ⟨-, -, -, rfl, hlt⟩ := boundEntry_eq_some hb
    rw [applyChanged_of_bound hb]
    exact hi.put (List.length_modify ..) (Nat.zero_lt_of_lt hlt)
  | none =>
    rw [applyChanged_of_unbound hb]
    by_cases hid : intField bp "id" = some k
    · cases hl : t.breakpointIds.lookup k with
      | none =>
        rw [applyNew_of_none (hq hid hl)]
        exact hi
      | some stored =>
        obtain ⟨p, j⟩ := stored
        rw [boundEntry_of_lookup hi.table hid hl] at hb
        exact absurd hb (Option.some_ne_none _)
    · exact hi.new hid

/-- A breakpoint that is removed is not the one followed, which moves up if it comes after. -/
lemma Inv.removed (hi : Inv path k (t, pos)) :
    Inv path k (t.applyRemovedBreakpoint bp,
      match t.removedEntry bp with
      | some (p, j) => if p = path ∧ j < pos then pos - 1 else pos
      | none => pos) := by
  have htable := tableInv_removed hi.table bp
  have hslot : pos < (t.entriesAt path).length := hi.slot
  cases hr : t.removedEntry bp with
  | none =>
    rw [applyRemoved_of_unbound hr]
    exact hi
  | some stored =>
    obtain ⟨p, index⟩ := stored
    obtain ⟨bpId, hbp, hl⟩ := Option.bind_eq_some_iff.mp hr
    have hlt : index < (t.entriesAt p).length := hi.table.inRange bpId p index hl
    -- an id that is left was one of another entry before
    have helse : ∀ j, (t.applyRemovedBreakpoint bp).breakpointIds.lookup k ≠ some (path, j) := by
      intro j hj
      obtain ⟨⟨q, i⟩, hold, hne, hsh⟩ := hi.table.before_removed hbp hl hj
      obtain ⟨rfl, -, -⟩ := shifted_eq_some hne hsh
      exact hi.elsewhere i hold
    refine ⟨htable, ?_, fun id j hj => ?_, helse⟩
    · -- the list under the path is shorter by one if the entry was in it
      show _ < ((t.applyRemovedBreakpoint bp).entriesAt path).length
      rw [entriesAt_removed hbp hl]
      by_cases e : path = p
      · subst e
        have hne : index ≠ pos := hi.free bpId index hl
        rw [if_pos rfl, List.length_eraseIdx_of_lt hlt]
        simp only [true_and]
        split_ifs <;> omega
      · have e' : ¬ p = path := fun h => e h.symm
        rw [if_neg e]
        simpa only [e', false_and, if_false] using hslot
    · -- and the positions after it are lower by one
      obtain ⟨⟨q, i⟩, hold, hne, hsh⟩ := hi.table.before_removed hbp hl hj
      obtain ⟨rfl, hsame, hother⟩ := shifted_eq_some hne hsh
      have hfree : i ≠ pos := hi.free id i hold
      show j ≠ if p = q ∧ index < pos then pos - 1 else pos
      by_cases e : q = p
      · obtain ⟨hii, rfl⟩ := hsame e
        subst e
        have hne : index ≠ pos := hi.free bpId index hl
        simp only [true_and]
        split_ifs <;> omega
      · have e' : ¬ p = q := fun h => e h.symm
        simp only [hother e, e', false_and, if_false]
        exact hfree

/-- **One step** that is quiet keeps the entry and its position. -/
lemma inv_follow {s s' : BreakpointTracker × ℕ} {i : Input} (hi : Inv path k s)
    (hu : Unique path k s i) (hq : Quiet path k s i) (h : follow path s i = (s', .ok ())) :
    Inv path k s' := by
  obtain ⟨t, pos⟩ := s
  obtain rfl := congrArg Prod.fst h
  show Inv path k (t.step i, slotAfter path t pos i)
  cases i with
  | setRequest backendSeq message =>
    exact ⟨tableInv_step hi.table (.setRequest backendSeq message), hi.slot, hi.free, hi.elsewhere⟩
  | exceptionRequest message =>
    exact ⟨tableInv_step hi.table (.exceptionRequest message), hi.slot, hi.free, hi.elsewhere⟩
  | response message =>
    show Inv path k (t.observeSetBreakpointsResponse message, pos)
    cases hs : t.stores message with
    | none =>
      rw [observe_of_stores_none hs]
      exact hi
    | some stored =>
      obtain ⟨p, specs⟩ := stored
      -- what is stored is stored under another path
      have hp : path ≠ p := by
        rintro rfl
        exact hu specs hs
      obtain ⟨hentries, hids, -⟩ := observe_of_stores hs
      refine ⟨tableInv_response hi.table message, ?_, fun id j hl => ?_, fun j hl => ?_⟩
      · -- so that the list under this one is as long as it was
        show pos < ((t.observeSetBreakpointsResponse message).entriesAt path).length
        rw [hentries, if_neg hp]
        exact hi.slot
      · rw [hids] at hl
        exact hi.free id j (Option.filter_eq_some_iff.mp hl).1
      · rw [hids] at hl
        exact hi.elsewhere j (Option.filter_eq_some_iff.mp hl).1
  | event message =>
    simp only [step, observeEvent_eq, slotAfter]
    cases he : eventOf message with
    | none => exact hi
    | some found =>
      obtain ⟨reason, bp⟩ := found
      by_cases h1 : reason = "new"
      · subst h1
        exact hi.new (hu bp he)
      by_cases h2 : reason = "changed"
      · subst h2
        refine hi.changed fun hid hl => ?_
        have hq' := ((hq message "changed" bp rfl he hid).2 rfl).2
        rwa [hl] at hq'
      by_cases h3 : reason = "removed"
      · subst h3
        exact hi.removed
      simpa [h1, h2, h3] using hi

/-! ### Runs -/

/-- **Events about a breakpoint that a response reported** do what they should exactly as long
as they have nothing to do. -/
theorem follows_iff {pre post : List Input} {message : Value} {k : ℤ} {path : String} {pos : ℕ}
    (hrep : Reported (after pre) message k path pos)
    (huniq : ∀ v ∈ visits (follow path) ((after pre).step (.response message), pos) post,
      Unique path k v.1 v.2) :
    (∀ v ∈ visits (follow path) ((after pre).step (.response message), pos) post,
        Obeyed path k v.1 v.2) ↔
      ∀ v ∈ visits (follow path) ((after pre).step (.response message), pos) post,
        Quiet path k v.1 v.2 :=
  forall_visits_congr (I := Inv path k) (fun _ i hi _ => obeyed_iff hi i)
    (fun _ _ _ hi hu hq h => inv_follow hi hu hq h)
    (inv_reported (tableInv_after pre) hrep) huniq

/-- The client sets a breakpoint in `main.py`. -/
def setOnce : List Input :=
  [.setRequest 1 (MuxMessage.request 1 "setBreakpoints" (some (.obj
    [("source", .obj [("path", .string "main.py")]),
      ("breakpoints", .array [.obj [("line", .int 5)]])])))]

/-- The adapter calls it breakpoint 3. -/
def verifiedAs3 : Value :=
  MuxMessage.response 7 1 true (some (.obj [("breakpoints", .array
    [.obj [("id", .int 3), ("verified", .bool true), ("line", .int 5)]])]))

/-- The adapter removes it. -/
def removed3 : Input :=
  .event (MuxMessage.event 8 "breakpoint" (some (.obj
    [("reason", .string "removed"), ("breakpoint", .obj [("id", .int 3)])])))

lemma reported_setOnce : Reported (after setOnce) verifiedAs3 3 "main.py" 0 :=
  ⟨⟨"main.py", [⟨5, none, none, none⟩]⟩,
    [.obj [("id", .int 3), ("verified", .bool true), ("line", .int 5)]], 0,
    .obj [("id", .int 3), ("verified", .bool true), ("line", .int 5)], ⟨5, none, none, none⟩,
    by decide, rfl, rfl, rfl, rfl, rfl, rfl, rfl⟩

lemma unique_removed3 : ∀ v ∈ visits (follow "main.py")
    ((after setOnce).step (.response verifiedAs3), 0) [removed3], Unique "main.py" 3 v.1 v.2 := by
  intro v hv
  obtain rfl := List.mem_singleton.mp hv
  intro bp he
  have hof : eventOf (MuxMessage.event 8 "breakpoint" (some (.obj
      [("reason", .string "removed"), ("breakpoint", .obj [("id", .int 3)])]))) =
      some ("removed", .obj [("id", .int 3)]) := rfl
  rw [hof] at he
  exact absurd (congrArg Prod.fst (Option.some.inj he)) (by simp)

theorem follows_iff_removed3 :
    (∀ v ∈ visits (follow "main.py") ((after setOnce).step (.response verifiedAs3), 0)
        [removed3], Obeyed "main.py" 3 v.1 v.2) ↔
      ∀ v ∈ visits (follow "main.py") ((after setOnce).step (.response verifiedAs3), 0)
        [removed3], Quiet "main.py" 3 v.1 v.2 :=
  follows_iff reported_setOnce unique_removed3

/-- The breakpoint removed by the adapter stays in the snapshot. -/
theorem removed_breakpoint_stays :
    Reported (after setOnce) verifiedAs3 3 "main.py" 0 ∧
      (∀ v ∈ visits (follow "main.py") ((after setOnce).step (.response verifiedAs3), 0)
        [removed3], Unique "main.py" 3 v.1 v.2) ∧
      ¬ ∀ v ∈ visits (follow "main.py") ((after setOnce).step (.response verifiedAs3), 0)
        [removed3], Obeyed "main.py" 3 v.1 v.2 := by
  refine ⟨reported_setOnce, unique_removed3, fun h => ?_⟩
  have ho := ((h _ (.head _)) _ "removed" (.obj [("id", .int 3)]) rfl rfl rfl).1 rfl
  exact absurd ho.1 (by decide)

end DappyCore.EventTracking
