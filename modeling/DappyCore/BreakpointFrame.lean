import DappyCore.EventTracking

/-!
What a `new` or `changed` event leaves alone. A position is meant for the list it was recorded
with; `changed` reads both from the table of ids, `new` only the position.
-/

namespace DappyCore.BreakpointFrame

open Lib Json Breakpoints Breakpoints.BreakpointTracker EventTracking

/-- The entry under this path and position is written, and nothing else. -/
def WritesAt (t t' : BreakpointTracker) (path : String) (index : ℕ) : Prop :=
  index < (t.entriesAt path).length ∧ OthersKept t t' path ∧
    ∃ spec, t'.entriesAt path = (t.entriesAt path).set index spec

/-- The list under this path gets one more entry at its end, and nothing else changes. -/
def AppendsAt (t t' : BreakpointTracker) (path : String) : Prop :=
  OthersKept t t' path ∧ ∃ spec, t'.entriesAt path = t.entriesAt path ++ [spec]

/-- Nothing changes, or the entry that `k` is bound to, or there is one more under the path. -/
def TouchesOnly (t t' : BreakpointTracker) (k : ℤ) (path : String) : Prop :=
  t'.entriesAt = t.entriesAt ∨
    (∃ p index, t.breakpointIds.lookup k = some (p, index) ∧ WritesAt t t' p index) ∨
    AppendsAt t t' path

/-- The id is bound under another path, to a position at which the path of the event has an
entry too, and one that the event would change. -/
def Strays (t : BreakpointTracker) (k : ℤ) (bp : Value) : Prop :=
  ∃ spec p index old, newSpec bp = some spec ∧
    t.breakpointIds.lookup k = some (p, index) ∧ p ≠ bpSourcePath bp ∧
    (t.entriesAt (bpSourcePath bp))[index]? = some old ∧ old ≠ spec

variable {t : BreakpointTracker} {k : ℤ} {bp : Value} {path : String} {index : ℕ}
  {spec : SourceBreakpointSpec}

/-! ### What is written -/

lemma othersKept_put (t : BreakpointTracker) (path : String)
    (entries : List SourceBreakpointSpec) : OthersKept t (t.put path entries) path := by
  intro path' hne
  rw [entriesAt_put, if_neg hne]

lemma writesAt_put_set (hlt : index < (t.entriesAt path).length) :
    WritesAt t (t.put path ((t.entriesAt path).set index spec)) path index :=
  ⟨hlt, othersKept_put t path _, spec, by rw [entriesAt_put, if_pos rfl]⟩

lemma writesAt_put_modify (f : SourceBreakpointSpec → SourceBreakpointSpec)
    (hlt : index < (t.entriesAt path).length) :
    WritesAt t (t.put path ((t.entriesAt path).modify index f)) path index := by
  refine ⟨hlt, othersKept_put t path _, f (t.entriesAt path)[index], ?_⟩
  rw [entriesAt_put, if_pos rfl, List.modify_eq_set_get f hlt]
  rfl

lemma appendsAt_append (t : BreakpointTracker) (path : String) (spec : SourceBreakpointSpec)
    (id : Option ℤ) : AppendsAt t (t.append path spec id) path := by
  refine ⟨fun path' hne => ?_, spec, ?_⟩
  · rw [entriesAt_append, if_neg hne]
  · rw [entriesAt_append, if_pos rfl]

/-! ### `new` -/

/-- An id bound to a position that the list of the path has: that entry is written. -/
lemma applyNew_within {p : String} (hn : newSpec bp = some spec) (hid : intField bp "id" = some k)
    (hl : t.breakpointIds.lookup k = some (p, index))
    (hlt : index < (t.entriesAt (bpSourcePath bp)).length) :
    t.applyNewBreakpoint bp =
      t.put (bpSourcePath bp) ((t.entriesAt (bpSourcePath bp)).set index spec) := by
  unfold applyNewBreakpoint
  rw [entriesAt] at hlt
  simp only [hn, hid, Option.bind_some, hl, Option.filter_some, hlt, decide_true, if_true]
  rfl

/-- A position past its end: an entry more. -/
lemma applyNew_past {p : String} (hn : newSpec bp = some spec) (hid : intField bp "id" = some k)
    (hl : t.breakpointIds.lookup k = some (p, index))
    (hle : ¬ index < (t.entriesAt (bpSourcePath bp)).length) :
    t.applyNewBreakpoint bp = t.append (bpSourcePath bp) spec (intField bp "id") := by
  unfold applyNewBreakpoint
  rw [entriesAt] at hle
  simp only [hn, hid, Option.bind_some, hl, Option.filter_some, hle, decide_false,
    Bool.false_eq_true, if_false]
  rfl

/-- An entry that the id is not bound to is written: no other reading of the step is left. -/
lemma not_touchesOnly_of_stray {p : String} (hl : t.breakpointIds.lookup k = some (p, index))
    (hp : p ≠ path) {old : SourceBreakpointSpec} (hold : (t.entriesAt path)[index]? = some old)
    (hne : old ≠ spec) :
    ¬ TouchesOnly t (t.put path ((t.entriesAt path).set index spec)) k path := by
  have hlt := (List.getElem?_eq_some_iff.mp hold).1
  have hset : (t.entriesAt path).set index spec ≠ t.entriesAt path := by
    intro h
    have hget := congrArg (·[index]?) h
    simp only [List.getElem?_set_self hlt, hold] at hget
    exact hne (Option.some.inj hget).symm
  have hpath : (t.put path ((t.entriesAt path).set index spec)).entriesAt path =
      (t.entriesAt path).set index spec := by
    rw [entriesAt_put, if_pos rfl]
  rintro (hsame | ⟨p', index', hl', -, hkept, -⟩ | ⟨-, spec', happ⟩)
  · exact hset (hpath.symm.trans (congrFun hsame path))
  · -- the entry bound is under another path, and this list would be as before
    obtain ⟨rfl, rfl⟩ := Prod.mk.inj (Option.some.inj (hl.symm.trans hl'))
    exact hset (hpath.symm.trans (hkept path hp.symm))
  · have hlen := congrArg List.length (hpath.symm.trans happ)
    rw [List.length_set, List.length_append, List.length_singleton] at hlen
    omega

lemma touchesOnly_new_iff (hid : intField bp "id" = some k) :
    TouchesOnly t (t.applyNewBreakpoint bp) k (bpSourcePath bp) ↔ ¬ Strays t k bp := by
  cases hn : newSpec bp with
  | none =>
    rw [applyNew_of_none hn]
    refine iff_of_true (.inl rfl) ?_
    rintro ⟨spec, p, index, old, hs, -⟩
    rw [hn] at hs
    exact Option.some_ne_none spec hs.symm
  | some spec =>
    cases hl : t.breakpointIds.lookup k with
    | none =>
      have hu : ((intField bp "id").bind fun bpId => t.breakpointIds.lookup bpId) = none := by
        rw [hid, Option.bind_some, hl]
      rw [applyNew_of_unbound hn hu]
      refine iff_of_true (.inr (.inr (appendsAt_append t _ spec _))) ?_
      rintro ⟨-, p, index, -, -, hs, -⟩
      rw [hl] at hs
      exact Option.some_ne_none _ hs.symm
    | some stored =>
      obtain ⟨p, index⟩ := stored
      by_cases hlt : index < (t.entriesAt (bpSourcePath bp)).length
      · rw [applyNew_within hn hid hl hlt]
        have hold := List.getElem?_eq_getElem hlt
        constructor
        · rintro htouch ⟨spec', p', index', old, hs, hl', hp, hold', hne⟩
          obtain rfl := Option.some.inj (hn.symm.trans hs)
          obtain ⟨rfl, rfl⟩ := Prod.mk.inj (Option.some.inj (hl.symm.trans hl'))
          exact not_touchesOnly_of_stray hl hp hold' hne htouch
        · intro hstray
          by_cases hp : p = bpSourcePath bp
          · subst hp
            exact .inr (.inl ⟨_, index, hl, writesAt_put_set hlt⟩)
          · -- under another path, but the entry there says the same
            have hsame : (t.entriesAt (bpSourcePath bp))[index] = spec := by
              by_contra hne
              exact hstray ⟨spec, p, index, _, hn, hl, hp, hold, hne⟩
            refine .inl (funext fun path' => ?_)
            rw [entriesAt_put, ← hsame, List.set_getElem_self]
            split_ifs with e
            · rw [e]
            · rfl
      · rw [applyNew_past hn hid hl hlt]
        refine iff_of_true (.inr (.inr (appendsAt_append t _ spec _))) ?_
        rintro ⟨-, p', index', old, -, hl', -, hold, -⟩
        obtain ⟨rfl, rfl⟩ := Prod.mk.inj (Option.some.inj (hl.symm.trans hl'))
        exact hlt (List.getElem?_eq_some_iff.mp hold).1

/-! ### `changed` -/

/-- An id that is bound has its entry, so `changed` never falls back on another list. -/
lemma touchesOnly_changed (ht : TableInv t) (hid : intField bp "id" = some k) :
    TouchesOnly t (t.applyChangedBreakpoint bp) k (bpSourcePath bp) := by
  cases hl : t.breakpointIds.lookup k with
  | some stored =>
    obtain ⟨p, index⟩ := stored
    rw [applyChanged_of_bound (boundEntry_of_lookup ht hid hl)]
    exact .inr (.inl ⟨p, index, hl, writesAt_put_modify _ (ht.inRange k p index hl)⟩)
  | none =>
    rw [applyChanged_of_unbound (boundEntry_of_unbound hid hl), touchesOnly_new_iff hid]
    rintro ⟨-, p, index, -, -, hs, -⟩
    rw [hl] at hs
    exact Option.some_ne_none _ hs.symm

/-! ### Reachable states -/

lemma step_new {message : Value} (he : eventOf message = some ("new", bp)) :
    t.step (.event message) = t.applyNewBreakpoint bp := by
  simp only [step, observeEvent_eq, he]

/-- **A breakpoint event touches only the breakpoint it names** exactly if it is no `new` event
whose id was bound under another path. -/
theorem event_touches_only_iff (inputs : List Input) {message : Value} {reason : String}
    {bp : Value} {k : ℤ} (he : eventOf message = some (reason, bp))
    (hr : reason = "new" ∨ reason = "changed") (hid : intField bp "id" = some k) :
    TouchesOnly (after inputs) ((after inputs).step (.event message)) k (bpSourcePath bp) ↔
      ¬ (reason = "new" ∧ Strays (after inputs) k bp) := by
  have ht := tableInv_after inputs
  rcases hr with rfl | rfl
  · rw [step_new he, touchesOnly_new_iff hid]
    simp
  · rw [step_changed he]
    exact iff_of_true (touchesOnly_changed ht hid) (by simp)

/-- The breakpoint of an event, at a line of a file. -/
def placed (id : ℤ) (path : String) (line : ℤ) : Value :=
  .obj [("id", .int id), ("source", .obj [("path", .string path)]), ("line", .int line)]

/-- The adapter announces it as a new one. -/
def announced (id : ℤ) (path : String) (line : ℤ) : Value :=
  MuxMessage.event 1 "breakpoint" (some (.obj [("reason", .string "new"),
    ("breakpoint", placed id path line)]))

/-- One breakpoint in each of two files. -/
def oneInEach : List Input := [.event (announced 1 "a.py" 1), .event (announced 2 "b.py" 2)]

theorem event_touches_only_iff_same_file :
    TouchesOnly (after oneInEach) ((after oneInEach).step (.event (announced 1 "a.py" 9))) 1
        (bpSourcePath (placed 1 "a.py" 9)) ↔
      ¬ ("new" = "new" ∧ Strays (after oneInEach) 1 (placed 1 "a.py" 9)) :=
  event_touches_only_iff oneInEach rfl (.inl rfl) rfl

/-- The first is announced again in the other file, and the breakpoint there is gone. -/
theorem new_overwrites_another :
    ¬ TouchesOnly (after oneInEach) ((after oneInEach).step (.event (announced 1 "b.py" 9))) 1
      "b.py" := by
  rintro (hsame | ⟨p, index, hl, -, hkept, -⟩ | ⟨-, spec, happ⟩)
  · exact absurd (congrFun hsame "b.py") (by decide)
  · have hbound : (after oneInEach).breakpointIds.lookup 1 = some ("a.py", 0) := by decide
    obtain ⟨rfl, rfl⟩ := Prod.mk.inj (Option.some.inj (hbound.symm.trans hl))
    exact absurd (hkept "b.py" (by decide)) (by decide)
  · have hlen := congrArg List.length happ
    rw [List.length_append, List.length_singleton] at hlen
    exact absurd hlen (by decide)

end DappyCore.BreakpointFrame
