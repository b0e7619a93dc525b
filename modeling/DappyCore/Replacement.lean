import DappyCore.Lib.Register
import DappyCore.BreakpointTable
import DappyCore.MuxMessage

/-!
Whether `setBreakpoints` replaces. A request is for the path the client uses; what it stores
goes under the path the adapter answers with, and replaces what is stored under that one.
-/

namespace DappyCore.Replacement

open Lib Json Breakpoints Breakpoints.BreakpointTracker

inductive Input
  | request (backendSeq : ℤ) (message : Value)
  | response (message : Value)

def step (t : BreakpointTracker) : Input → BreakpointTracker
  | .request backendSeq message => t.trackSetBreakpointsRequest backendSeq message
  | .response message => t.observeSetBreakpointsResponse message

/-- `arguments.breakpoints` of a request. -/
def requestList (message : Value) : List Value :=
  ((((message.get "arguments").bind Value.asObject).bind (lookupField "breakpoints")).bind
    Value.asArray).getD []

/-- A successful `setBreakpoints`: the path it was for, whether its list was empty, the path it
stored under, and the entries it stored. -/
structure SetDone where
  requested : String
  clears : Bool
  resolved : String
  specs : List SourceBreakpointSpec

def setDone (request response : Value) : SetDone where
  requested := requestSourcePath request
  clears := (requestList request).isEmpty
  resolved := resolvedPath (responseBreakpoints response) (requestSourcePath request)
  specs := resolvedSpecs (responseBreakpoints response) (requestSpecs request)

/-- The open requests, and the successful ones in the order of their responses. -/
structure Log where
  asked : HashMap ℤ Value
  sets : List SetDone

def Log.new : Log := ⟨∅, []⟩

def note (h : Log) : Input → Log
  | .request backendSeq message => { h with asked := h.asked.insert backendSeq message }
  | .response message =>
    if ¬ isSuccess message then h
    else
      match h.asked.lookup (answeredSeq message) with
      | none => h
      | some request =>
        ⟨h.asked.erase (answeredSeq message), h.sets ++ [setDone request message]⟩

/-- The tracker and the log after a run. -/
def tracker (inputs : List Input) : BreakpointTracker := inputs.foldl step .empty

def log (inputs : List Input) : Log := inputs.foldl note .new

variable {t : BreakpointTracker} {h : Log}

/-! ### What the tracker holds -/

/-- The list under a path is what the last `setBreakpoints` that stored there put there. -/
structure Inv (t : BreakpointTracker) (h : Log) : Prop where
  pending : ∀ n, t.pendingSetBreakpoints.lookup n =
    (h.asked.lookup n).map fun m => ⟨requestSourcePath m, requestSpecs m⟩
  stored : ∀ path, entriesAt t path =
    (lastOf (fun d : SetDone => d.resolved = path) h.sets).elim [] SetDone.specs

lemma inv_begin : Inv .empty .new := ⟨fun _ => rfl, fun _ => rfl⟩

lemma inv_step (hi : Inv t h) (i : Input) : Inv (step t i) (note h i) := by
  match i with
  | .request backendSeq message =>
    refine ⟨fun n => ?_, hi.stored⟩
    simp only [step, trackSetBreakpointsRequest, note, HashMap.lookup_insert_of, hi.pending]
    split_ifs <;> rfl
  | .response message =>
    simp only [step, observeSetBreakpointsResponse, note]
    by_cases hs : isSuccess message
    · cases hl : h.asked.lookup (answeredSeq message) with
      | none => simpa [hs, hi.pending, hl] using hi
      | some request =>
        simp only [hs, hi.pending, hl, Option.map_some, not_true_eq_false, if_false]
        refine ⟨fun n => ?_, fun path => ?_⟩
        · simp only [rebuildSourceBreakpoints, HashMap.lookup_erase_of, hi.pending]
          split_ifs <;> rfl
        · rw [entriesAt_rebuild, lastOf_concat]
          by_cases hp : (setDone request message).resolved = path
          · have hp' : path = resolvedPath (responseBreakpoints message)
                (requestSourcePath request) := hp.symm
            rw [if_pos hp', if_pos (decide_eq_true hp)]
            rfl
          · have hp' : ¬ path = resolvedPath (responseBreakpoints message)
                (requestSourcePath request) := fun e => hp e.symm
            rw [if_neg hp', if_neg (by simpa using hp)]
            exact hi.stored path
    · simpa [hs] using hi

/-- **Every run**: the last to store under a path decides what is there. -/
theorem inv_run (inputs : List Input) : Inv (tracker inputs) (log inputs) := by
  induction inputs using List.reverseRecOn with
  | nil => exact inv_begin
  | append_singleton l i ih =>
    rw [tracker, log, List.foldl_append, List.foldl_append]
    exact inv_step ih i

/-! ### Replacement -/

/-- Of what an earlier `setBreakpoints` for the path of the last one stored, there is left what the
last one stored again; and when the list of the last one was empty, nothing is left of what any for
its path stored. -/
structure Replaced (t : BreakpointTracker) (sets : List SetDone) : Prop where
  again : ∀ before last, sets = before ++ [last] → ∀ d ∈ before, d.requested = last.requested →
    ∀ spec ∈ d.specs, spec ∈ entriesAt t d.resolved → d.resolved = last.resolved ∧ spec ∈ last.specs
  cleared : ∀ before last, sets = before ++ [last] → last.clears → ∀ d ∈ before ++ [last],
    d.requested = last.requested → ∀ spec ∈ d.specs, spec ∉ entriesAt t d.resolved

/-- At every point of the run the last `setBreakpoints` has replaced the earlier ones. -/
def Replaces (inputs : List Input) : Prop :=
  ∀ pre post, inputs = pre ++ post → Replaced (tracker pre) (log pre).sets

/-- Whatever a `setBreakpoints` stored, each later one for the same requested path is resolved to
the path it is stored under and has a list that is not empty, or what was stored under that path
last has none of it. -/
def Resettled (sets : List SetDone) : Prop :=
  ∀ before last rest, sets = before ++ last :: rest → ∀ d ∈ before ++ [last],
    d.requested = last.requested → d.resolved = last.resolved ∧ ¬ last.clears ∨
      ∀ k, lastOf (fun d' => d'.resolved = d.resolved) (before ++ [last]) = some k →
        ∀ spec ∈ d.specs, spec ∉ k.specs

/-- The log grows by at most one entry at a time. -/
lemma sets_note (h : Log) (i : Input) :
    (note h i).sets = h.sets ∨ ∃ d, (note h i).sets = h.sets ++ [d] := by
  match i with
  | .request _ _ => exact .inl rfl
  | .response message =>
    by_cases hs : isSuccess message
    · cases hl : h.asked.lookup (answeredSeq message) with
      | none => exact .inl (by simp [note, hs, hl])
      | some request => exact .inr ⟨setDone request message, by simp [note, hs, hl]⟩
    · exact .inl (by simp [note, hs])

/-- Every beginning of the log is the log of a beginning of the run. -/
lemma exists_prefix (inputs : List Input) {sets rest : List SetDone}
    (hs : (log inputs).sets = sets ++ rest) :
    ∃ pre post, inputs = pre ++ post ∧ (log pre).sets = sets := by
  induction inputs using List.reverseRecOn generalizing rest with
  | nil =>
    have hnil : sets = [] := (List.append_eq_nil_iff.mp hs.symm).1
    exact ⟨[], [], rfl, hnil.symm⟩
  | append_singleton l i ih =>
    have hlog : log (l ++ [i]) = note (log l) i := by simp [log]
    rcases sets_note (log l) i with hsame | ⟨d, hd⟩
    · have hl : (log l).sets = sets ++ rest := by rw [← hsame, ← hlog, hs]
      obtain ⟨pre, post, rfl, hp⟩ := ih hl
      exact ⟨pre, post ++ [i], by simp, hp⟩
    · rw [hlog, hd] at hs
      rcases List.eq_nil_or_concat' rest with rfl | ⟨rest', e, rfl⟩
      · exact ⟨l ++ [i], [], by simp, by rw [hlog, hd, hs, List.append_nil]⟩
      · rw [← List.append_assoc] at hs
        obtain ⟨hl, -⟩ := List.append_inj' hs rfl
        obtain ⟨pre, post, rfl, hp⟩ := ih hl
        exact ⟨pre, post ++ [i], by simp, hp⟩

/-- What was stored last under a path is there. -/
lemma exists_entriesAt (hi : Inv t h) {d : SetDone} (hd : d ∈ h.sets) :
    ∃ k, lastOf (fun d' => d'.resolved = d.resolved) h.sets = some k ∧
      entriesAt t d.resolved = k.specs := by
  cases hk : lastOf (fun d' => d'.resolved = d.resolved) h.sets with
  | none => exact absurd (decide_eq_true rfl) (lastOf_eq_none_iff.mp hk d hd)
  | some k => exact ⟨k, rfl, by rw [hi.stored, hk]; rfl⟩

/-- **After one `setBreakpoints`**, what it was to replace is replaced exactly when it is stored
over, or was before. -/
lemma replaced_iff (hi : Inv t h) {before : List SetDone} {last : SetDone}
    (hs : h.sets = before ++ [last]) :
    Replaced t h.sets ↔ ∀ d ∈ before ++ [last], d.requested = last.requested →
      d.resolved = last.resolved ∧ ¬ last.clears ∨
        ∀ k, lastOf (fun d' => d'.resolved = d.resolved) (before ++ [last]) = some k →
          ∀ spec ∈ d.specs, spec ∉ k.specs := by
  rw [hs]
  constructor
  · -- what is stored last under the path is in the snapshot
    intro hr d hd hsame
    rw [or_iff_not_imp_left, not_and_or, not_not]
    intro hpath k hk spec hspec hin
    have hthere : spec ∈ entriesAt t d.resolved := by
      obtain ⟨k', hk', he⟩ := exists_entriesAt hi (hs ▸ hd)
      rw [hs, hk, Option.some.injEq] at hk'
      rwa [he, ← hk']
    rcases hpath with hne | hclears
    · have hearlier : d ∈ before := by
        refine (List.mem_append.mp hd).resolve_right fun hlast => hne ?_
        rw [List.mem_singleton.mp hlast]
      exact hne (hr.again before last rfl d hearlier hsame spec hspec hthere).1
    · exact hr.cleared before last rfl hclears d hd hsame spec hspec hthere
  · intro hc
    refine ⟨fun before' last' hs' d hd hsame spec hspec hthere => ?_,
      fun before' last' hs' hclears d hd hsame spec hspec hthere => ?_⟩
    · -- the last one stored under this path itself
      obtain ⟨rfl, hlast⟩ := List.append_inj' hs' rfl
      obtain rfl := List.singleton_inj.mp hlast
      have hmem := List.mem_append_left [last] hd
      obtain ⟨k, hk, he⟩ := exists_entriesAt hi (hs ▸ hmem)
      rw [hs] at hk
      rcases hc d hmem hsame with ⟨hpath, -⟩ | hover
      · rw [lastOf_concat, if_pos (decide_eq_true hpath.symm), Option.some.injEq] at hk
        exact ⟨hpath, hk ▸ he ▸ hthere⟩
      · exact absurd (he ▸ hthere) (hover k hk spec hspec)
    · obtain ⟨rfl, hlast⟩ := List.append_inj' hs' rfl
      obtain rfl := List.singleton_inj.mp hlast
      obtain ⟨k, hk, he⟩ := exists_entriesAt hi (hs ▸ hd)
      rw [hs] at hk
      rcases hc d hd hsame with ⟨-, hnot⟩ | hover
      · exact hnot hclears
      · exact hover k hk spec hspec (he ▸ hthere)

/-- The log of a run goes on from the log of its beginning. -/
lemma sets_append (pre post : List Input) :
    ∃ rest, (log (pre ++ post)).sets = (log pre).sets ++ rest := by
  induction post using List.reverseRecOn with
  | nil => exact ⟨[], by simp⟩
  | append_singleton l i ih =>
    obtain ⟨rest, hrest⟩ := ih
    have hlog : log (pre ++ (l ++ [i])) = note (log (pre ++ l)) i := by simp [log]
    rcases sets_note (log (pre ++ l)) i with h | ⟨e, h⟩
    · exact ⟨rest, by rw [hlog, h, hrest]⟩
    · exact ⟨rest ++ [e], by rw [hlog, h, hrest, List.append_assoc]⟩

/-- **`setBreakpoints` replaces exactly when** what was stored is stored over. -/
theorem replaces_iff (inputs : List Input) :
    Replaces inputs ↔ Resettled (log inputs).sets := by
  constructor
  · intro hr before last rest hs
    have hs' : (log inputs).sets = (before ++ [last]) ++ rest := by simp [hs]
    obtain ⟨pre, post, hin, hpre⟩ := exists_prefix inputs hs'
    exact (replaced_iff (inv_run pre) hpre).mp (hr pre post hin)
  · intro hc pre post hin
    rcases List.eq_nil_or_concat' (log pre).sets with hnil | ⟨before, last, hpre⟩
    · rw [hnil]
      exact ⟨fun _ _ h => by simp at h, fun _ _ h => by simp at h⟩
    · obtain ⟨rest, hrest⟩ := sets_append pre post
      refine (replaced_iff (inv_run pre) hpre).mpr (hc before last rest ?_)
      rw [hin, hrest, hpre, List.append_assoc]
      rfl

/-- The client sets a breakpoint in `main.py`, the adapter answers with the absolute path, and
the client clears `main.py`. -/
def clearedByOtherName : List Input :=
  let source (path : String) : String × Value := ("source", .obj [("path", .string path)])
  [.request 1 (MuxMessage.request 1 "setBreakpoints" (some (.obj
      [source "main.py", ("breakpoints", .array [.obj [("line", .int 5)]])]))),
    .response (MuxMessage.response 7 1 true (some (.obj
      [("breakpoints", .array [.obj [("line", .int 5), source "/abs/main.py"]])]))),
    .request 2 (MuxMessage.request 2 "setBreakpoints" (some (.obj
      [source "main.py", ("breakpoints", .array [])]))),
    .response (MuxMessage.response 8 2 true (some (.obj [("breakpoints", .array [])])))]

theorem cleared_breakpoint_stays : ¬ Replaces clearedByOtherName := by
  intro h
  exact (h clearedByOtherName [] rfl).cleared
    [⟨"main.py", false, "/abs/main.py", [⟨5, none, none, none⟩]⟩] ⟨"main.py", true, "main.py", []⟩
    rfl rfl _ (.head _) rfl ⟨5, none, none, none⟩ (.head _) (.head _)

end DappyCore.Replacement
