import DappyCore.BreakpointTable
import DappyCore.MuxMessage

/-!
Which requested breakpoint a response breakpoint is paired with. The request is filtered before
it is stored, the response is numbered before it is filtered, so behind a request entry that
does not parse the positions are those of other entries.
-/

namespace DappyCore.BreakpointPairing

open Lib Json Breakpoints Breakpoints.BreakpointTracker

/-- `arguments.breakpoints` of a `setBreakpoints` request. -/
def requestItems (message : Value) : Option (List Value) :=
  (((message.get "arguments").bind Value.asObject).bind (lookupField "breakpoints")).bind
    Value.asArray

lemma requestSpecs_eq {message : Value} {reqs : List Value} (h : requestItems message = some reqs) :
    requestSpecs message = reqs.filterMap parseSourceBreakpoint := by
  unfold requestItems at h
  rw [requestSpecs, h]
  rfl

/-- The response is a success and the request it answers still waits. -/
structure Answers (t : BreakpointTracker) (request response : Value) : Prop where
  success : isSuccess response
  pending : t.pendingSetBreakpoints.lookup (answeredSeq response) =
    some ⟨requestSourcePath request, requestSpecs request⟩

lemma answers_track (t : BreakpointTracker) {request response : Value} {seq : ℤ}
    (hs : isSuccess response) (hseq : answeredSeq response = seq) :
    Answers (t.trackSetBreakpointsRequest seq request) request response := by
  refine ⟨hs, ?_⟩
  rw [hseq]
  exact AList.lookup_insert _

/-- What is stored for this position of the response. -/
def storedFor (request : Value) (bp : Value) (i : ℕ) : Option SourceBreakpointSpec :=
  mergeBreakpoint bp (requestSpecs request)[i]?

/-- What falls back on the same position of the request. -/
def pairedFor (reqs : List Value) (bp : Value) (i : ℕ) : Option SourceBreakpointSpec :=
  mergeBreakpoint bp (reqs[i]?.bind parseSourceBreakpoint)

/-- Every entry stored for a position of the response is the one that falls back on that
position of the request. -/
def PairedRight (request : Value) (reqs items : List Value) : Prop :=
  ∀ i bp spec, items[i]? = some bp → storedFor request bp i = some spec →
    pairedFor reqs bp i = some spec

/-- An entry up to this position does not parse. -/
def Malformed (reqs : List Value) (i : ℕ) : Prop :=
  ∃ req ∈ reqs.take (i + 1), parseSourceBreakpoint req = none

/-- It makes no difference to the response entry which of the two it is paired with: it is
unverified, or has no line and finds none, or they have in common what it leaves open. -/
def Indifferent (bp : Value) (a b : Option SourceBreakpointSpec) : Prop :=
  (bp.get "verified").bind Value.asBool = some false ∨
    (intField bp "line" = none ∧ a = none) ∨
    ((intField bp "line" = none → a.map (·.line) = b.map (·.line)) ∧
      (strField bp "condition" = none → a.bind (·.condition) = b.bind (·.condition)) ∧
      (strField bp "hitCondition" = none → a.bind (·.hitCondition) = b.bind (·.hitCondition)) ∧
      (strField bp "logMessage" = none → a.bind (·.logMessage) = b.bind (·.logMessage)))

/-- Behind a malformed entry, the response entry does not tell the well-formed request entry of
its number from the request entry at its position. -/
def SlipHidden (reqs items : List Value) : Prop :=
  ∀ i bp, items[i]? = some bp → Malformed reqs i →
    Indifferent bp (reqs.filterMap parseSourceBreakpoint)[i]? (reqs[i]?.bind parseSourceBreakpoint)

/-! ### Positions -/

/-- In front of the first element that is dropped, positions stay. -/
lemma getElem?_filterMap_of_isSome {α β : Type} {f : α → Option β} {l : List α} {i : ℕ}
    (h : ∀ a ∈ l.take (i + 1), f a ≠ none) : (l.filterMap f)[i]? = l[i]?.bind f := by
  induction l generalizing i with
  | nil => simp
  | cons a rest ih =>
    obtain ⟨b, hb⟩ := Option.ne_none_iff_exists'.mp (h a (by simp))
    rw [List.filterMap_cons_some hb]
    cases i with
    | zero => simp [hb]
    | succ i =>
      rw [List.getElem?_cons_succ, List.getElem?_cons_succ]
      refine ih fun a' ha' => h a' ?_
      rw [List.take_succ_cons]
      exact List.mem_cons_of_mem _ ha'

/-! ### Merging -/

variable {bp : Value} {a b : Option SourceBreakpointSpec}

lemma or_eq_or_iff {α : Type} (o x y : Option α) : o.or x = o.or y ↔ (o = none → x = y) := by
  cases o <;> simp

/-- The fields of an entry beside its line. -/
def mergedAt (bp : Value) (a : Option SourceBreakpointSpec) (line : ℤ) : SourceBreakpointSpec :=
  { line
    condition := (strField bp "condition").or (a.bind (·.condition))
    hitCondition := (strField bp "hitCondition").or (a.bind (·.hitCondition))
    logMessage := (strField bp "logMessage").or (a.bind (·.logMessage)) }

lemma mergeBreakpoint_verified (hv : (bp.get "verified").bind Value.asBool ≠ some false)
    (a : Option SourceBreakpointSpec) :
    mergeBreakpoint bp a = ((intField bp "line").or (a.map (·.line))).map (mergedAt bp a) :=
  if_neg hv

lemma mergedAt_eq_iff (line line' : ℤ) :
    mergedAt bp a line = mergedAt bp b line' ↔ line = line' ∧
      (strField bp "condition" = none → a.bind (·.condition) = b.bind (·.condition)) ∧
      (strField bp "hitCondition" = none → a.bind (·.hitCondition) = b.bind (·.hitCondition)) ∧
      (strField bp "logMessage" = none → a.bind (·.logMessage) = b.bind (·.logMessage)) := by
  simp only [mergedAt, SourceBreakpointSpec.mk.injEq, or_eq_or_iff]

/-- What is stored with the one entry is what would be with the other. -/
lemma indifferent_iff :
    (∀ spec, mergeBreakpoint bp a = some spec → mergeBreakpoint bp b = some spec) ↔
      Indifferent bp a b := by
  by_cases hv : (bp.get "verified").bind Value.asBool = some false
  · refine iff_of_true (fun spec h => ?_) (.inl hv)
    rw [mergeBreakpoint, if_pos hv] at h
    exact absurd h.symm (Option.some_ne_none spec)
  · rw [Indifferent, mergeBreakpoint_verified hv, mergeBreakpoint_verified hv]
    simp only [hv, false_or]
    cases hline : intField bp "line" with
    | some line =>
      simp only [Option.some_or, Option.map_some, Option.some.injEq, reduceCtorEq, false_and,
        false_or, false_implies, true_and, forall_eq']
      rw [eq_comm, mergedAt_eq_iff]
      exact and_iff_right rfl
    | none =>
      cases a with
      | none => simp
      | some sa =>
        cases b with
        | none => simp
        | some sb =>
          simp only [Option.none_or, Option.map_some, Option.some.injEq, reduceCtorEq, and_false,
            false_or, forall_const, forall_eq']
          rw [eq_comm, mergedAt_eq_iff]

/-! ### The response -/

variable {t : BreakpointTracker} {request response : Value} {reqs items : List Value}

/-- What the tracker has once the response has come: what is stored for each of its positions. -/
lemma entriesAt_response (h : Answers t request response)
    (hreq : requestItems request = some reqs) (hresp : responseBreakpoints response = some items)
    (hlen : items.length = reqs.length) :
    (t.step (.response response)).entriesAt
        (resolvedPath (some items) (requestSourcePath request)) =
      items.zipIdx.filterMap fun (bp, i) => storedFor request bp i := by
  have hstores : t.stores response = some (resolvedPath (some items) (requestSourcePath request),
      mergeBreakpoints items (requestSpecs request)) := by
    simp [stores, h.success, h.pending, hresp, resolvedSpecs]
  have hentries := (observe_of_stores hstores).1 (resolvedPath (some items)
    (requestSourcePath request))
  rw [step, hentries, if_pos rfl, mergeBreakpoints]
  split_ifs with he
  · -- no entries at all, on either side
    obtain rfl := List.isEmpty_iff.mp he
    obtain rfl := List.eq_nil_of_length_eq_zero hlen.symm
    rw [requestSpecs_eq hreq]
    rfl
  · rfl

/-- **Responses are paired with the right requested breakpoint** exactly where no entry that
does not parse comes before, or the slip does not show. -/
theorem pairedRight_iff (h : Answers t request response)
    (hreq : requestItems request = some reqs) (hresp : responseBreakpoints response = some items)
    (hlen : items.length = reqs.length) :
    (t.step (.response response)).entriesAt
          (resolvedPath (some items) (requestSourcePath request)) =
        (items.zipIdx.filterMap fun (bp, i) => storedFor request bp i) ∧
      (PairedRight request reqs items ↔ SlipHidden reqs items) := by
  refine ⟨entriesAt_response h hreq hresp hlen, ?_⟩
  have hspecs := requestSpecs_eq hreq
  constructor
  · intro hp i bp hi hm
    refine indifferent_iff.mp fun spec hs => hp i bp spec hi ?_
    rw [storedFor, hspecs]
    exact hs
  · intro hc i bp spec hi hs
    rw [storedFor, hspecs] at hs
    by_cases hm : Malformed reqs i
    · exact indifferent_iff.mpr (hc i bp hi hm) spec hs
    · have hsame := getElem?_filterMap_of_isSome (f := parseSourceBreakpoint) (l := reqs) (i := i)
        fun req hreq hnone => hm ⟨req, hreq, hnone⟩
      rw [hsame] at hs
      exact hs

/-- Three breakpoints, of which the first has no line that could be read. -/
def threeRequested : List Value :=
  [.obj [("line", .string "5")], .obj [("line", .int 10)],
    .obj [("line", .int 20), ("condition", .string "x > 1")]]

def requestOfThree : Value :=
  MuxMessage.request 1 "setBreakpoints" (some (.obj
    [("source", .obj [("path", .string "main.py")]), ("breakpoints", .array threeRequested)]))

/-- The adapter verifies the other two. -/
def twoVerified : List Value :=
  [.obj [("verified", .bool false)], .obj [("verified", .bool true), ("line", .int 10)],
    .obj [("verified", .bool true), ("line", .int 20)]]

def responseOfTwo : Value :=
  MuxMessage.response 2 1 true (some (.obj [("breakpoints", .array twoVerified)]))

/-- The tracker that waits for the response. -/
abbrev waiting : BreakpointTracker := empty.trackSetBreakpointsRequest 1 requestOfThree

theorem pairedRight_iff_three :
    (waiting.step (.response responseOfTwo)).entriesAt
          (resolvedPath (some twoVerified) (requestSourcePath requestOfThree)) =
        (twoVerified.zipIdx.filterMap fun (bp, i) => storedFor requestOfThree bp i) ∧
      (PairedRight requestOfThree threeRequested twoVerified ↔
        SlipHidden threeRequested twoVerified) :=
  pairedRight_iff (answers_track empty (by decide) rfl) rfl rfl rfl

/-- The condition of line 20 is stored for line 10. -/
theorem condition_moves_to_another_line :
    Answers waiting requestOfThree responseOfTwo ∧
      requestItems requestOfThree = some threeRequested ∧
      responseBreakpoints responseOfTwo = some twoVerified ∧
      twoVerified.length = threeRequested.length ∧
      (waiting.step (.response responseOfTwo)).entriesAt "main.py" =
        [⟨10, some "x > 1", none, none⟩, ⟨20, none, none, none⟩] ∧
      ¬ PairedRight requestOfThree threeRequested twoVerified := by
  refine ⟨answers_track empty (by decide) rfl, rfl, rfl, rfl, by decide, fun h => ?_⟩
  have hmoved := h 1 (.obj [("verified", .bool true), ("line", .int 10)])
    ⟨10, some "x > 1", none, none⟩ rfl rfl
  exact absurd hmoved (by decide)

end DappyCore.BreakpointPairing
