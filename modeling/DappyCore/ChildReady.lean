import DappyCore.HeaderLines
import DappyCore.ChildSession

/-!
How a proxy learns where its child listens: the child writes its port and its id on a line of its
standard error, after lines of its log, and `read_child_ready` reads it line by line, from bytes
that arrive in any pieces, until it has found that line or the time is over.
-/

namespace DappyCore.ChildReady

open Lib Json Transport ChildSession

/-! ### Lines -/

/-- The lines of a text, each with its line feed; the last one may have none. -/
def splitLines : List UInt8 → List (List UInt8)
  | [] => []
  | b :: input =>
    if b = lineFeed then [b] :: splitLines input
    else
      match splitLines input with
      | [] => [[b]]
      | line :: rest => (b :: line) :: rest

lemma splitLines_line {front : List UInt8} (h : lineFeed ∉ front) (rest : List UInt8) :
    splitLines (front ++ lineFeed :: rest) = (front ++ [lineFeed]) :: splitLines rest := by
  induction front with
  | nil => simp [splitLines]
  | cons b front ih =>
    have hb : b ≠ lineFeed := fun e => h (e ▸ List.mem_cons_self)
    have hfront : lineFeed ∉ front := fun hm => h (List.mem_cons_of_mem _ hm)
    rw [List.cons_append, splitLines, if_neg hb, ih hfront]
    rfl

lemma firstLine_eq_none {input : List UInt8} : firstLine input = none ↔ lineFeed ∉ input := by
  induction input with
  | nil => simp [firstLine]
  | cons b input ih =>
    rw [firstLine]
    split_ifs with hb
    · simp [hb]
    · rw [Option.map_eq_none_iff, ih, List.mem_cons, not_or]
      exact ⟨fun h => ⟨Ne.symm hb, h⟩, fun h => h.2⟩

lemma splitLines_of_not_mem {input : List UInt8} (h : lineFeed ∉ input) (hne : input ≠ []) :
    splitLines input = [input] := by
  induction input with
  | nil => exact absurd rfl hne
  | cons b input ih =>
    have hb : b ≠ lineFeed := fun e => h (e ▸ List.mem_cons_self)
    have hinput : lineFeed ∉ input := fun hm => h (List.mem_cons_of_mem _ hm)
    rw [splitLines, if_neg hb]
    cases input with
    | nil => rfl
    | cons c input => rw [ih hinput (List.cons_ne_nil _ _)]

/-! ### Reading -/

/-- `Value::as_u64`. -/
def asU64 : Value → Option ℕ
  | .number (.int n) => if 0 ≤ n then some n.toNat else none
  | .number (.big n) => some n
  | _ => none

/-- Why no child is reported. -/
inductive ReadyError
  | timedOut
  | io
  | notReported
  deriving DecidableEq

/-- What a line comes to: nothing, or the end of the loop. `parse` is `serde_json::from_str`. -/
def readLine (parse : List Char → Option Value) (line : List UInt8) :
    Option (Except ReadyError ChildSpawnResult) :=
  match Utf8.decode line with
  | none => some (.error .io)
  | some text =>
    let trimmed := trim text
    if trimmed = [] then none
    else
      match parse trimmed with
      | none => none
      | some json =>
        match (json.get "controlPort").bind asU64, (json.get "instanceId").bind Value.asStr with
        | some port, some instanceId =>
          some (.ok { controlPort := port % 65536, instanceId })
        | _, _ => none

/-- The loop of `read_child_ready`: what has arrived of the child's standard error and has not
been read as a line, whether it is at its end, and what the loop returned. -/
structure Reader where
  unread : List UInt8
  eof : Bool
  outcome : Option (Except ReadyError ChildSpawnResult)

/-- Bytes arrive, or the end; the loop takes a round in time; its time is over at the beginning of
a round, or while it waits for a line. -/
inductive Input
  | arrive (bytes : List UInt8)
  | close
  | round
  | late
  | timeout

namespace Reader

def start : Reader := ⟨[], false, none⟩

/-- One round of the loop. Without a whole line it waits, unless there is no more to come. -/
def round (parse : List Char → Option Value) (r : Reader) : Reader :=
  match firstLine r.unread with
  | some line =>
    { r with unread := r.unread.drop line.length, outcome := readLine parse line }
  | none =>
    if ¬ r.eof then r
    else if r.unread = [] then { r with outcome := some (.error .notReported) }
    else { r with unread := [], outcome := readLine parse r.unread }

def step (parse : List Char → Option Value) (r : Reader) : Input → Reader
  | .arrive bytes => if r.eof then r else { r with unread := r.unread ++ bytes }
  | .close => { r with eof := true }
  | .round => if r.outcome.isSome then r else r.round parse
  | .late => if r.outcome.isSome then r else { r with outcome := some (.error .notReported) }
  | .timeout =>
    -- a line that is there is read before the time is looked at
    if r.outcome.isSome ∨ r.eof ∨ (firstLine r.unread).isSome then r
    else { r with outcome := some (.error .timedOut) }

def run (parse : List Char → Option Value) (inputs : List Input) : Reader :=
  inputs.foldl (step parse) start

end Reader

/-- What arrives up to the end. -/
def arrived : List Input → List UInt8
  | [] => []
  | .arrive bytes :: inputs => bytes ++ arrived inputs
  | .close :: _ => []
  | .round :: inputs | .late :: inputs | .timeout :: inputs => arrived inputs

/-! ### What the loop has read -/

/-- A round is late, or waits too long. -/
def Input.isLate : Input → Bool
  | .late | .timeout => true
  | .arrive _ | .close | .round => false

variable {parse : List Char → Option Value} {r : Reader} {given : List UInt8} {late : Prop}

/-- The lines that are not read yet are the last of all that come, and those before them say
nothing; the loop ends with the first that says something, or at the end where there is none, or
late. -/
def Reads (parse : List Char → Option Value) (late : Prop) (r : Reader) (given : List UInt8) :
    Prop :=
  ∃ logs, (∀ line ∈ logs, readLine parse line = none) ∧
    match r.outcome with
    | none => ∀ more, (r.eof → more = []) →
      splitLines (given ++ more) = logs ++ splitLines (r.unread ++ more)
    | some result =>
      (∃ line, readLine parse line = some result ∧ ∀ more, (r.eof → more = []) →
        ∃ rest, splitLines (given ++ more) = logs ++ line :: rest) ∨
      (r.eof ∧ splitLines given = logs ∧ ∃ e, result = .error e) ∨ (late ∧ ∃ e, result = .error e)

lemma reads_start : Reads parse late .start [] := ⟨[], by simp, fun _ _ => rfl⟩

lemma Reads.arrive (h : Reads parse late r given) (he : r.eof = false) (bytes : List UInt8) :
    Reads parse late { r with unread := r.unread ++ bytes } (given ++ bytes) := by
  obtain ⟨logs, hlogs, h⟩ := h
  refine ⟨logs, hlogs, ?_⟩
  have hopen {P : Prop} (hp : r.eof = true) : P := by
    rw [he] at hp
    cases hp
  cases hr : r.outcome with
  | none =>
    rw [hr] at h
    intro more _
    rw [List.append_assoc, List.append_assoc]
    exact h (bytes ++ more) fun hp => hopen hp
  | some result =>
    rw [hr] at h
    rcases h with ⟨line, hline, hall⟩ | ⟨hp, -⟩ | hlate
    · refine .inl ⟨line, hline, fun more _ => ?_⟩
      rw [List.append_assoc]
      exact hall (bytes ++ more) fun hp => hopen hp
    · exact hopen hp
    · exact .inr (.inr hlate)

lemma Reads.close (h : Reads parse late r given) :
    Reads parse late { r with eof := true } given := by
  obtain ⟨logs, hlogs, h⟩ := h
  refine ⟨logs, hlogs, ?_⟩
  cases hr : r.outcome with
  | none =>
    rw [hr] at h
    exact fun more hmore => h more fun _ => hmore rfl
  | some result =>
    rw [hr] at h
    rcases h with ⟨line, hline, hall⟩ | ⟨-, hend⟩ | hlate
    · exact .inl ⟨line, hline, fun more hmore => hall more fun _ => hmore rfl⟩
    · exact .inr (.inl ⟨rfl, hend⟩)
    · exact .inr (.inr hlate)

lemma round_line {front rest : List UInt8} (h : r.unread = front ++ lineFeed :: rest)
    (hfront : lineFeed ∉ front) :
    r.round parse =
      { r with unread := rest, outcome := readLine parse (front ++ [lineFeed]) } := by
  have hdrop : (front ++ lineFeed :: rest).drop (front ++ [lineFeed]).length = rest := by
    rw [List.append_cons front lineFeed rest, List.drop_left]
  simp only [Reader.round, h, firstLine_append hfront, hdrop]

lemma round_waits (h : lineFeed ∉ r.unread) (he : r.eof = false) : r.round parse = r := by
  simp [Reader.round, firstLine_eq_none.mpr h, he]

lemma round_end (h : lineFeed ∉ r.unread) (he : r.eof = true) :
    r.round parse =
      if r.unread = [] then { r with outcome := some (.error .notReported) }
      else { r with unread := [], outcome := readLine parse r.unread } := by
  simp [Reader.round, firstLine_eq_none.mpr h, he]

lemma eof_round (r : Reader) : (r.round parse).eof = r.eof := by
  unfold Reader.round
  split
  · rfl
  · split_ifs <;> rfl

/-- What a line that has been read adds. -/
lemma Reads.line {logs : List (List UInt8)} {line unread : List UInt8} {eof : Bool}
    (hlogs : ∀ line ∈ logs, readLine parse line = none)
    (hall : ∀ more, (eof → more = []) →
      splitLines (given ++ more) = logs ++ line :: splitLines (unread ++ more)) :
    Reads parse late ⟨unread, eof, readLine parse line⟩ given := by
  cases hline : readLine parse line with
  | none =>
    refine ⟨logs ++ [line], fun l hl => ?_, fun more hmore => ?_⟩
    · rcases List.mem_append.mp hl with hl | hl
      · exact hlogs l hl
      · exact List.mem_singleton.mp hl ▸ hline
    · rw [hall more hmore, List.append_assoc, List.singleton_append]
  | some result =>
    exact ⟨logs, hlogs, .inl ⟨line, hline, fun more hmore => ⟨_, hall more hmore⟩⟩⟩

lemma Reads.round (h : Reads parse late r given) (hr : r.outcome = none) :
    Reads parse late (r.round parse) given := by
  obtain ⟨unread, eof, outcome⟩ := r
  obtain rfl : outcome = none := hr
  obtain ⟨logs, hlogs, hall⟩ := id h
  cases hfirst : firstLine unread with
  | some line =>
    obtain ⟨front, rest, rfl, hfront, rfl⟩ := firstLine_eq_some hfirst
    rw [round_line rfl hfront]
    refine Reads.line hlogs fun more hmore => ?_
    have hlines := hall more hmore
    rw [List.append_assoc, List.cons_append, splitLines_line hfront] at hlines
    exact hlines
  | none =>
    have hno := firstLine_eq_none.mp hfirst
    cases eof with
    | false =>
      rw [round_waits (r := ⟨unread, false, none⟩) hno rfl]
      exact h
    | true =>
      have hgiven := hall [] fun _ => rfl
      rw [List.append_nil, List.append_nil] at hgiven
      rw [round_end hno rfl]
      split_ifs with hnil
      · obtain rfl : unread = [] := hnil
        refine ⟨logs, hlogs, .inr (.inl ⟨rfl, ?_, _, rfl⟩)⟩
        rw [hgiven]
        exact List.append_nil _
      · refine Reads.line hlogs fun more hmore => ?_
        obtain rfl := hmore rfl
        rw [List.append_nil, hgiven, splitLines_of_not_mem hno hnil]
        rfl

lemma Reads.step (h : Reads parse late r given) (i : Input) (hi : i.isLate → late)
    (harrive : ∀ bytes, i = .arrive bytes → r.eof = false) :
    Reads parse late (r.step parse i) (given ++ arrived [i]) := by
  cases i with
  | arrive bytes =>
    have he := harrive bytes rfl
    have hstep : r.step parse (.arrive bytes) = { r with unread := r.unread ++ bytes } :=
      if_neg (by simp [he])
    rw [hstep, arrived, arrived, List.append_nil]
    exact h.arrive he bytes
  | close =>
    rw [arrived, List.append_nil]
    exact h.close
  | round =>
    simp only [Reader.step, arrived, List.append_nil]
    split_ifs with hr
    · exact h
    · exact h.round (Option.not_isSome_iff_eq_none.mp hr)
  | late =>
    obtain ⟨logs, hlogs, -⟩ := id h
    simp only [Reader.step, arrived, List.append_nil]
    split_ifs
    · exact h
    · exact ⟨logs, hlogs, .inr (.inr ⟨hi rfl, _, rfl⟩)⟩
  | timeout =>
    obtain ⟨logs, hlogs, -⟩ := id h
    simp only [Reader.step, arrived, List.append_nil]
    split_ifs
    · exact h
    · exact ⟨logs, hlogs, .inr (.inr ⟨hi rfl, _, rfl⟩)⟩

lemma findSome_silent {logs : List (List UInt8)} {line : List UInt8}
    {result : Except ReadyError ChildSpawnResult}
    (hlogs : ∀ line ∈ logs, readLine parse line = none) (hline : readLine parse line = some result)
    (rest : List (List UInt8)) :
    (logs ++ line :: rest).findSome? (readLine parse) = some result := by
  rw [List.findSome?_append, List.findSome?_eq_none_iff.mpr hlogs, List.findSome?_cons, hline]
  rfl

/-- The loop ends with the first line that says something, of all that come, unless it is late. -/
lemma Reads.result {later : List UInt8} {result expected : Except ReadyError ChildSpawnResult}
    (h : Reads parse late r given) (hr : r.outcome = some result)
    (hlater : r.eof = true → later = [])
    (hfirst : (splitLines (given ++ later)).findSome? (readLine parse) = some expected) :
    result = expected ∨ late ∧ ∃ e, result = .error e := by
  obtain ⟨logs, hlogs, h⟩ := h
  rw [hr] at h
  rcases h with ⟨line, hline, hall⟩ | ⟨he, hend, -⟩ | hlate
  · obtain ⟨rest, hrest⟩ := hall later hlater
    rw [hrest, findSome_silent hlogs hline] at hfirst
    exact .inl (Option.some.inj hfirst)
  · rw [hlater he, List.append_nil, hend, List.findSome?_eq_none_iff.mpr hlogs] at hfirst
    cases hfirst
  · exact .inr hlate

lemma Reads.unread_le (h : Reads parse late r given) (hr : r.outcome = none) :
    (splitLines r.unread).length ≤ (splitLines given).length := by
  obtain ⟨logs, -, h⟩ := h
  rw [hr] at h
  have hall := h [] fun _ => rfl
  rw [List.append_nil, List.append_nil] at hall
  rw [hall, List.length_append]
  omega

/-- What is read while the loop waits says nothing. -/
lemma Reads.silent {line : List UInt8} (h : Reads parse late r given) (hr : r.outcome = none)
    (hwait : lineFeed ∉ r.unread) (hmem : line ∈ splitLines given) (hline : lineFeed ∈ line) :
    readLine parse line = none := by
  obtain ⟨logs, hlogs, h⟩ := h
  rw [hr] at h
  have hall := h [] fun _ => rfl
  rw [List.append_nil, List.append_nil] at hall
  rw [hall, List.mem_append] at hmem
  rcases hmem with hmem | hmem
  · exact hlogs line hmem
  · have hne : r.unread ≠ [] := by
      intro hnil
      rw [hnil] at hmem
      cases hmem
    rw [splitLines_of_not_mem hwait hne, List.mem_singleton] at hmem
    exact absurd (hmem ▸ hline) hwait

/-! ### Runs -/

lemma eof_step (r : Reader) (i : Input) :
    (r.step parse i).eof = true ↔ r.eof = true ∨ i = .close := by
  cases i with
  | arrive bytes =>
    simp only [Reader.step]
    split_ifs <;> simp_all
  | close => simp [Reader.step]
  | round =>
    simp only [Reader.step]
    split_ifs <;> simp [eof_round]
  | late =>
    simp only [Reader.step]
    split_ifs <;> simp
  | timeout =>
    simp only [Reader.step]
    split_ifs <;> simp

/-- After the end nothing arrives. -/
lemma reads_closed (inputs : List Input) (h : Reads parse late r given) (he : r.eof = true)
    (hlate : ∀ i ∈ inputs, i.isLate → late) :
    Reads parse late (inputs.foldl (Reader.step parse) r) given := by
  induction inputs generalizing r with
  | nil => exact h
  | cons i inputs ih =>
    have hrest : ∀ j ∈ inputs, j.isLate → late := fun j hj => hlate j (List.mem_cons_of_mem _ hj)
    have hstep : Reads parse late (r.step parse i) given := by
      by_cases harrive : ∃ bytes, i = .arrive bytes
      · obtain ⟨bytes, rfl⟩ := harrive
        have hsame : r.step parse (.arrive bytes) = r := if_pos he
        rw [hsame]
        exact h
      · have hnone : arrived [i] = [] := by
          cases i with
          | arrive bytes => exact absurd ⟨bytes, rfl⟩ harrive
          | close | round | late | timeout => rfl
        have h' := h.step i (hlate i List.mem_cons_self) fun bytes hi => absurd ⟨bytes, hi⟩ harrive
        rwa [hnone, List.append_nil] at h'
    exact ih hstep ((eof_step r i).mpr (.inl he)) hrest

lemma reads_open (inputs : List Input) (h : Reads parse late r given) (he : r.eof = false)
    (hlate : ∀ i ∈ inputs, i.isLate → late) :
    Reads parse late (inputs.foldl (Reader.step parse) r) (given ++ arrived inputs) := by
  induction inputs generalizing r given with
  | nil =>
    rw [arrived, List.append_nil]
    exact h
  | cons i inputs ih =>
    have hrest : ∀ j ∈ inputs, j.isLate → late := fun j hj => hlate j (List.mem_cons_of_mem _ hj)
    have hstep := h.step i (hlate i List.mem_cons_self) fun _ _ => he
    have hopen : i ≠ .close → (r.step parse i).eof = false := by
      intro hi
      rw [Bool.eq_false_iff, ne_eq, eof_step, not_or]
      exact ⟨by simp [he], hi⟩
    cases i with
    | arrive bytes =>
      have h' := ih hstep (hopen (by simp)) hrest
      simpa [arrived] using h'
    | close =>
      have h' := reads_closed inputs hstep ((eof_step r .close).mpr (.inr rfl)) hrest
      simpa [arrived] using h'
    | round | late | timeout =>
      have h' := ih hstep (hopen (by simp)) hrest
      simpa [arrived] using h'

/-- **What a run has read** of what arrived in it. -/
theorem reads_run (parse : List Char → Option Value) (inputs : List Input) :
    Reads parse (∃ i ∈ inputs, i.isLate) (Reader.run parse inputs) (arrived inputs) :=
  reads_open inputs reads_start rfl fun i hi hlate => ⟨i, hi, hlate⟩

lemma close_of_eof (inputs : List Input) (r : Reader)
    (he : (inputs.foldl (Reader.step parse) r).eof = true) : r.eof = true ∨ .close ∈ inputs := by
  induction inputs generalizing r with
  | nil => exact .inl he
  | cons i inputs ih =>
    rcases ih _ he with he | hmem
    · rcases (eof_step r i).mp he with he | rfl
      · exact .inl he
      · exact .inr List.mem_cons_self
    · exact .inr (List.mem_cons_of_mem _ hmem)

lemma arrived_rounds (inputs : List Input) (n : ℕ) :
    arrived (inputs ++ List.replicate n .round) = arrived inputs := by
  induction inputs with
  | nil =>
    induction n with
    | zero => rfl
    | succ n ih => exact ih
  | cons i inputs ih => cases i <;> simp [arrived, ih]

/-- A loop that a round leaves as it is stays so. -/
lemma rounds_of_fixed (n : ℕ) (hr : r.step parse .round = r) :
    (List.replicate n .round).foldl (Reader.step parse) r = r := by
  induction n with
  | zero => rfl
  | succ n ih => rw [List.replicate_succ, List.foldl_cons, hr, ih]

lemma outcome_of_rounds (n : ℕ) (r : Reader) (hr : r.outcome.isSome) :
    (List.replicate n .round).foldl (Reader.step parse) r = r := rounds_of_fixed n (if_pos hr)

/-- After enough rounds the loop has ended, or waits for the rest of a line. -/
lemma waits_of_rounds (n : ℕ) (r : Reader) (hn : (splitLines r.unread).length < n)
    (hr : ((List.replicate n .round).foldl (Reader.step parse) r).outcome = none) :
    r.eof = false ∧ lineFeed ∉ ((List.replicate n .round).foldl (Reader.step parse) r).unread := by
  induction n generalizing r with
  | zero => omega
  | succ n ih =>
    rw [List.replicate_succ, List.foldl_cons] at hr ⊢
    -- a reader with an outcome keeps it
    have hnone : r.outcome = none := by
      by_contra hsome
      have hsame : r.step parse .round = r := if_pos (Option.isSome_iff_ne_none.mpr hsome)
      rw [hsame, outcome_of_rounds n r (Option.isSome_iff_ne_none.mpr hsome)] at hr
      exact hsome hr
    have hstep : r.step parse .round = r.round parse := if_neg (by simp [hnone])
    rw [hstep] at hr ⊢
    cases hfirst : firstLine r.unread with
    | some line =>
      -- a whole line is taken: there is one less
      obtain ⟨front, rest, rfl, hfront, hunread⟩ := firstLine_eq_some hfirst
      have hlen : (splitLines rest).length < n := by
        rw [hunread, splitLines_line hfront, List.length_cons] at hn
        omega
      have hrest : (r.round parse).unread = rest := by rw [round_line hunread hfront]
      have h := ih (r.round parse) (hrest ▸ hlen) hr
      rw [eof_round] at h
      exact h
    | none =>
      have hno := firstLine_eq_none.mp hfirst
      cases he : r.eof with
      | false =>
        have hsame : r.step parse .round = r := hstep.trans (round_waits hno he)
        rw [round_waits hno he] at hr ⊢
        rw [rounds_of_fixed n hsame]
        exact ⟨rfl, hno⟩
      | true =>
        -- at the end the rest counts as a line
        rw [round_end hno he] at hr ⊢
        split_ifs at hr ⊢ with hnil
        · rw [outcome_of_rounds n _ rfl] at hr
          cases hr
        · rw [splitLines_of_not_mem hno hnil, List.length_singleton] at hn
          have h := ih _ (by simpa [splitLines] using hn) hr
          rw [he] at h
          exact absurd h.1 (by simp)

/-- What the loop ends with, if it takes more rounds, is the first thing that is said in what
arrives, unless its time is over. -/
lemma result_after_rounds {inputs : List Input} {later : List UInt8}
    {result expected : Except ReadyError ChildSpawnResult}
    (hfirst : (splitLines (arrived inputs ++ later)).findSome? (readLine parse) = some expected)
    (hclose : .close ∈ inputs → later = []) {n : ℕ}
    (hr : (Reader.run parse (inputs ++ List.replicate n .round)).outcome = some result) :
    result = expected ∨ (∃ i ∈ inputs, i.isLate) ∧ ∃ e, result = .error e := by
  have hreads := reads_run parse (inputs ++ List.replicate n .round)
  rw [arrived_rounds] at hreads
  have hlater (he : (Reader.run parse (inputs ++ List.replicate n .round)).eof = true) :
      later = [] := by
    rcases close_of_eof _ _ he with he | hmem
    · cases he
    · refine hclose ((List.mem_append.mp hmem).resolve_right fun hround => ?_)
      cases List.eq_of_mem_replicate hround
  refine (hreads.result hr hlater hfirst).imp_right fun ⟨⟨i, hi, hlate⟩, he⟩ =>
    ⟨⟨i, ?_, hlate⟩, he⟩
  refine (List.mem_append.mp hi).resolve_right fun hround => ?_
  rw [List.eq_of_mem_replicate hround] at hlate
  cases hlate

/-- Where the loop waits after more rounds than lines have arrived, it has read each of them. -/
lemma silent_after_rounds {inputs : List Input} {n : ℕ} {line : List UInt8}
    (hn : (splitLines (arrived inputs)).length < n)
    (hr : (Reader.run parse (inputs ++ List.replicate n .round)).outcome = none)
    (hmem : line ∈ splitLines (arrived inputs)) (hline : lineFeed ∈ line) :
    readLine parse line = none := by
  have hfold : Reader.run parse (inputs ++ List.replicate n .round) =
      (List.replicate n .round).foldl (Reader.step parse) (Reader.run parse inputs) :=
    List.foldl_append
  have hnone : (Reader.run parse inputs).outcome = none := by
    by_contra hsome
    rw [hfold, outcome_of_rounds n _ (Option.isSome_iff_ne_none.mpr hsome)] at hr
    exact hsome hr
  have hunread : (splitLines (Reader.run parse inputs).unread).length < n :=
    ((reads_run parse inputs).unread_le hnone).trans_lt hn
  have hwait := (waits_of_rounds n (Reader.run parse inputs) hunread (hfold ▸ hr)).2
  have hreads := reads_run parse (inputs ++ List.replicate n .round)
  rw [arrived_rounds] at hreads
  exact hreads.silent hr (hfold ▸ hwait) hmem hline

/-! ### The child -/

/-- What a child writes of where it listens, and a line feed. -/
def readyText (controlPort : UInt16) (instanceId : String) : List Char :=
  '\x7b' :: ("\"controlPort\":".toList ++ Nat.toDigits 10 controlPort.toNat ++
    ",\"instanceId\":\"".toList ++ instanceId.toList ++ ['"'] ++ ['\x7d'])

def readyLine (controlPort : UInt16) (instanceId : String) : List UInt8 :=
  Utf8.encode (readyText controlPort instanceId ++ ['\n'])

/-- A line of a child's log: it says nothing of a child. -/
structure LogLine (parse : List Char → Option Value) (line : List UInt8) : Prop where
  whole : ∃ front, line = front ++ [lineFeed] ∧ lineFeed ∉ front
  silent : readLine parse line = none

variable {port : UInt16} {instanceId : String}

lemma trim_readyText : trim (readyText port instanceId ++ ['\n']) = readyText port instanceId := by
  have hend : ∀ c ∈ ['\n'], isWhitespace c := by simp [isWhitespace]
  have hopening : ¬ isWhitespace '\x7b' := by decide
  have hclosing : ¬ isWhitespace '\x7d' := by decide
  rw [readyText, trim, List.cons_append, List.dropWhile_cons_of_neg hopening, ← List.cons_append,
    rdropWhile_append_pos hend, ← List.cons_append]
  exact List.rdropWhile_concat_neg _ _ _ hclosing

lemma lineFeed_notMem_readyText (hid : '\n' ∉ instanceId.toList) :
    lineFeed ∉ Utf8.encode (readyText port instanceId) := by
  intro hfeed
  have hchar : Char.ofNat lineFeed.toNat = '\n' := by decide
  have hmem := Utf8.mem_of_mem_encode hfeed (by decide)
  rw [hchar, readyText, List.mem_cons] at hmem
  simp only [List.mem_append] at hmem
  rcases hmem with hmem | ((((hmem | hmem) | hmem) | hmem) | hmem) | hmem
  · exact absurd hmem (by decide)
  · exact absurd hmem (by decide)
  · exact absurd (isDigit_of_mem hmem) (by decide)
  · exact absurd hmem (by decide)
  · exact hid hmem
  · exact absurd hmem (by decide)
  · exact absurd hmem (by decide)

lemma readLine_readyLine
    (hparse : parse (readyText port instanceId) = some (.obj
      [("controlPort", .int port.toNat), ("instanceId", .string instanceId)])) :
    readLine parse (readyLine port instanceId) = some (.ok ⟨port.toNat, instanceId⟩) := by
  have hne : readyText port instanceId ≠ [] := List.cons_ne_nil _ _
  have hlt : port.toNat % 65536 = port.toNat := Nat.mod_eq_of_lt port.toNat_lt
  have hget : ∀ key, (Value.obj [("controlPort", .int port.toNat),
      ("instanceId", .string instanceId)]).get key =
        lookupField key [("controlPort", .int port.toNat), ("instanceId", .string instanceId)] :=
    Value.get_obj (by simp)
  simp only [readLine, readyLine, Utf8.decode_encode, trim_readyText, hne, if_false, hparse, hget]
  simp [lookupField, asU64, Value.asStr, hlt]

/-- The lines of what a child writes. -/
lemma splitLines_child (hid : '\n' ∉ instanceId.toList) {logs : List (List UInt8)}
    (hlogs : ∀ line ∈ logs, LogLine parse line) (rest : List UInt8) :
    splitLines (logs.flatten ++ readyLine port instanceId ++ rest) =
      logs ++ readyLine port instanceId :: splitLines rest := by
  induction logs with
  | nil =>
    have hfeed : Utf8.encode ['\n'] = [lineFeed] := rfl
    rw [List.flatten_nil, List.nil_append, readyLine, Utf8.encode_append, hfeed,
      List.append_assoc, List.singleton_append, splitLines_line (lineFeed_notMem_readyText hid)]
    rfl
  | cons line logs ih =>
    obtain ⟨front, rfl, hfront⟩ := (hlogs line List.mem_cons_self).whole
    have hrest := ih fun l hl => hlogs l (List.mem_cons_of_mem _ hl)
    rw [List.flatten_cons, List.append_assoc, List.append_assoc, List.append_assoc,
      List.singleton_append, splitLines_line hfront, ← List.append_assoc, hrest]
    rfl

lemma findSome_child (hid : '\n' ∉ instanceId.toList)
    (hparse : parse (readyText port instanceId) = some (.obj
      [("controlPort", .int port.toNat), ("instanceId", .string instanceId)]))
    {logs : List (List UInt8)} (hlogs : ∀ line ∈ logs, LogLine parse line) (rest : List UInt8) :
    (splitLines (logs.flatten ++ readyLine port instanceId ++ rest)).findSome? (readLine parse) =
      some (.ok ⟨port.toNat, instanceId⟩) := by
  rw [splitLines_child hid hlogs]
  exact findSome_silent (fun line hl => (hlogs line hl).silent) (readLine_readyLine hparse) _

/-- **A child is found.** A child writes a log, then where it listens, then anything. In whatever
pieces that arrives and whenever the loop takes its rounds, it never comes to another child; it
fails only if its time is over; and once the line has arrived it returns the child's own port and
id after no more rounds than lines have arrived, and one. -/
theorem child_is_found (hid : '\n' ∉ instanceId.toList)
    (hparse : parse (readyText port instanceId) = some (.obj
      [("controlPort", .int port.toNat), ("instanceId", .string instanceId)]))
    {logs : List (List UInt8)} (hlogs : ∀ line ∈ logs, LogLine parse line) (inputs : List Input)
    (later rest : List UInt8)
    (hwritten : arrived inputs ++ later = logs.flatten ++ readyLine port instanceId ++ rest)
    (hclose : .close ∈ inputs → later = []) :
    (∀ result, (Reader.run parse inputs).outcome = some (.ok result) →
      result = ⟨port.toNat, instanceId⟩) ∧
    ((∀ i ∈ inputs, ¬ i.isLate) →
      (∀ e, (Reader.run parse inputs).outcome ≠ some (.error e)) ∧
      (logs.flatten ++ readyLine port instanceId <+: arrived inputs →
        ∀ n, (splitLines (arrived inputs)).length < n →
          (Reader.run parse (inputs ++ List.replicate n .round)).outcome =
            some (.ok ⟨port.toNat, instanceId⟩))) := by
  have hfind : (splitLines (arrived inputs ++ later)).findSome? (readLine parse) =
      some (.ok ⟨port.toNat, instanceId⟩) := by
    rw [hwritten]
    exact findSome_child hid hparse hlogs rest
  have hnow (result : Except ReadyError ChildSpawnResult)
      (hr : (Reader.run parse inputs).outcome = some result) :
      result = .ok ⟨port.toNat, instanceId⟩ ∨
        (∃ i ∈ inputs, i.isLate) ∧ ∃ e, result = .error e := by
    have hr' : (Reader.run parse (inputs ++ List.replicate 0 .round)).outcome = some result := by
      rwa [List.replicate_zero, List.append_nil]
    exact result_after_rounds hfind hclose hr'
  refine ⟨fun result hr => ?_, fun hlate => ⟨fun e hr => ?_, fun hline n hn => ?_⟩⟩
  · rcases hnow _ hr with h | ⟨-, e, h⟩
    · exact Except.ok.inj h
    · cases h
  · rcases hnow _ hr with h | ⟨⟨i, hi, h⟩, -⟩
    · cases h
    · exact hlate i hi h
  · cases hr : (Reader.run parse (inputs ++ List.replicate n .round)).outcome with
    | some result =>
      rcases result_after_rounds hfind hclose hr with h | ⟨⟨i, hi, h⟩, -⟩
      · rw [h]
      · exact absurd h (hlate i hi)
    | none =>
      -- the whole line has arrived, so a loop that waits has read it
      obtain ⟨rest', hrest'⟩ := hline
      have hmem : readyLine port instanceId ∈ splitLines (arrived inputs) := by
        rw [← hrest', splitLines_child hid hlogs]
        exact List.mem_append_right _ List.mem_cons_self
      have hfeed : lineFeed ∈ readyLine port instanceId := by
        rw [readyLine, Utf8.encode_append]
        exact List.mem_append_right _ (by decide)
      have hsilent := silent_after_rounds hn hr hmem hfeed
      rw [readLine_readyLine hparse] at hsilent
      cases hsilent

/-- A parser of one text. -/
def parsesReady (text : List Char) : Option Value :=
  if text = readyText 4711 "child" then
    some (.obj [("controlPort", .int 4711), ("instanceId", .string "child")])
  else none

def startingLine : List UInt8 := Utf8.encode "starting\n".toList

def startingChild : List UInt8 := startingLine ++ readyLine 4711 "child"

theorem child_is_found_twoPieces :
    (Reader.run parsesReady
      ([.arrive (startingChild.take 12), .round, .arrive (startingChild.drop 12)] ++
        List.replicate 3 .round)).outcome = some (.ok ⟨4711, "child"⟩) := by
  have hlog : LogLine parsesReady startingLine :=
    ⟨⟨Utf8.encode "starting".toList, rfl, by decide⟩, by rfl⟩
  have hlogs : ∀ line ∈ [startingLine], LogLine parsesReady line := fun line hl =>
    List.mem_singleton.mp hl ▸ hlog
  have hid : '\n' ∉ "child".toList := by decide
  have harrived : arrived [.arrive (startingChild.take 12), .round,
      .arrive (startingChild.drop 12)] =
        [startingLine].flatten ++ readyLine 4711 "child" := by
    simp only [arrived, List.append_nil, List.take_append_drop, startingChild, List.flatten_cons,
      List.flatten_nil]
  refine ((child_is_found hid (if_pos rfl) hlogs _ [] [] ?_ (by simp)).2
    ?_).2 ?_ 3 ?_
  · rw [harrived]
  · simp [Input.isLate]
  · exact harrived ▸ List.prefix_rfl
  · have h : splitLines ([startingLine].flatten ++ readyLine 4711 "child" ++ []) =
        [startingLine] ++ readyLine 4711 "child" :: splitLines [] := splitLines_child hid hlogs []
    rw [List.append_nil] at h
    rw [harrived, h]
    decide

end DappyCore.ChildReady
