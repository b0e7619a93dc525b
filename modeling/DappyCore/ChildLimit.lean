import DappyCore.Lib.Machine
import DappyCore.ChildSession

/-!
The limit on child sessions: the counter that a request is held against, and the processes that
run. The counter only goes up, so that after enough children have come and gone every request is
declined.
-/

namespace DappyCore.ChildLimit

open Lib.Machine Json Protocol ChildSession

/-- What comes of `spawn`: no process, a process that does not report its port in time and goes
on running, or a child. -/
inductive SpawnOutcome
  | notStarted (err : String)
  | notReady (err : String)
  | ready (result : ChildSpawnResult)

namespace SpawnOutcome

def result : SpawnOutcome → Except String ChildSpawnResult
  | notStarted err | notReady err => .error err
  | ready result => .ok result

def starts : SpawnOutcome → Bool
  | notStarted _ => false
  | notReady _ | ready _ => true

end SpawnOutcome

/-- What a bridge is started with; `toText` is `Value::to_string`. -/
structure Setup where
  config : ChildSessionConfig
  remainingDepth : ℕ
  parent : ParentSessionContext
  toText : Value → String

/-- The counter, the processes that were spawned and have not terminated, and how many were
spawned. The counter is never above `max_children`, so the `u32` does not overflow. -/
structure Children where
  active : ℕ
  live : List ℕ
  spawned : ℕ

inductive Input
  | request (request : Request) (outcome : SpawnOutcome)
  | terminated (process : ℕ)

def start : Children := ⟨0, [], 0⟩

/-- The arguments of a request, if they can be read. -/
def argsOf (request : Request) : Option StartDebuggingArgs :=
  request.arguments.bind StartDebuggingArgs.fromValue

def handle (setup : Setup) (s : Children) (request : Request) (outcome : SpawnOutcome) :
    Message × ℕ :=
  handleStartDebugging setup.toText request setup.config setup.remainingDepth setup.parent
    (fun _ => outcome.result) s.active

/-- The request comes to a plan, for which the spawner is called. -/
def planned (setup : Setup) (s : Children) (request : Request) : Bool :=
  (argsOf request).any fun args =>
    (resolveChildSpawn setup.toText setup.config setup.remainingDepth s.active setup.parent
      args).isOk

def step (setup : Setup) (s : Children) : Input → Children
  | .request request outcome =>
    let active := (handle setup s request outcome).2
    if planned setup s request ∧ outcome.starts then
      { active, live := s.live ++ [s.spawned], spawned := s.spawned + 1 }
    else { s with active }
  | .terminated process => { s with live := s.live.erase process }

/-- The bridge as a machine none of whose steps fails. -/
abbrev machine (setup : Setup) (s : Children) (i : Input) : Result Children Unit :=
  (step setup s i, .ok ())

abbrev steps (setup : Setup) (inputs : List Input) : List (Children × Input) :=
  visits (machine setup) start inputs

/-- The answer says that there are too many children. -/
def saysLimit : Message → Bool
  | .response response => !response.success && response.message = some limitText
  | _ => false

/-- The switch is on and the depth allows children. -/
def Permitted (setup : Setup) : Prop := setup.config.autoSpawn ∧ 0 < setup.remainingDepth

/-- A step declines a request for the limit exactly where as many children are running as are
allowed, and leaves no more running than that. -/
structure Limits (setup : Setup) (s : Children) (i : Input) : Prop where
  declines : Permitted setup → ∀ request outcome, i = .request request outcome →
    (saysLimit (handle setup s request outcome).1 ↔ setup.config.maxChildren ≤ s.live.length)
  bounded : (step setup s i).live.length ≤ setup.config.maxChildren

/-- No rule is for the request, and the profile's text for that is the one for the limit. -/
def SaysSo (setup : Setup) (args : StartDebuggingArgs) : Prop :=
  findRule setup.config setup.parent args = none ∧
    setup.config.profile.unsupportedMessage = some limitText

/-- A child was spawned and reported its port. -/
def becomesReady (setup : Setup) (s : Children) : Input → Bool
  | .request request (.ready _) => planned setup s request
  | _ => false

/-- How many children became ready in a run, whether they run still or not. -/
def ready (setup : Setup) (inputs : List Input) : ℕ :=
  (steps setup inputs).countP fun v => becomesReady setup v.1 v.2

/-- The children after a run. -/
def after (setup : Setup) (inputs : List Input) : Children := inputs.foldl (step setup) start

/-- When a request comes, the children that have become ready so far and those that are running are
both at the limit or both below it. A request that cannot be read comes while fewer are running
than are allowed, and one that the profile declines with that text while as many are. -/
def Agrees (setup : Setup) (ready : ℕ) (live : List ℕ) (i : Input) : Prop :=
  Permitted setup → ∀ request outcome, i = .request request outcome →
    (argsOf request = none → live.length < setup.config.maxChildren) ∧
      ∀ args, argsOf request = some args →
        (SaysSo setup args → setup.config.maxChildren ≤ live.length) ∧
          (¬ SaysSo setup args →
            (setup.config.maxChildren ≤ ready ↔ setup.config.maxChildren ≤ live.length))

/-! ### Texts -/

/-- A text that begins otherwise is not the one for the limit. -/
lemma append_ne_limitText {text : String} {c : Char} (h : text.toList.head? = some c)
    (hc : c ≠ 'm') (rest : String) : text ++ rest ≠ limitText := by
  intro he
  have hl := congrArg (fun s => s.toList.head?) he
  rw [String.toList_append, List.head?_append, h] at hl
  exact hc (Option.some.inj hl)

/-- It does not fail with the text for the limit. -/
def OtherError {α : Type} (x : Except String α) : Prop := x ≠ .error limitText

section OtherError

variable {α β : Type}

lemma otherError_append {text : String} {c : Char} (h : text.toList.head? = some c) (hc : c ≠ 'm')
    (rest : String) : OtherError (.error (text ++ rest) : Except String α) :=
  fun he => append_ne_limitText h hc rest (Except.error.inj he)

lemma otherError_text {text : String} {c : Char} (h : text.toList.head? = some c) (hc : c ≠ 'm') :
    OtherError (.error text : Except String α) := by
  have ht := otherError_append (α := α) h hc ""
  rwa [String.append_empty] at ht

lemma otherError_ok (a : α) : OtherError (.ok a) := by
  intro h
  cases h

lemma OtherError.bind {x : Except String α} {f : α → Except String β} (hx : OtherError x)
    (hf : ∀ a, OtherError (f a)) : OtherError (x >>= f) := by
  cases x with
  | error e => exact fun h => hx (congrArg Except.error (Except.error.inj h))
  | ok a => exact hf a

lemma OtherError.map {x : Except String α} (hx : OtherError x) (f : α → β) :
    OtherError (x.map f) := by
  cases x with
  | error e => exact fun h => hx (congrArg Except.error (Except.error.inj h))
  | ok a => exact otherError_ok _

lemma otherError_mapM {f : α → Except String β} (hf : ∀ a, OtherError (f a)) (l : List α) :
    OtherError (l.mapM f) := by
  induction l with
  | nil => exact otherError_ok _
  | cons a l ih =>
    rw [List.mapM_cons]
    exact (hf a).bind fun b => ih.bind fun bs => otherError_ok _

end OtherError

lemma otherError_resolveTemplateValue (expr : String) (context : Value) :
    OtherError (resolveTemplateValue expr context) := by
  unfold resolveTemplateValue
  split
  · exact otherError_append rfl (by decide) expr
  · split
    · exact otherError_ok _
    · exact otherError_ok _
    · split
      · exact otherError_ok _
      · exact otherError_append rfl (by decide) _

lemma otherError_resolveStringTemplate (toText : Value → String) (template : String)
    (context : Value) : OtherError (resolveStringTemplate toText template context) := by
  have hvalue := otherError_resolveTemplateValue template context
  unfold resolveStringTemplate
  split_ifs
  · split
    · exact otherError_ok _
    · exact otherError_ok _
    · next message h => exact fun he => hvalue (h.trans (congrArg _ (Except.error.inj he)))
  · exact otherError_ok _

mutual

lemma otherError_resolveValueTemplate (context : Value) :
    ∀ value, OtherError (resolveValueTemplate context value)
  | .string expr => by
    rw [resolveValueTemplate]
    split_ifs
    · exact otherError_resolveTemplateValue expr context
    · exact otherError_ok _
  | .object fields => by
    rw [resolveValueTemplate]
    exact (otherError_resolveFieldTemplates context fields []).map _
  | .array items => by
    rw [resolveValueTemplate]
    exact (otherError_resolveItemTemplates context items).map _
  | .null | .bool _ | .number _ => by
    simp only [resolveValueTemplate]
    exact otherError_ok _

lemma otherError_resolveItemTemplates (context : Value) :
    ∀ items, OtherError (resolveItemTemplates context items)
  | [] => by
    rw [resolveItemTemplates]
    exact otherError_ok _
  | item :: items => by
    have hitem := otherError_resolveValueTemplate context item
    rw [resolveItemTemplates]
    split
    · next message h => exact fun he => hitem (h.trans (congrArg _ (Except.error.inj he)))
    · exact (otherError_resolveItemTemplates context items).map _

lemma otherError_resolveFieldTemplates (context : Value) :
    ∀ fields out, OtherError (resolveFieldTemplates context fields out)
  | [], out => by
    rw [resolveFieldTemplates]
    exact otherError_ok _
  | (key, value) :: fields, out => by
    have hvalue := otherError_resolveValueTemplate context value
    rw [resolveFieldTemplates]
    split
    · next message h => exact fun he => hvalue (h.trans (congrArg _ (Except.error.inj he)))
    · exact otherError_resolveFieldTemplates context fields _

end

lemma otherError_resolvePort (template : PortTemplate) (context : Value) :
    OtherError (resolvePort template context) := by
  cases template with
  | number port => exact otherError_ok _
  | template expr =>
    have hvalue := otherError_resolveTemplateValue expr context
    rw [resolvePort]
    split
    · next message h => exact fun he => hvalue (h.trans (congrArg _ (Except.error.inj he)))
    · split
      · exact otherError_ok _
      · rw [String.append_assoc]
        exact otherError_append rfl (by decide) _

lemma otherError_parseHostPort (endpoint : String) : OtherError (parseHostPort endpoint) := by
  unfold parseHostPort
  split
  · exact otherError_append rfl (by decide) endpoint
  · split
    · exact otherError_ok _
    · exact otherError_append rfl (by decide) endpoint

lemma otherError_buildChildBackend (toText : Value → String) (template : ChildBackendTemplate)
    (parent : ParentSessionContext) (context : Value) :
    OtherError (buildChildBackend toText template parent context) := by
  unfold buildChildBackend
  split
  · exact (otherError_resolveStringTemplate _ _ _).bind fun _ =>
      (otherError_mapM (fun _ => otherError_resolveStringTemplate _ _ _) _).bind
        fun _ => otherError_ok _
  · exact (otherError_resolveStringTemplate _ _ _).bind fun _ =>
      (otherError_resolvePort _ _).bind fun _ => otherError_ok _
  · split
    · exact otherError_text rfl (by decide)
    · exact (otherError_parseHostPort _).bind fun _ => otherError_ok _
  · split
    · exact otherError_text rfl (by decide)
    · exact otherError_ok _

lemma otherError_resolveDebugRequest (toText : Value → String) (template : DebugRequestTemplate)
    (context : Value) : OtherError (resolveDebugRequest toText template context) :=
  (otherError_resolveStringTemplate _ _ _).bind fun _ =>
    (otherError_resolveValueTemplate _ _).bind fun _ => otherError_ok _

/-- **The profile says so itself** where no rule is for the request and that is its text. -/
theorem planChild_eq_limit {toText : Value → String} {config : ChildSessionConfig} {depth : ℕ}
    {parent : ParentSessionContext} {args : StartDebuggingArgs} :
    planChild toText config depth parent args = .error limitText ↔
      findRule config parent args = none ∧
        config.profile.unsupportedMessage = some limitText := by
  unfold planChild
  cases findRule config parent args with
  | none =>
    cases hm : config.profile.unsupportedMessage with
    | none =>
      have hother : OtherError (.error "no matching child-session rule" :
        Except String ChildSpawnPlan) := otherError_text rfl (by decide)
      exact iff_of_false hother (by simp)
    | some text => simp
  | some rule =>
    refine iff_of_false ?_ (by simp)
    exact (otherError_buildChildBackend _ _ _ _).bind fun _ =>
      (otherError_resolveDebugRequest _ _ _).bind fun _ => otherError_ok _

/-! ### Requests -/

variable {setup : Setup} {s : Children} {request : Request} {outcome : SpawnOutcome}

lemma saysLimit_failReverse (text : String) :
    saysLimit (failReverse request text) ↔ text = limitText := by
  simp [saysLimit, failReverse]

/-- **A request is declined for the limit** where its arguments can be read and the counter has
reached the limit, or the profile says so. -/
theorem saysLimit_handle (hp : Permitted setup) :
    saysLimit (handle setup s request outcome).1 ↔ ∃ args, argsOf request = some args ∧
      (setup.config.maxChildren ≤ s.active ∨ SaysSo setup args) := by
  obtain ⟨hauto, hdepth⟩ := hp
  unfold handle handleStartDebugging
  cases ha : request.arguments.bind StartDebuggingArgs.fromValue with
  | none =>
    have hne : "invalid startDebugging arguments" ≠ limitText := by decide
    rw [show argsOf request = none from ha, saysLimit_failReverse]
    exact iff_of_false hne (by simp)
  | some args =>
    rw [show argsOf request = some args from ha]
    simp only [resolveChildSpawn, hauto, not_true_eq_false, if_false, Nat.ne_of_gt hdepth,
      Option.some.injEq, exists_eq_left']
    by_cases hactive : setup.config.maxChildren ≤ s.active
    · -- the counter is at the limit: nothing else is looked at
      rw [if_pos hactive]
      exact iff_of_true ((saysLimit_failReverse _).mpr rfl) (.inl hactive)
    · rw [if_neg hactive]
      have hplan : planChild setup.toText setup.config setup.remainingDepth setup.parent args =
          .error limitText ↔ SaysSo setup args := planChild_eq_limit
      cases hc : planChild setup.toText setup.config setup.remainingDepth setup.parent args with
      | error text =>
        -- planning the child fails, perhaps with a text of the profile's own
        rw [hc, Except.error.injEq] at hplan
        dsimp only
        rw [saysLimit_failReverse, hplan]
        exact (or_iff_right hactive).symm
      | ok plan =>
        -- the child is started, and no text about that is the one for the limit
        rw [hc] at hplan
        have hno : ¬ SaysSo setup args := fun hs => nomatch hplan.mpr hs
        refine iff_of_false ?_ (not_or.mpr ⟨hactive, hno⟩)
        dsimp only
        cases outcome.result with
        | ok result => simp [saysLimit, successReverseResponse]
        | error err =>
          dsimp only
          rw [saysLimit_failReverse]
          exact append_ne_limitText rfl (by decide) err

/-- The spawner is called only where the counter allows it. -/
lemma of_planned (h : planned setup s request) :
    Permitted setup ∧ ∃ args, argsOf request = some args ∧
      s.active < setup.config.maxChildren ∧ ¬ SaysSo setup args := by
  simp only [planned, Option.any_eq_true] at h
  obtain ⟨args, hargs, hok⟩ := h
  cases hplan : resolveChildSpawn setup.toText setup.config setup.remainingDepth s.active
      setup.parent args with
  | error text =>
    rw [hplan] at hok
    cases hok
  | ok plan =>
    obtain ⟨hauto, hdepth, hactive, hplan⟩ := resolveChildSpawn_eq_ok.mp hplan
    refine ⟨⟨hauto, hdepth⟩, args, hargs, hactive, fun hs => ?_⟩
    rw [planChild_eq_limit.mpr hs] at hplan
    cases hplan

/-- **One request** is declined for the limit exactly as it should be where counter and children
agree about it. -/
lemma declines_iff (hp : Permitted setup) :
    (saysLimit (handle setup s request outcome).1 ↔
      setup.config.maxChildren ≤ s.live.length) ↔
      (argsOf request = none → s.live.length < setup.config.maxChildren) ∧
        ∀ args, argsOf request = some args →
          (SaysSo setup args → setup.config.maxChildren ≤ s.live.length) ∧
            (¬ SaysSo setup args →
              (setup.config.maxChildren ≤ s.active ↔
                setup.config.maxChildren ≤ s.live.length)) := by
  rw [saysLimit_handle hp]
  cases argsOf request with
  | none => simp
  | some args =>
    by_cases hs : SaysSo setup args
    · simp [hs]
    · simp [hs]

/-- **One step** limits the children exactly where counter and children agree. -/
theorem limits_iff (hlive : s.live.length ≤ setup.config.maxChildren) (i : Input) :
    Limits setup s i ↔ Agrees setup s.active s.live i := by
  constructor
  · intro h hp request outcome hi
    exact (declines_iff hp).mp (h.declines hp request outcome hi)
  · intro h
    refine ⟨fun hp request outcome hi => (declines_iff hp).mpr (h hp request outcome hi), ?_⟩
    match i with
    | .terminated process => exact Nat.le_trans (List.length_erase_le) hlive
    | .request request outcome =>
      rw [step]
      split_ifs with hs
      · obtain ⟨hp, args, hargs, hactive, hno⟩ := of_planned hs.1
        have hiff := ((h hp request outcome rfl).2 args hargs).2 hno
        rw [List.length_append, List.length_singleton]
        omega
      · exact hlive

/-- The limit is on the children that are running, in every step of a run. -/
def LimitCountsLive (setup : Setup) (inputs : List Input) : Prop :=
  ∀ v ∈ steps setup inputs, Limits setup v.1 v.2

/-! ### The counter -/

/-- **The counter** goes up with every child, and never down. -/
theorem active_step (setup : Setup) (s : Children) (i : Input) :
    (step setup s i).active = s.active + if becomesReady setup s i then 1 else 0 := by
  match i with
  | .terminated process => rfl
  | .request request outcome =>
    -- a request moves the counter, and nothing else does
    have hcounter : (step setup s (.request request outcome)).active =
        (handle setup s request outcome).2 := by
      rw [step]
      split_ifs <;> rfl
    rw [hcounter]
    unfold handle handleStartDebugging
    cases ha : request.arguments.bind StartDebuggingArgs.fromValue with
    | none =>
      have hno : becomesReady setup s (.request request outcome) = false := by
        cases outcome <;> simp [becomesReady, planned, argsOf, ha]
      rw [hno]
      rfl
    | some args =>
      cases hr : resolveChildSpawn setup.toText setup.config setup.remainingDepth s.active
          setup.parent args with
      | error text =>
        have hno : becomesReady setup s (.request request outcome) = false := by
          cases outcome <;>
            simp [becomesReady, planned, argsOf, ha, hr, Except.isOk, Except.toBool]
        rw [hno]
        simp only [hr]
        rfl
      | ok plan =>
        simp only [hr]
        cases outcome <;>
          simp [becomesReady, planned, argsOf, ha, hr, SpawnOutcome.result, Except.isOk,
            Except.toBool]

lemma run_machine (s : Children) (inputs : List Input) :
    run (machine setup) s inputs = (inputs.foldl (step setup) s, .ok ()) := by
  induction inputs generalizing s with
  | nil => rfl
  | cons i is ih =>
    have hstep : machine setup s i = (step setup s i, .ok ()) := rfl
    rw [run_cons_ok hstep, ih, List.foldl_cons]

/-- So the counter is the number of children that have become ready. -/
lemma active_after (s : Children) (inputs : List Input) :
    (inputs.foldl (step setup) s).active =
      s.active + (visits (machine setup) s inputs).countP fun v => becomesReady setup v.1 v.2 := by
  induction inputs generalizing s with
  | nil => rfl
  | cons i is ih =>
    have hstep : machine setup s i = (step setup s i, .ok ()) := rfl
    rw [List.foldl_cons, ih, active_step, visits_cons_ok hstep, List.countP_cons]
    dsimp only
    omega

/-- **The limit counts the running children** exactly in the runs in which as many have become ready
as are allowed where as many are running, whenever a request comes. -/
theorem limit_counts_live_iff (setup : Setup) (inputs : List Input) :
    LimitCountsLive setup inputs ↔ ∀ done i rest, inputs = done ++ i :: rest →
      Agrees setup (ready setup done) (after setup done).live i := by
  -- step by step, with the counter in the place of the children that became ready
  have hsteps : LimitCountsLive setup inputs ↔
      ∀ v ∈ steps setup inputs, Agrees setup v.1.active v.1.live v.2 := by
    refine forall_visits_congr
      (I := fun s : Children => s.live.length ≤ setup.config.maxChildren) (R := fun _ _ => True)
      (fun s i hs _ => limits_iff hs i) (fun s i t hs _ hq ht => ?_) (Nat.zero_le _)
      (fun _ _ => trivial)
    have hstep : step setup s i = t := congrArg Prod.fst ht
    exact hstep ▸ ((limits_iff hs i).mpr hq).bounded
  have hready (done : List Input) : (after setup done).active = ready setup done := by
    rw [after, active_after]
    exact Nat.zero_add _
  rw [hsteps]
  constructor
  · intro h done i rest he
    rw [← hready]
    exact h (after setup done, i) (mem_visits_iff.mpr ⟨done, rest, he, run_machine _ _⟩)
  · rintro h ⟨s, i⟩ hv
    obtain ⟨done, rest, he, hrun⟩ := mem_visits_iff.mp hv
    obtain rfl : after setup done = s := congrArg Prod.fst ((run_machine _ _).symm.trans hrun)
    rw [hready]
    exact h done i rest he

/-- One child is allowed; it comes and goes, and then another is asked for. -/
def oneChild : Setup where
  config := { autoSpawn := true, maxChildren := 1, maxDepth := 1, profile := .fakePreset }
  remainingDepth := 1
  parent := { backend := .stdio, adapterCmd := ["fake-adapter"], tcpEndpoint := none }
  toText := fun _ => ""

def startDebugging : Request :=
  ⟨1, "startDebugging", some (.obj [("request", .string "launch"), ("configuration", .obj [])])⟩

theorem child_after_exit_is_declined :
    ¬ LimitCountsLive oneChild [.request startDebugging (.ready ⟨4711, "child"⟩), .terminated 0,
      .request startDebugging (.ready ⟨4712, "child"⟩)] := by
  intro h
  have hlimits := h ⟨⟨1, [], 1⟩, .request startDebugging (.ready ⟨4712, "child"⟩)⟩
    (.tail _ (.tail _ (.head _)))
  have hdeclines := hlimits.declines ⟨rfl, Nat.one_pos⟩ startDebugging _ rfl
  have hlive : 1 ≤ 0 := hdeclines.mp rfl
  omega

end DappyCore.ChildLimit
