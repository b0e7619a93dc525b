import DappyCore.SessionInit

/-!
When a session's start comes through, said about what the connection brings: what each call of
the sequences waits for, and the responses that it hears.
-/

namespace DappyCore.Control

open Lib Lib.Effect Lib.Inbox Json Protocol Transport Execution Plugin

variable {c d : ControlClient} {env : Environment} {ctx : TemplateContext} {request : String}
  {arguments : Value}

theorem withContext_eq_ok {α : Type} {text : String} {x : Client α} {a : α} :
    withContext text x c = .ok a d ↔ x c = .ok a d := by
  rw [withContext]
  cases x c with
  | ok b u => rfl
  | error stop u => cases stop <;> simp

theorem ofExcept_eq_ok {α : Type} {x : Except Error α} {a : α} :
    ofExcept x c = .ok a d ↔ x = .ok a ∧ d = c := by
  cases x with
  | error e => simp [ofExcept, bail]
  | ok b => simp [ofExcept, eq_comm]

/-- The client after it wrote a request and put aside what it read until something came. -/
def ControlClient.asked (c : ControlClient) (command : String) (arguments : Option Value)
    (l : List Message) (rest : Wire) : ControlClient :=
  { c.sent command arguments with inbox := c.inbox.passed l rest }

/-- A response, and the command it was awaited for. -/
abbrev Heard := String × Message

/-! ### The default order -/

/-- The connection carries the default sequence through, and these responses are heard. -/
def DefaultCarries (request : String) (arguments : Value) (c : ControlClient)
    (heard : List Heard) (d : ControlClient) : Prop :=
  ∃ l m rest x u l' m' rest', Answers c l m rest ∧
    Finds (eventNamed "initialized") (Brings (eventNamed "initialized"))
      (c.asked request (some arguments) l rest) x u ∧
    Answers u l' m' rest' ∧ heard = [(request, m), ("configurationDone", m')] ∧
    d = u.asked "configurationDone" (some (.obj [])) l' rest'

theorem runDefaultInitSequence_eq_ok :
    runDefaultInitSequence request arguments c = .ok () d ↔
      ∃ heard, DefaultCarries request arguments c heard d := by
  simp only [runDefaultInitSequence, readUntilEvent, bind_eq_ok, withContext_eq_ok, pure_apply,
    dapRequestPreserveEvents_eq_ok, waitForEvent_eq_ok (show 30 ≠ 0 by omega)]
  constructor
  · rintro ⟨_, _, ⟨l, m, rest, ha, rfl, rfl⟩, x, u, hx, _, _, ⟨l', m', rest', ha', rfl, rfl⟩, h⟩
    obtain ⟨-, rfl⟩ := EStateM.Result.ok.inj h
    exact ⟨_, l, m, rest, x, u, l', m', rest', ha, hx, ha', rfl, rfl⟩
  · rintro ⟨heard, l, m, rest, x, u, l', m', rest', ha, hx, ha', -, rfl⟩
    exact ⟨_, _, ⟨l, m, rest, ha, rfl, rfl⟩, x, u, hx, _, _, ⟨l', m', rest', ha', rfl, rfl⟩, rfl⟩

/-! ### The steps of a manifest -/

/-- The entry that a step records is resolved. -/
def Records (env : Environment) (ctx : TemplateContext) (step : InitStep) : Prop :=
  ∀ record, step.recordEntry = some record →
    ∃ location, resolveEntryLocation env ctx record = .ok location

/-- The connection carries a step through, and these responses are heard. -/
inductive StepCarries (env : Environment) (ctx : TemplateContext) (request : String)
    (arguments : Value) (step : InitStep) (c : ControlClient) :
    List Heard → ControlClient → Prop
  | nothing (hr : step.request = none) (hw : step.waitForResponse = none) :
    StepCarries env ctx request arguments step c [] c
  | awaited (waitFor : String) (x : Received) (d : ControlClient) (hr : step.request = none)
      (hw : step.waitForResponse = some waitFor)
      (hx : Finds (responseMatchesCommand waitFor) (Reaches (responseMatchesCommand waitFor))
        c x d) :
    StepCarries env ctx request arguments step c [(waitFor, x.1)] d
  | event (command eventName : String) (l : List Message) (m : Message) (rest : Wire)
      (hr : step.request = some command) (he : step.waitForEvent = some eventName)
      (ha : c.accepts c.seq = .ok ()) (hb : Brings (eventNamed eventName) c.inbox.arrivals l m rest)
      (hrec : Records env ctx step) (hw : step.waitForResponse ≠ some command) :
    StepCarries env ctx request arguments step c []
      (c.asked command (stepArguments env ctx step request arguments) l rest)
  | eventAnswered (command eventName : String) (l : List Message) (m : Message) (rest : Wire)
      (x : Received) (d : ControlClient)
      (hr : step.request = some command) (he : step.waitForEvent = some eventName)
      (ha : c.accepts c.seq = .ok ()) (hb : Brings (eventNamed eventName) c.inbox.arrivals l m rest)
      (hrec : Records env ctx step) (hw : step.waitForResponse = some command)
      (hx : Finds (responseMatchesSeq c.seq) (Reaches (responseMatchesSeq c.seq))
        (c.asked command (stepArguments env ctx step request arguments) l rest) x d) :
    StepCarries env ctx request arguments step c [(command, x.1)] d
  | answered (command : String) (l : List Message) (m : Message) (rest : Wire)
      (hr : step.request = some command) (he : step.waitForEvent = none)
      (ha : Answers c l m rest) (hrec : Records env ctx step) (hw : step.waitForResponse = none) :
    StepCarries env ctx request arguments step c [(command, m)]
      (c.asked command (stepArguments env ctx step request arguments) l rest)
  | answeredAwaited (command waitFor : String) (l : List Message) (m : Message) (rest : Wire)
      (x : Received) (d : ControlClient)
      (hr : step.request = some command) (he : step.waitForEvent = none)
      (ha : Answers c l m rest) (hrec : Records env ctx step)
      (hw : step.waitForResponse = some waitFor)
      (hx : Finds (responseMatchesCommand waitFor) (Reaches (responseMatchesCommand waitFor))
        (c.asked command (stepArguments env ctx step request arguments) l rest) x d) :
    StepCarries env ctx request arguments step c [(command, m), (waitFor, x.1)] d

/-- The connection carries these steps through, one after the other. -/
inductive StepsCarry (env : Environment) (ctx : TemplateContext) (request : String)
    (arguments : Value) : List InitStep → ControlClient → List Heard → ControlClient → Prop
  | nil (c : ControlClient) : StepsCarry env ctx request arguments [] c [] c
  | cons (step : InitStep) (steps : List InitStep) (c u d : ControlClient)
      (heard heard' : List Heard) (h : StepCarries env ctx request arguments step c heard u)
      (h' : StepsCarry env ctx request arguments steps u heard' d) :
    StepsCarry env ctx request arguments (step :: steps) c (heard ++ heard') d

variable {step : InitStep} {entry entry' : Option SessionEntryLocation}

lemma exists_recordEntry (h : Records env ctx step) (entry : Option SessionEntryLocation)
    (c : ControlClient) : ∃ entry', recordEntry env ctx step entry c = .ok entry' c := by
  unfold recordEntry
  cases hr : step.recordEntry with
  | none => exact ⟨entry, rfl⟩
  | some record =>
    obtain ⟨location, hl⟩ := h record hr
    exact ⟨some location, bind_eq_ok.mpr ⟨location, c, ofExcept_eq_ok.mpr ⟨hl, rfl⟩, rfl⟩⟩

lemma records_of_recordEntry (h : recordEntry env ctx step entry c = .ok entry' d) :
    Records env ctx step ∧ d = c := by
  unfold recordEntry at h
  unfold Records
  cases hr : step.recordEntry with
  | none =>
    rw [hr] at h
    obtain ⟨-, rfl⟩ := EStateM.Result.ok.inj h
    exact ⟨nofun, rfl⟩
  | some record =>
    simp only [hr] at h
    obtain ⟨location, u, hu, hp⟩ := bind_eq_ok.mp h
    obtain ⟨hl, rfl⟩ := ofExcept_eq_ok.mp hu
    obtain ⟨-, rfl⟩ := EStateM.Result.ok.inj hp
    refine ⟨fun record' he => ?_, rfl⟩
    obtain rfl := Option.some.inj he
    exact ⟨location, hl⟩

lemma awaitNamed_eq_ok {waitFor : String} {x : Received} :
    awaitNamed waitFor c = .ok x d ↔
      Finds (responseMatchesCommand waitFor) (Reaches (responseMatchesCommand waitFor)) c x d := by
  rw [awaitNamed, withContext_eq_ok, waitForResponseNamed, waitForResponse_eq_ok]

lemma ask_eq_ok {text command : String} {arguments : Option Value} {x : Received} :
    withContext text (dapRequestPreserveEvents command arguments) c = .ok x d ↔
      ∃ l m rest, Answers c l m rest ∧ x = (m, c.inbox.taken + l.length) ∧
        d = c.asked command arguments l rest := by
  rw [withContext_eq_ok, dapRequestPreserveEvents_eq_ok]
  rfl

lemma askForEvent_eq_ok {text command eventName : String} {arguments : Option Value} {seq : ℤ} :
    withContext text (sendDapRequestAndWaitForEvent command arguments eventName) c = .ok seq d ↔
      c.accepts c.seq = .ok () ∧ seq = c.seq ∧ ∃ l m rest,
        Brings (eventNamed eventName) c.inbox.arrivals l m rest ∧
          d = c.asked command arguments l rest := by
  rw [withContext_eq_ok, sendDapRequestAndWaitForEvent, bind_eq_ok]
  constructor
  · rintro ⟨r, u, hr, h⟩
    obtain ⟨ha, l, m, rest, hb, rfl, rfl⟩ := sendDapRequestAndWaitForEventInner_eq_ok.mp hr
    obtain ⟨rfl, rfl⟩ := EStateM.Result.ok.inj h
    exact ⟨ha, rfl, l, m, rest, hb, rfl⟩
  · rintro ⟨ha, rfl, l, m, rest, hb, rfl⟩
    exact ⟨_, _, sendDapRequestAndWaitForEventInner_eq_ok.mpr ⟨ha, l, m, rest, hb, rfl, rfl⟩, rfl⟩

/-- **A step that the connection carries through** comes to a result. -/
theorem StepCarries.runs {heard : List Heard}
    (h : StepCarries env ctx request arguments step c heard d)
    (entry : Option SessionEntryLocation) :
    ∃ entry', runInitStep env ctx request arguments step entry c = .ok entry' d := by
  cases h with
  | nothing hr hw => exact ⟨entry, by simp [runInitStep, hr, hw]⟩
  | awaited waitFor x d hr hw hx =>
    refine ⟨entry, ?_⟩
    simp only [runInitStep, hr, hw]
    exact bind_eq_ok.mpr ⟨x, d, awaitNamed_eq_ok.mpr hx, rfl⟩
  | event command eventName l m rest hr he ha hb hrec hw =>
    obtain ⟨entry', hentry⟩ := exists_recordEntry hrec entry
      (c.asked command (stepArguments env ctx step request arguments) l rest)
    refine ⟨entry', ?_⟩
    simp only [runInitStep, hr, he]
    rw [bind_of_ok (askForEvent_eq_ok.mpr ⟨ha, rfl, l, m, rest, hb, rfl⟩), bind_of_ok hentry,
      if_neg hw, pure_apply]
  | eventAnswered command eventName l m rest x d hr he ha hb hrec hw hx =>
    obtain ⟨entry', hentry⟩ := exists_recordEntry hrec entry
      (c.asked command (stepArguments env ctx step request arguments) l rest)
    refine ⟨entry', ?_⟩
    simp only [runInitStep, hr, he]
    rw [bind_of_ok (askForEvent_eq_ok.mpr ⟨ha, rfl, l, m, rest, hb, rfl⟩), bind_of_ok hentry,
      if_pos hw]
    exact bind_eq_ok.mpr
      ⟨x, d, withContext_eq_ok.mpr (waitForResponse_eq_ok.mpr hx), rfl⟩
  | answered command l m rest hr he ha hrec hw =>
    obtain ⟨entry', hentry⟩ := exists_recordEntry hrec entry
      (c.asked command (stepArguments env ctx step request arguments) l rest)
    refine ⟨entry', ?_⟩
    simp only [runInitStep, hr, he]
    rw [bind_of_ok (ask_eq_ok.mpr ⟨l, m, rest, ha, rfl, rfl⟩), bind_of_ok hentry]
    simp only [hw, pure_apply]
  | answeredAwaited command waitFor l m rest x d hr he ha hrec hw hx =>
    obtain ⟨entry', hentry⟩ := exists_recordEntry hrec entry
      (c.asked command (stepArguments env ctx step request arguments) l rest)
    refine ⟨entry', ?_⟩
    simp only [runInitStep, hr, he]
    rw [bind_of_ok (ask_eq_ok.mpr ⟨l, m, rest, ha, rfl, rfl⟩), bind_of_ok hentry]
    simp only [hw]
    exact bind_eq_ok.mpr ⟨x, d, awaitNamed_eq_ok.mpr hx, rfl⟩

/-- **A step that comes to a result** is carried through by the connection. -/
theorem stepCarries_of_run
    (h : runInitStep env ctx request arguments step entry c = .ok entry' d) :
    ∃ heard, StepCarries env ctx request arguments step c heard d := by
  cases hr : step.request with
  | none =>
    -- nothing is sent
    simp only [runInitStep, hr] at h
    cases hw : step.waitForResponse with
    | none =>
      simp only [hw] at h
      obtain ⟨-, rfl⟩ := EStateM.Result.ok.inj h
      exact ⟨[], .nothing hr hw⟩
    | some waitFor =>
      simp only [hw] at h
      obtain ⟨x, u, hx, h⟩ := bind_eq_ok.mp h
      obtain ⟨-, rfl⟩ := EStateM.Result.ok.inj h
      exact ⟨_, .awaited waitFor x _ hr hw (awaitNamed_eq_ok.mp hx)⟩
  | some command =>
    cases he : step.waitForEvent with
    | some eventName =>
      -- the step waits for an event, and may ask for the response after it
      simp only [runInitStep, hr, he] at h
      obtain ⟨seq, u, hu, h⟩ := bind_eq_ok.mp h
      obtain ⟨ha, rfl, l, m, rest, hb, rfl⟩ := askForEvent_eq_ok.mp hu
      obtain ⟨entry', v, hv, h⟩ := bind_eq_ok.mp h
      obtain ⟨hrec, rfl⟩ := records_of_recordEntry hv
      by_cases hw : step.waitForResponse = some command
      · rw [if_pos hw] at h
        obtain ⟨x, v, hx, h⟩ := bind_eq_ok.mp h
        obtain ⟨-, rfl⟩ := EStateM.Result.ok.inj h
        have hx := waitForResponse_eq_ok.mp (withContext_eq_ok.mp hx)
        exact ⟨_, .eventAnswered command eventName l m rest x _ hr he ha hb hrec hw hx⟩
      · rw [if_neg hw] at h
        obtain ⟨-, rfl⟩ := EStateM.Result.ok.inj h
        exact ⟨_, .event command eventName l m rest hr he ha hb hrec hw⟩
    | none =>
      -- the step waits for the response
      simp only [runInitStep, hr, he] at h
      obtain ⟨y, u, hu, h⟩ := bind_eq_ok.mp h
      obtain ⟨l, m, rest, ha, rfl, rfl⟩ := ask_eq_ok.mp hu
      obtain ⟨entry', v, hv, h⟩ := bind_eq_ok.mp h
      obtain ⟨hrec, rfl⟩ := records_of_recordEntry hv
      cases hw : step.waitForResponse with
      | none =>
        simp only [hw] at h
        obtain ⟨-, rfl⟩ := EStateM.Result.ok.inj h
        exact ⟨_, .answered command l m rest hr he ha hrec hw⟩
      | some waitFor =>
        simp only [hw] at h
        obtain ⟨x, v, hx, h⟩ := bind_eq_ok.mp h
        obtain ⟨-, rfl⟩ := EStateM.Result.ok.inj h
        exact ⟨_, .answeredAwaited command waitFor l m rest x _ hr he ha hrec hw
          (awaitNamed_eq_ok.mp hx)⟩

/-- **The steps come to a result** exactly when the connection carries them through. -/
theorem runInitSteps_eq_ok {steps : List InitStep} {entry : Option SessionEntryLocation} :
    (∃ entry', runInitSteps env ctx request arguments steps entry c = .ok entry' d) ↔
      ∃ heard, StepsCarry env ctx request arguments steps c heard d := by
  induction steps generalizing c entry with
  | nil =>
    constructor
    · rintro ⟨entry', h⟩
      obtain ⟨-, rfl⟩ := EStateM.Result.ok.inj h
      exact ⟨[], .nil c⟩
    · rintro ⟨heard, h⟩
      cases h
      exact ⟨entry, rfl⟩
  | cons step steps ih =>
    constructor
    · rintro ⟨entry', h⟩
      obtain ⟨entry₁, u, hu, h⟩ := bind_eq_ok.mp h
      obtain ⟨heard, hs⟩ := stepCarries_of_run hu
      obtain ⟨heard', hs'⟩ := ih.mp ⟨_, h⟩
      exact ⟨_, .cons step steps c u d heard heard' hs hs'⟩
    · rintro ⟨_, h⟩
      cases h with
      | cons _ _ _ u _ heard heard' hs hs' =>
        obtain ⟨entry₁, hu⟩ := hs.runs entry
        obtain ⟨entry', h⟩ := ih.mpr ⟨heard', hs'⟩
        exact ⟨entry', bind_eq_ok.mpr ⟨entry₁, u, hu, h⟩⟩

/-! ### The whole start -/

/-- The connection carries the sequence between `initialize` and the stop through. -/
def SequenceCarries (env : Environment) (config : SessionInitConfig) (request : String)
    (arguments : Value) (c : ControlClient) (heard : List Heard) (d : ControlClient) : Prop :=
  match config.manifest with
  | some manifest =>
    if manifest.initSteps.isEmpty then DefaultCarries request arguments c heard d
    else StepsCarry env (manifest.templateContext env config.program) request arguments
      manifest.initSteps c heard d
  | none => DefaultCarries request arguments c heard d

lemma exists_runDefault :
    (∃ entry : Option SessionEntryLocation, (do
        runDefaultInitSequence request arguments
        return none : Client (Option SessionEntryLocation)) c = .ok entry d) ↔
      ∃ heard, DefaultCarries request arguments c heard d := by
  constructor
  · rintro ⟨entry, h⟩
    obtain ⟨u, v, hv, h⟩ := bind_eq_ok.mp h
    obtain ⟨-, rfl⟩ := EStateM.Result.ok.inj h
    exact runDefaultInitSequence_eq_ok.mp hv
  · intro h
    exact ⟨none, bind_eq_ok.mpr ⟨(), d, runDefaultInitSequence_eq_ok.mpr h, rfl⟩⟩

theorem runInitSequence_eq_ok {config : SessionInitConfig} :
    (∃ entry, runInitSequence env config request arguments c = .ok entry d) ↔
      ∃ heard, SequenceCarries env config request arguments c heard d := by
  unfold runInitSequence SequenceCarries
  cases config.manifest with
  | none => exact exists_runDefault
  | some manifest =>
    by_cases hs : manifest.initSteps.isEmpty
    · simp only [if_pos hs]
      exact exists_runDefault
    · simp only [if_neg hs]
      exact runInitSteps_eq_ok

/-- The connection carries the start of the session through, and these responses are heard. -/
def DebugCarries (env : Environment) (config : SessionInitConfig) (request : String)
    (arguments : Value) (c : ControlClient) (heard : List Heard) (d : ControlClient) : Prop :=
  ∃ l m rest capabilities u heard' x, Answers c l m rest ∧
    AdapterCapabilities.fromInitializeMessage m = .ok capabilities ∧
    SequenceCarries env config request arguments
      { c.asked "initialize" (some (buildInitializeArguments env config)) l rest with
        capabilities } heard' u ∧
    Finds (eventNamed "stopped") (Brings (eventNamed "stopped")) u x d ∧
    heard = ("initialize", m) :: heard'

/-- **A session's start comes to a result** exactly when the connection carries it through. -/
theorem runDebugRequest_eq_ok {config : SessionInitConfig} :
    (∃ result, runDebugRequest env config request arguments c = .ok result d) ↔
      ∃ heard, DebugCarries env config request arguments c heard d := by
  constructor
  · rintro ⟨result, h⟩
    obtain ⟨y, u, hy, h⟩ := bind_eq_ok.mp h
    obtain ⟨l, m, rest, ha, rfl, rfl⟩ := ask_eq_ok.mp hy
    obtain ⟨capabilities, v, hc, h⟩ := bind_eq_ok.mp h
    obtain ⟨hcaps, hv⟩ := ofExcept_eq_ok.mp hc
    rw [hv] at h
    obtain ⟨_, v, hset, h⟩ := bind_eq_ok.mp h
    obtain ⟨-, rfl⟩ := EStateM.Result.ok.inj hset
    obtain ⟨entry, v, hseq, h⟩ := bind_eq_ok.mp h
    obtain ⟨heard, hheard⟩ := runInitSequence_eq_ok.mp ⟨entry, hseq⟩
    obtain ⟨x, w, hx, h⟩ := bind_eq_ok.mp h
    have hx := (waitForEvent_eq_ok (by omega)).mp (withContext_eq_ok.mp hx)
    obtain ⟨-, rfl⟩ := EStateM.Result.ok.inj h
    exact ⟨_, l, m, rest, capabilities, v, heard, x, ha, hcaps, hheard, hx, rfl⟩
  · rintro ⟨_, l, m, rest, capabilities, u, heard, x, ha, hcaps, hheard, hx, rfl⟩
    obtain ⟨entry, hseq⟩ := runInitSequence_eq_ok.mpr ⟨heard, hheard⟩
    refine ⟨initResult capabilities entry x.1, ?_⟩
    refine bind_eq_ok.mpr ⟨_, _, ask_eq_ok.mpr ⟨l, m, rest, ha, rfl, rfl⟩, ?_⟩
    refine bind_eq_ok.mpr ⟨_, _, ofExcept_eq_ok.mpr ⟨hcaps, rfl⟩, ?_⟩
    refine bind_eq_ok.mpr ⟨(), _, rfl, bind_eq_ok.mpr ⟨entry, u, hseq, ?_⟩⟩
    refine bind_eq_ok.mpr ⟨x, d, withContext_eq_ok.mpr ?_, rfl⟩
    exact (waitForEvent_eq_ok (by omega)).mpr hx

end DappyCore.Control
