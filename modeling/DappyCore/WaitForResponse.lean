import DappyCore.InitAgreement

/-!
The responses that the steps of a manifest wait for. A step has a request or none, and with a
request an event to wait for or none; which of the client's waits it uses, and whether it waits
at all, goes by that.
-/

namespace DappyCore.Control

open Lib Lib.Inbox Json Protocol Transport Plugin

/-! ### What is taken from the connection -/

/-- The messages that were taken between one client and the other. -/
def received (c d : ControlClient) : List Message :=
  (items c.inbox.arrivals).take (d.inbox.taken - c.inbox.taken)

/-- What comes in before the first message that fits. -/
def before (fits : Message → Bool) (wire : Wire) : List Message :=
  (items wire).takeWhile fun m => !fits m

section Received

variable {c₀ c d : ControlClient} {fits : Message → Bool} {l : List Message} {m : Message}
  {rest : Wire}

lemma received_of_took {got : List Received} (h : Took c.inbox d.inbox got) :
    received c d = got.map Prod.fst := by
  have hw := congrArg (List.map Prod.fst) h.wire
  simp only [Inbox.wire, List.zipIdx_map_fst, List.map_append] at hw
  rw [received, hw, h.taken]
  simp

lemma received_of_reaches (h : Reaches fits c.inbox.arrivals l m rest)
    (hd : d.inbox.taken = c.inbox.taken + l.length + 1) : received c d = l ++ [m] := by
  rw [received, hd, items_of_reaches h, List.append_cons]
  exact List.take_left' (by simp; omega)

lemma before_of_reaches (h : Reaches fits c.inbox.arrivals l m rest) :
    before fits c.inbox.arrivals = l := by
  have hl : ∀ x ∈ l, (!fits x) = true := fun x hx => by simp [h.skips x hx]
  rw [before, items_of_reaches h, List.takeWhile_append_of_pos hl]
  simp [h.fits_item]

lemma accounts_of_finds {x : Received} (h : Finds fits (Reaches fits) c x d) :
    Accounts c.inbox d.inbox [x] := by
  rcases h with ⟨hx, rfl⟩ | ⟨-, l, m, rest, hr, rfl, rfl⟩
  · have ha := accounts_pick c.inbox fits
    have hp : (c.inbox.pick fits).1 = some x := hx
    rwa [hp] at ha
  · exact accounts_passed _ hr

/-- A response that was put aside has been taken, if none was there at first. -/
lemma mem_received {out : List Received} {x : Received} {waitFor : String}
    (h : Accounts c₀.inbox c.inbox out)
    (hpending : ∀ y ∈ c₀.inbox.pending, ∀ response, y.1 ≠ .response response)
    (hx : x ∈ c.inbox.pending) (hm : responseMatchesCommand waitFor x.1) :
    x.1 ∈ received c₀ c := by
  obtain ⟨got, ht, -, hsub⟩ := h
  rw [received_of_took ht]
  rcases List.mem_append.mp (hsub.subset hx) with h₀ | hgot
  · cases hr : x.1 with
    | response response => exact absurd hr (hpending x h₀ response)
    | _ => simp [hr, responseMatchesCommand] at hm
  · exact List.mem_map_of_mem hgot

end Received

/-! ### What is asked of a step -/

/-- The steps before this one come to a result, which leaves the client to it. -/
structure Visits (env : Environment) (ctx : TemplateContext) (request : String)
    (arguments : Value) (steps : List InitStep) (c₀ : ControlClient) (done : List InitStep)
    (step : InitStep) (c : ControlClient) : Prop where
  listed : ∃ rest, steps = done ++ step :: rest
  runs : ∃ entry, runInitSteps env ctx request arguments done none c₀ = .ok entry c

/-- The adapter serves the step: its request is accepted and answered, its event comes, and where
there is no event to wait for the response is there in time. -/
structure Served (step : InitStep) (c : ControlClient) : Prop where
  accepted : c.accepts c.seq = .ok ()
  response : ∃ l m rest, Reaches (responseMatchesSeq c.seq) c.inbox.arrivals l m rest
  inTime : step.waitForEvent = none →
    ∃ l m rest, Brings (responseMatchesSeq c.seq) c.inbox.arrivals l m rest
  event : ∀ eventName, step.waitForEvent = some eventName →
    ∃ l m rest, Brings (eventNamed eventName) c.inbox.arrivals l m rest
  fresh : ∀ x ∈ c.inbox.pending, responseMatchesSeq c.seq x.1 = false

/-- The response to the step's request is among the messages, and the event it waits for. -/
def Has (step : InitStep) (seq : ℤ) (l : List Message) : Prop :=
  (∃ m ∈ l, responseMatchesSeq seq m) ∧
    ∀ eventName, step.waitForEvent = some eventName → ∃ m ∈ l, eventNamed eventName m

section Asked

variable (env : Environment) (ctx : TemplateContext) (request : String) (arguments : Value)

/-- The step comes to a result as soon as its response is there, and its event. -/
def Completes (step : InitStep) (c : ControlClient) : Prop :=
  ∀ entry, ∃ entry' d, runInitStep env ctx request arguments step entry c = .ok entry' d ∧
    Has step c.seq (received c d) ∧
    ∀ early, early <+: received c d → Has step c.seq early → early = received c d

/-- The step does not come to a result before a response that names the command. -/
def Awaits (step : InitStep) (c : ControlClient) (waitFor : String) : Prop :=
  ∀ entry entry' d, runInitStep env ctx request arguments step entry c = .ok entry' d →
    ∃ m ∈ received c d, responseMatchesCommand waitFor m

/-- A step before this one has sent the command, and no response has named it since the start. -/
def Unanswered (c₀ : ControlClient) (done : List InitStep) (c : ControlClient)
    (waitFor : String) : Prop :=
  (∃ step ∈ done, step.request = some waitFor) ∧
    ∀ m ∈ received c₀ c, ¬ responseMatchesCommand waitFor m

/-- The step waits for the response that it names, and for that alone if it is its own. An entry
that it cannot record is an error of its own. -/
structure Honours (c₀ : ControlClient) (done : List InitStep) (step : InitStep)
    (c : ControlClient) : Prop where
  own : ∀ command, step.request = some command → step.waitForResponse = some command →
    Records env ctx step → Completes env ctx request arguments step c
  other : ∀ waitFor, step.waitForResponse = some waitFor → step.request ≠ some waitFor →
    Unanswered c₀ done c waitFor → Awaits env ctx request arguments step c waitFor

/-- What the two shapes that do not wait as they should need from the connection: a step that
awaits its own response without an event, another response of that command, left from before; a
step that awaits the response to another command with an event, that response before the event. -/
structure Spared (c₀ : ControlClient) (done : List InitStep) (step : InitStep)
    (c : ControlClient) : Prop where
  own : ∀ command, step.request = some command → step.waitForResponse = some command →
    Records env ctx step → step.waitForEvent = none → ∃ m ∈ c.inbox.pending.map Prod.fst ++
      before (responseMatchesSeq c.seq) c.inbox.arrivals, responseMatchesCommand command m
  other : ∀ command eventName waitFor, step.request = some command →
    step.waitForEvent = some eventName → step.waitForResponse = some waitFor →
    waitFor ≠ command → Records env ctx step → Unanswered c₀ done c waitFor →
      ∃ m ∈ before (eventNamed eventName) c.inbox.arrivals, responseMatchesCommand waitFor m

end Asked

variable {env : Environment} {ctx : TemplateContext} {request : String} {arguments : Value}
  {steps done : List InitStep} {step : InitStep} {c₀ c d : ControlClient}

/-! ### Along a run -/

lemma StepCarries.accounts {heard : List Heard}
    (h : StepCarries env ctx request arguments step c heard d) :
    ∃ out, Accounts c.inbox d.inbox out := by
  cases h with
  | nothing hr hw => exact ⟨[], .refl c.inbox⟩
  | awaited waitFor x d hr hw hx => exact ⟨[x], accounts_of_finds hx⟩
  | event command eventName l m rest hr he ha hb hw => exact ⟨_, accounts_passed _ hb.reaches⟩
  | eventAnswered command eventName l m rest x d hr he ha hb hrec hw hx =>
    exact ⟨_, (accounts_passed _ hb.reaches).trans (accounts_of_finds hx)⟩
  | answered command l m rest hr he ha hrec hw => exact ⟨_, accounts_passed _ ha.2.reaches⟩
  | answeredAwaited command waitFor l m rest x d hr he ha hrec hw hx =>
    exact ⟨_, (accounts_passed _ ha.2.reaches).trans (accounts_of_finds hx)⟩

lemma StepsCarry.accounts {heard : List Heard}
    (h : StepsCarry env ctx request arguments steps c heard d) :
    ∃ out, Accounts c.inbox d.inbox out := by
  induction h with
  | nil c => exact ⟨[], .refl c.inbox⟩
  | cons step steps c u d heard heard' h _ ih =>
    obtain ⟨out, ha⟩ := h.accounts
    obtain ⟨out', ha'⟩ := ih
    exact ⟨_, ha.trans ha'⟩

lemma Visits.accounts (h : Visits env ctx request arguments steps c₀ done step c) :
    ∃ out, Accounts c₀.inbox c.inbox out := by
  obtain ⟨heard, hc⟩ := runInitSteps_eq_ok.mp h.runs
  exact hc.accounts

/-! ### Its own response -/

lemma Has.mono {seq : ℤ} {l l' : List Message} (h : Has step seq l) (hl : l <+: l') :
    Has step seq l' := by
  obtain ⟨⟨m, hm, hseq⟩, hevent⟩ := h
  refine ⟨⟨m, hl.subset hm, hseq⟩, fun eventName he => ?_⟩
  obtain ⟨m', hm', hnamed⟩ := hevent eventName he
  exact ⟨m', hl.subset hm', hnamed⟩

/-- What was taken is no more than was asked for when its last message was missing before. -/
lemma completes_of_last (h : ∀ entry, ∃ entry' d l m,
    runInitStep env ctx request arguments step entry c = .ok entry' d ∧
      received c d = l ++ [m] ∧ Has step c.seq (l ++ [m]) ∧ ¬ Has step c.seq l) :
    Completes env ctx request arguments step c := by
  intro entry
  obtain ⟨entry', d, l, m, hrun, hreceived, hhas, hnot⟩ := h entry
  refine ⟨entry', d, hrun, hreceived ▸ hhas, fun early hprefix hearly => ?_⟩
  rw [hreceived] at hprefix ⊢
  rcases List.prefix_concat_iff.mp hprefix with rfl | hl
  · rfl
  · exact absurd (hearly.mono hl) hnot

/-- No event is a response. -/
lemma not_response_of_eventNamed {eventName : String} {m : Message} (h : eventNamed eventName m) :
    (∀ seq, responseMatchesSeq seq m = false) ∧
      ∀ command, responseMatchesCommand command m = false := by
  cases m with
  | event event => exact ⟨fun _ => rfl, fun _ => rfl⟩
  | _ => simp [eventNamed] at h

/-- Something fits among what was put aside before a request and after it. -/
lemma exists_find_asked (fits : Message → Bool) (c : ControlClient) (command : String)
    (arguments : Option Value) (l : List Message) (rest : Wire) :
    (∃ y, (c.asked command arguments l rest).inbox.pending.find? (fun y => fits y.1) = some y) ↔
      ∃ m ∈ c.inbox.pending.map Prod.fst ++ l, fits m := by
  have hmap : (c.asked command arguments l rest).inbox.pending.map Prod.fst =
      c.inbox.pending.map Prod.fst ++ l := by
    simp [ControlClient.asked, Inbox.passed, List.zipIdx_map_fst]
  rw [← hmap, ← Option.isSome_iff_exists, List.find?_isSome]
  simp

lemma find_asked_eq_none {fits : Message → Bool} {command : String} {arguments : Option Value}
    {l : List Message} {rest : Wire}
    (h : ∀ m ∈ c.inbox.pending.map Prod.fst ++ l, fits m = false) :
    (c.asked command arguments l rest).inbox.pending.find? (fun y => fits y.1) = none := by
  cases hfind : (c.asked command arguments l rest).inbox.pending.find? (fun y => fits y.1) with
  | none => rfl
  | some y =>
    obtain ⟨m, hm, hfits⟩ := (exists_find_asked fits c command arguments l rest).mp ⟨y, hfind⟩
    simp [h m hm] at hfits

/-- What is taken by a request, and by a wait that reads on after it. -/
lemma received_asked_late {fits fits' : Message → Bool} {l l' : List Message} {m m' : Message}
    {rest rest' : Wire} (command : String) (arguments : Option Value)
    (h : Reaches fits c.inbox.arrivals l m rest) (h' : Reaches fits' rest l' m' rest') :
    received c { c.asked command arguments l rest with
      inbox := (c.asked command arguments l rest).inbox.passed l' rest' } =
        (l ++ [m]) ++ (l' ++ [m']) := by
  have ht := (took_passed h).trans (took_passed (b := c.inbox.passed l rest) h')
  rw [received_of_took ht, List.map_append, List.zipIdx_map_fst, List.zipIdx_map_fst]

section WithEvent

variable {command eventName : String} {l : List Message} {e m : Message} {rest rest' : Wire}

lemma exists_event (he : step.waitForEvent = some eventName) (hfits : eventNamed eventName e)
    (hmem : e ∈ l) : ∀ eventName', step.waitForEvent = some eventName' →
      ∃ x ∈ l, eventNamed eventName' x := by
  intro eventName' he'
  obtain rfl := Option.some.inj (he.symm.trans he')
  exact ⟨e, hmem, hfits⟩

/-- The response has been put aside when the event comes. -/
lemma completes_of_put_aside (hr : step.request = some command)
    (he : step.waitForEvent = some eventName) (hw : step.waitForResponse = some command)
    (hrec : Records env ctx step) (haccepts : c.accepts c.seq = .ok ())
    (hb : Brings (eventNamed eventName) c.inbox.arrivals l e rest)
    (hm : m ∈ l) (hseq : responseMatchesSeq c.seq m) :
    Completes env ctx request arguments step c := by
  refine completes_of_last fun entry => ?_
  obtain ⟨y, hy⟩ := (exists_find_asked (responseMatchesSeq c.seq) c command
    (stepArguments env ctx step request arguments) l rest).mpr
    ⟨m, List.mem_append_right _ hm, hseq⟩
  obtain ⟨entry', hrun⟩ := (StepCarries.eventAnswered command eventName l e rest y _ hr he
    haccepts hb hrec hw (.inl ⟨hy, rfl⟩)).runs entry
  refine ⟨entry', _, l, e, hrun, received_of_reaches hb.reaches rfl,
    ⟨⟨m, List.mem_append_left _ hm, hseq⟩, exists_event he hb.fits (by simp)⟩, fun h => ?_⟩
  obtain ⟨x, hx, hnamed⟩ := h.2 eventName he
  simp [hb.skips x hx] at hnamed

/-- The response is still to come when the event has come. -/
lemma completes_of_still_to_come {all : List Message} (hr : step.request = some command)
    (he : step.waitForEvent = some eventName) (hw : step.waitForResponse = some command)
    (hrec : Records env ctx step) (hs : Served step c)
    (hb : Brings (eventNamed eventName) c.inbox.arrivals l e rest)
    (hm : Reaches (responseMatchesSeq c.seq) c.inbox.arrivals all m rest')
    (hl : ∀ x ∈ l, responseMatchesSeq c.seq x = false) :
    Completes env ctx request arguments step c := by
  -- neither what came before the event nor the event is the response
  have hskips : ∀ x ∈ l ++ [e], responseMatchesSeq c.seq x = false := by
    intro x hx
    rcases List.mem_append.mp hx with hx | hx
    · exact hl x hx
    · obtain rfl := List.mem_singleton.mp hx
      exact (not_response_of_eventNamed hb.fits).1 c.seq
  have harrivals : c.inbox.arrivals = (l ++ [e]).map .item ++ rest := by
    rw [hb.arrivals]
    simp
  obtain ⟨late, rfl, hlate⟩ := Reaches.after (harrivals ▸ hm) hskips
  -- nor is it among what was kept
  have hnone : (c.asked command (stepArguments env ctx step request arguments) l
      rest).inbox.pending.find? (fun y => responseMatchesSeq c.seq y.1) = none := by
    refine find_asked_eq_none fun x hx => ?_
    rcases List.mem_append.mp hx with hx | hx
    · obtain ⟨y, hy, rfl⟩ := List.mem_map.mp hx
      exact hs.fresh y hy
    · exact hl x hx
  refine completes_of_last fun entry => ?_
  obtain ⟨entry', hrun⟩ := (StepCarries.eventAnswered command eventName l e rest _ _ hr he
    hs.accepted hb hrec hw (.inr ⟨hnone, late, m, rest', hlate, rfl, rfl⟩)).runs entry
  refine ⟨entry', _, l ++ [e] ++ late, m, hrun, received_of_reaches hm ?_,
    ⟨⟨m, by simp, hm.fits_item⟩, exists_event he hb.fits (by simp)⟩, fun h => ?_⟩
  · simp [ControlClient.asked, Inbox.passed]
    omega
  · obtain ⟨x, hx, hfits⟩ := h.1
    simp [hm.skips x hx] at hfits

/-- **With an event** a step that awaits its own response completes. -/
theorem completes_of_event (hr : step.request = some command)
    (he : step.waitForEvent = some eventName) (hw : step.waitForResponse = some command)
    (hrec : Records env ctx step) (hs : Served step c) :
    Completes env ctx request arguments step c := by
  obtain ⟨l, e, rest, hb⟩ := hs.event eventName he
  obtain ⟨all, m, rest', hm⟩ := hs.response
  by_cases hearly : ∃ x ∈ l, responseMatchesSeq c.seq x
  · obtain ⟨x, hx, hseq⟩ := hearly
    exact completes_of_put_aside hr he hw hrec hs.accepted hb hx hseq
  · refine completes_of_still_to_come hr he hw hrec hs hb hm fun x hx => ?_
    by_contra hseq
    exact hearly ⟨x, hx, by simpa using hseq⟩

end WithEvent

/-- **Without an event** it completes exactly when another response of its command is there: the
wait for the response by name comes after its own response has been taken. -/
theorem completes_without_event_iff {command : String} (hr : step.request = some command)
    (he : step.waitForEvent = none) (hw : step.waitForResponse = some command)
    (hrec : Records env ctx step) (hs : Served step c) :
    Completes env ctx request arguments step c ↔
      ∃ m ∈ c.inbox.pending.map Prod.fst ++ before (responseMatchesSeq c.seq) c.inbox.arrivals,
        responseMatchesCommand command m := by
  obtain ⟨l, m, rest, hb⟩ := hs.inTime he
  have hevent : ∀ k : List Message, ∀ eventName, step.waitForEvent = some eventName →
      ∃ x ∈ k, eventNamed eventName x := by simp [he]
  have hhas : Has step c.seq (l ++ [m]) := ⟨⟨m, by simp, hb.fits⟩, hevent _⟩
  rw [before_of_reaches hb.reaches]
  constructor
  · intro h
    obtain ⟨entry', d, hrun, -, hleast⟩ := h none
    obtain ⟨heard, hc⟩ := stepCarries_of_run hrun
    cases hc with
    | nothing hr' _ => simp [hr] at hr'
    | awaited _ _ _ hr' _ _ => simp [hr] at hr'
    | event _ _ _ _ _ _ he' _ _ _ => simp [he] at he'
    | eventAnswered _ _ _ _ _ _ _ _ he' _ _ _ _ _ => simp [he] at he'
    | answered _ _ _ _ _ _ _ _ hw' => simp [hw] at hw'
    | answeredAwaited command' waitFor l' m' rest' x _ hr' _ ha _ hw' hx =>
      obtain rfl := Option.some.inj (hr.symm.trans hr')
      obtain rfl := Option.some.inj (hw.symm.trans hw')
      obtain ⟨rfl, rfl, rfl⟩ := hb.unique ha.2
      -- the response by name was there already, or it comes later, when all has been received
      rcases hx with ⟨hfind, -⟩ | ⟨-, late, m', rest', hlate, -, rfl⟩
      · exact (exists_find_asked _ c _ _ l rest).mp ⟨x, hfind⟩
      · rw [received_asked_late _ _ hb.reaches hlate] at hleast
        have heq := hleast (l ++ [m]) (List.prefix_append _ _) hhas
        simp at heq
  · -- another response of the command is taken in place of the one to come
    rintro ⟨x, hx, hfits⟩
    refine completes_of_last fun entry => ?_
    obtain ⟨y, hy⟩ := (exists_find_asked (responseMatchesCommand command) c command
      (stepArguments env ctx step request arguments) l rest).mpr ⟨x, hx, hfits⟩
    obtain ⟨entry', hrun⟩ := (StepCarries.answeredAwaited command command l m rest y _ hr he
      ⟨hs.accepted, hb⟩ hrec hw (.inl ⟨hy, rfl⟩)).runs entry
    refine ⟨entry', _, l, m, hrun, received_of_reaches hb.reaches rfl, hhas, fun h => ?_⟩
    obtain ⟨x', hx', hseq⟩ := h.1
    simp [hb.skips x' hx'] at hseq

/-! ### The response to another command -/

/-- Among what was put aside before a request and after it, such a response came after it. -/
lemma mem_of_find_asked {waitFor command : String} {arguments : Option Value} {l : List Message}
    {rest : Wire} {x : Received}
    (hpending : ∀ y ∈ c.inbox.pending, ¬ responseMatchesCommand waitFor y.1)
    (h : (c.asked command arguments l rest).inbox.pending.find?
      (fun y => responseMatchesCommand waitFor y.1) = some x) :
    ∃ m ∈ l, responseMatchesCommand waitFor m := by
  obtain ⟨m, hm, hfits⟩ := (exists_find_asked _ c command arguments l rest).mp ⟨x, h⟩
  rcases List.mem_append.mp hm with hm | hm
  · obtain ⟨y, hy, rfl⟩ := List.mem_map.mp hm
    exact absurd hfits (hpending y hy)
  · exact ⟨m, hm, hfits⟩

/-- **Without an event, or without a request**, a step awaits the response that it names. -/
theorem awaits_without_event {waitFor : String} (hw : step.waitForResponse = some waitFor)
    (he : step.request = none ∨ step.waitForEvent = none)
    (hpending : ∀ y ∈ c.inbox.pending, ¬ responseMatchesCommand waitFor y.1) :
    Awaits env ctx request arguments step c waitFor := by
  intro entry entry' d hrun
  obtain ⟨heard, hc⟩ := stepCarries_of_run hrun
  cases hc with
  | nothing _ hw' => simp [hw] at hw'
  | awaited waitFor' x _ _ hw' hx =>
    obtain rfl := Option.some.inj (hw.symm.trans hw')
    rcases hx with ⟨hfind, -⟩ | ⟨-, l, m, rest, hm, -, rfl⟩
    · have hfits := List.find?_some hfind
      exact absurd hfits (hpending x (List.mem_of_find?_eq_some hfind))
    · rw [received_of_reaches hm rfl]
      exact ⟨m, by simp, hm.fits_item⟩
  | event command eventName l m rest hr he' _ _ _ _ => simp [hr, he'] at he
  | eventAnswered command eventName l m rest x _ hr he' _ _ _ _ _ => simp [hr, he'] at he
  | answered _ _ _ _ _ _ _ _ hw' => simp [hw] at hw'
  | answeredAwaited command waitFor' l m rest x _ _ _ ha _ hw' hx =>
    obtain rfl := Option.some.inj (hw.symm.trans hw')
    rcases hx with ⟨hfind, rfl⟩ | ⟨-, late, m', rest', hlate, -, rfl⟩
    · obtain ⟨y, hy, hfits⟩ := mem_of_find_asked hpending hfind
      rw [received_of_reaches ha.2.reaches rfl]
      exact ⟨y, List.mem_append_left _ hy, hfits⟩
    · rw [received_asked_late _ _ ha.2.reaches hlate]
      exact ⟨m', by simp, hlate.fits_item⟩

/-- **With an event** it goes past as soon as the event comes. -/
theorem awaits_with_event_iff {command eventName waitFor : String}
    (hr : step.request = some command) (he : step.waitForEvent = some eventName)
    (hw : step.waitForResponse = some waitFor) (hne : waitFor ≠ command)
    (hs : Served step c) :
    Awaits env ctx request arguments step c waitFor ↔ (Records env ctx step →
      ∃ m ∈ before (eventNamed eventName) c.inbox.arrivals, responseMatchesCommand waitFor m) := by
  obtain ⟨l, e, rest, hb⟩ := hs.event eventName he
  have hown : step.waitForResponse ≠ some command := by
    rw [hw]
    exact fun h => hne (Option.some.inj h)
  rw [before_of_reaches hb.reaches]
  constructor
  · intro h hrec
    -- the step goes on when the event has come
    have hcarried : StepCarries env ctx request arguments step c []
        (c.asked command (stepArguments env ctx step request arguments) l rest) :=
      .event command eventName l e rest hr he hs.accepted hb hrec hown
    obtain ⟨entry', hrun⟩ := hcarried.runs none
    obtain ⟨m, hm, hfits⟩ := h none entry' _ hrun
    rw [received_of_reaches hb.reaches rfl] at hm
    rcases List.mem_append.mp hm with hm | hm
    · exact ⟨m, hm, hfits⟩
    · obtain rfl := List.mem_singleton.mp hm
      simp [(not_response_of_eventNamed hb.fits).2 waitFor] at hfits
  · intro h entry entry' d hrun
    obtain ⟨heard, hc⟩ := stepCarries_of_run hrun
    -- of the ways to go through, the step has the one with the event
    cases hc with
    | nothing hr' _ => simp [hr] at hr'
    | awaited _ _ _ hr' _ _ => simp [hr] at hr'
    | event _ eventName' l' m' rest' _ he' _ hb' hrec _ =>
      obtain rfl := Option.some.inj (he.symm.trans he')
      obtain ⟨rfl, rfl, rfl⟩ := hb.unique hb'
      obtain ⟨m, hm, hfits⟩ := h hrec
      rw [received_of_reaches hb.reaches rfl]
      exact ⟨m, List.mem_append_left _ hm, hfits⟩
    | eventAnswered command' _ _ _ _ _ _ hr' _ _ _ _ hw' _ =>
      obtain rfl := Option.some.inj (hr.symm.trans hr')
      exact absurd hw' hown
    | answered _ _ _ _ _ he' _ _ _ => simp [he] at he'
    | answeredAwaited _ _ _ _ _ _ _ _ he' _ _ _ _ => simp [he] at he'

/-! ### Every step -/

/-- **One step** that a run comes to. -/
theorem honours_iff (hpending : ∀ x ∈ c₀.inbox.pending, ∀ response, x.1 ≠ .response response)
    (hv : Visits env ctx request arguments steps c₀ done step c)
    (hs : step.request.isSome → Served step c) :
    Honours env ctx request arguments c₀ done step c ↔ Spared env ctx c₀ done step c := by
  obtain ⟨out, hacc⟩ := hv.accounts
  constructor
  · intro h
    refine ⟨fun command hr hw hrec he => ?_,
      fun command eventName waitFor hr he hw hne hrec hun => ?_⟩
    · -- the response of its own request
      exact (completes_without_event_iff hr he hw hrec (hs (by simp [hr]))).mp
        (h.own command hr hw hrec)
    · -- the response of another command
      refine (awaits_with_event_iff hr he hw hne (hs (by simp [hr]))).mp
        (h.other waitFor hw ?_ hun) hrec
      rw [hr]
      exact fun h => hne (Option.some.inj h).symm
  · intro h
    refine ⟨fun command hr hw hrec => ?_, fun waitFor hw hne hun => ?_⟩
    · cases he : step.waitForEvent with
      | none =>
        exact (completes_without_event_iff hr he hw hrec (hs (by simp [hr]))).mpr
          (h.own command hr hw hrec he)
      | some eventName => exact completes_of_event hr he hw hrec (hs (by simp [hr]))
    · have hnone : ∀ y ∈ c.inbox.pending, ¬ responseMatchesCommand waitFor y.1 :=
        fun y hy hfits => hun.2 _ (mem_received hacc hpending hy hfits) hfits
      cases hr : step.request with
      | none => exact awaits_without_event hw (.inl hr) hnone
      | some command =>
        cases he : step.waitForEvent with
        | none => exact awaits_without_event hw (.inr he) hnone
        | some eventName =>
          -- only a step with an event can come before the response
          have hother : waitFor ≠ command := fun h => hne (h ▸ hr)
          exact (awaits_with_event_iff hr he hw hother (hs (by simp [hr]))).mpr fun hrec =>
            h.other command eventName waitFor hr he hw hother hrec hun

lemma runInitSteps_append (steps' : List InitStep) (entry : Option SessionEntryLocation) :
    runInitSteps env ctx request arguments (steps ++ steps') entry = (do
      let entry ← runInitSteps env ctx request arguments steps entry
      runInitSteps env ctx request arguments steps' entry) := by
  induction steps generalizing entry with
  | nil => rfl
  | cons step steps ih =>
    simp only [List.cons_append, runInitSteps, ih, bind_assoc]

/-- **The sequence** goes on at a step that it comes to, and ends with that step if that ends in an
error or waits for ever. -/
theorem Visits.sequence {config : SessionInitConfig} {manifest : PluginManifest}
    (h : Visits env (manifest.templateContext env config.program) request arguments
      manifest.initSteps c₀ done step c) :
    ∃ entry rest, manifest.initSteps = done ++ step :: rest ∧
      runManifestInitSequence env config manifest request arguments c₀ = (do
        let entry ← runInitStep env (manifest.templateContext env config.program) request
          arguments step entry
        runInitSteps env (manifest.templateContext env config.program) request arguments rest
          entry : Client (Option SessionEntryLocation)) c := by
  obtain ⟨rest, hlisted⟩ := h.listed
  obtain ⟨entry, hrun⟩ := h.runs
  refine ⟨entry, rest, hlisted, ?_⟩
  rw [runManifestInitSequence, hlisted, runInitSteps_append, Effect.bind_of_ok hrun]
  rfl

/-- **The responses that the steps name are waited for** in every step of a run exactly when no
step is of the two shapes that do not wait, unless the connection makes up for it. -/
theorem waitForResponse_honoured_iff (env : Environment) (config : SessionInitConfig)
    (manifest : PluginManifest) (request : String) (arguments : Value) (c₀ : ControlClient)
    (hpending : ∀ x ∈ c₀.inbox.pending, ∀ response, x.1 ≠ .response response)
    (hserved : ∀ done step c, Visits env (manifest.templateContext env config.program) request
      arguments manifest.initSteps c₀ done step c → step.request.isSome → Served step c) :
    (∀ done step c, Visits env (manifest.templateContext env config.program) request arguments
        manifest.initSteps c₀ done step c →
      Honours env (manifest.templateContext env config.program) request arguments c₀ done step c) ↔
    ∀ done step c, Visits env (manifest.templateContext env config.program) request arguments
        manifest.initSteps c₀ done step c →
      Spared env (manifest.templateContext env config.program) c₀ done step c := by
  constructor
  · intro h done step c hv
    exact (honours_iff hpending hv (hserved done step c hv)).mp (h done step c hv)
  · intro h done step c hv
    exact (honours_iff hpending hv (hserved done step c hv)).mpr (h done step c hv)

/-- A launch, with its event to wait for. -/
def launchStep : InitStep := ⟨some "launch", true, none, some "initialized", none, none⟩

/-- The end of the configuration, with an event and the response to it. -/
def configuredStep : InitStep :=
  ⟨some "configurationDone", false, none, some "thread", some "configurationDone", none⟩

/-- The response to the launch is awaited last. -/
def launchThenAwait : List InitStep :=
  [launchStep, configuredStep, ⟨none, false, none, none, some "launch", none⟩]

def fakeWith (steps : List InitStep) : PluginManifest :=
  { fakeManifest with init := some ⟨steps⟩ }

def launchResponse : Message := .response ⟨2, 1, true, some "launch", none, none⟩

def configuredResponse : Message := .response ⟨2, 2, true, some "configurationDone", none, none⟩

/-- What comes after `initialized`: the response that the second step awaits is before its event. -/
def launchedInOrder : ControlClient :=
  fromDuplex [.item (.event ⟨1, "initialized", none⟩), .item configuredResponse,
    .item (.event ⟨3, "thread", none⟩), .item launchResponse] fun _ => .ok ()

/-- Only the first step of a run has a request, if that is how they are listed. -/
lemma Visits.first {first : InitStep} {more : List InitStep}
    (h : Visits env ctx request arguments (first :: more) c₀ done step c)
    (hmore : ∀ step ∈ more, step.request = none) (hr : step.request.isSome) :
    step = first ∧ c = c₀ := by
  obtain ⟨⟨rest, hlisted⟩, entry, hrun⟩ := h
  cases done with
  | nil =>
    obtain ⟨hfirst, -⟩ := List.cons.inj hlisted
    exact ⟨hfirst.symm, (EStateM.Result.ok.inj hrun).2.symm⟩
  | cons _ done =>
    obtain ⟨-, rfl⟩ := List.cons.inj hlisted
    simp [hmore step (by simp)] at hr

/-- The client that the second step begins with. -/
def afterLaunch : ControlClient :=
  Effect.stateOf (runInitStep bareEnvironment
    ((fakeWith launchThenAwait).templateContext bareEnvironment "main") "launch" (.obj [])
    launchStep none launchedInOrder)

lemma visits_launchThenAwait (h : Visits bareEnvironment
    ((fakeWith launchThenAwait).templateContext bareEnvironment "main") "launch" (.obj [])
    launchThenAwait launchedInOrder done step c) (hr : step.request.isSome) :
    step = launchStep ∧ c = launchedInOrder ∨ step = configuredStep ∧ c = afterLaunch := by
  obtain ⟨⟨rest, hlisted⟩, entry, hrun⟩ := h
  match done with
  | [] =>
    obtain ⟨hfirst, -⟩ := List.cons.inj hlisted
    exact .inl ⟨hfirst.symm, (EStateM.Result.ok.inj hrun).2.symm⟩
  | [one] =>
    obtain ⟨rfl, hmore⟩ := List.cons.inj hlisted
    obtain ⟨hsecond, -⟩ := List.cons.inj hmore
    exact .inr ⟨hsecond.symm, (EStateM.Result.ok.inj hrun).2.symm⟩
  | [one, two] =>
    obtain ⟨-, hmore⟩ := List.cons.inj hlisted
    obtain ⟨-, hmore⟩ := List.cons.inj hmore
    obtain ⟨rfl, -⟩ := List.cons.inj hmore
    cases hr
  | _ :: _ :: _ :: done =>
    have hlength := congrArg List.length hlisted
    simp [launchThenAwait] at hlength

lemma served_launch : Served launchStep launchedInOrder := by
  refine ⟨rfl, ⟨[.event ⟨1, "initialized", none⟩, configuredResponse, .event ⟨3, "thread", none⟩],
    launchResponse, [], ?_⟩, nofun, ?_, nofun⟩
  · exact Brings.reaches ⟨rfl, by decide, rfl⟩
  · intro eventName he
    obtain rfl := Option.some.inj he
    exact ⟨[], _, _, rfl, by decide, rfl⟩

lemma served_configured : Served configuredStep afterLaunch := by
  refine ⟨rfl, ⟨[], configuredResponse, _, Brings.reaches ⟨rfl, by decide, rfl⟩⟩, nofun, ?_, nofun⟩
  intro eventName he
  obtain rfl := Option.some.inj he
  exact ⟨[configuredResponse], _, _, rfl, by decide, rfl⟩

theorem waitForResponse_honoured_iff_launch : launchedInOrder.inbox.pending = [] ∧
    ∀ done step c, Visits bareEnvironment
        ((fakeWith launchThenAwait).templateContext bareEnvironment "main") "launch" (.obj [])
        launchThenAwait launchedInOrder done step c →
      Honours bareEnvironment ((fakeWith launchThenAwait).templateContext bareEnvironment "main")
        "launch" (.obj []) launchedInOrder done step c := by
  refine ⟨rfl, (waitForResponse_honoured_iff bareEnvironment fakeConfig (fakeWith launchThenAwait)
    "launch" (.obj []) launchedInOrder (fun _ hx => by cases hx) ?_).mpr ?_⟩
  · intro done step c hv hr
    obtain ⟨rfl, rfl⟩ | ⟨rfl, rfl⟩ := visits_launchThenAwait hv hr
    · exact served_launch
    · exact served_configured
  · intro done step c hv
    refine ⟨fun command hr hw _ he => ?_, fun command eventName waitFor hr _ hw hne => ?_⟩
    · obtain ⟨rfl, -⟩ | ⟨rfl, -⟩ := visits_launchThenAwait hv (by simp [hr])
      · cases hw
      · cases he
    · obtain ⟨rfl, -⟩ | ⟨rfl, -⟩ := visits_launchThenAwait hv (by simp [hr])
      · cases hw
      · exact absurd ((Option.some.inj hw).symm.trans (Option.some.inj hr)) hne

/-- A launch that awaits its own response, without an event. -/
def launchAwaitsItself : List InitStep :=
  [⟨some "launch", true, none, none, some "launch", none⟩]

def launched : ControlClient := fromDuplex [.item launchResponse] fun _ => .ok ()

/-- The step waits for ever when its response has come. -/
theorem own_response_blocks : ¬ ∀ (env : Environment) (config : SessionInitConfig)
    (manifest : PluginManifest) (request : String) (arguments : Value) (c₀ : ControlClient),
    (∀ x ∈ c₀.inbox.pending, ∀ response, x.1 ≠ .response response) →
    (∀ done step c, Visits env (manifest.templateContext env config.program) request arguments
      manifest.initSteps c₀ done step c → step.request.isSome → Served step c) →
    ∀ done step c, Visits env (manifest.templateContext env config.program) request arguments
        manifest.initSteps c₀ done step c →
      Honours env (manifest.templateContext env config.program) request arguments c₀ done step
        c := by
  intro h
  have hhonours := h bareEnvironment fakeConfig (fakeWith launchAwaitsItself) "launch" (.obj [])
    launched (fun _ hx => by cases hx)
    (fun done step c hv hr => by
      obtain ⟨rfl, rfl⟩ := hv.first (by simp) hr
      have hb : Brings (responseMatchesSeq 1) launched.inbox.arrivals [] launchResponse [] :=
        ⟨rfl, by simp, rfl⟩
      exact ⟨rfl, ⟨_, _, _, hb.reaches⟩, fun _ => ⟨_, _, _, hb⟩, nofun, nofun⟩)
    [] _ launched ⟨⟨[], rfl⟩, none, rfl⟩
  obtain ⟨entry, d, hrun, -⟩ := hhonours.own "launch" rfl rfl nofun none
  obtain ⟨u, hblocked⟩ : ∃ u, runInitStep bareEnvironment
    ((fakeWith launchAwaitsItself).templateContext bareEnvironment "main") "launch" (.obj [])
    ⟨some "launch", true, none, none, some "launch", none⟩ none launched =
      .error .waiting u := ⟨_, rfl⟩
  rw [show fakeConfig.program = "main" from rfl, hblocked] at hrun
  cases hrun

end DappyCore.Control
