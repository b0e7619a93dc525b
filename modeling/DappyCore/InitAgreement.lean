import DappyCore.InitSteps

/-!
The default order of a session's start, and the same order written as the steps of a manifest.

The default order looks for `initialized` among the messages put aside; a step that waits for an
event reads the connection only, so that an `initialized` that was put aside is not enough for it.
-/

namespace DappyCore.Control

open Lib Lib.Effect Lib.Inbox Json Protocol Transport Execution Plugin

/-- The first of the steps: the request, and the wait for `initialized`. -/
def startStep (request : String) : InitStep where
  request := some request
  useLaunchArguments := true
  arguments := none
  waitForEvent := some "initialized"
  waitForResponse := none
  recordEntry := none

def configurationDoneStep : InitStep where
  request := some "configurationDone"
  useLaunchArguments := false
  arguments := some (.obj [])
  waitForEvent := none
  waitForResponse := none
  recordEntry := none

/-- A manifest with the default order as its steps. -/
def withDefaultSteps (manifest : PluginManifest) (request : String) : PluginManifest :=
  { manifest with init := some ⟨[startStep request, configurationDoneStep]⟩ }

/-- Where the default sequence completes, so does the manifest's. -/
def InitSequencesAgree (env : Environment) (config : SessionInitConfig)
    (manifest : PluginManifest) (request : String) (arguments : Value) (c : ControlClient) : Prop :=
  ∀ d, runDefaultInitSequence request arguments c = .ok () d →
    ∃ entry d', runManifestInitSequence env config (withDefaultSteps manifest request) request
      arguments c = .ok entry d'

abbrev isInitialized : Message → Bool := eventNamed "initialized"

/-- The connection brings `initialized`, and after it an answer to the second request. -/
def BringsBoth (c : ControlClient) : Prop :=
  ∃ l e rest l' r rest', Brings isInitialized c.inbox.arrivals l e rest ∧
    Brings (responseMatchesSeq (c.seq + 1)) rest l' r rest'

/-! ### The manifest's sequence -/

variable {c d : ControlClient} {env : Environment} {ctx : TemplateContext}
  {config : SessionInitConfig} {manifest : PluginManifest} {request : String} {arguments : Value}
  {heard : List Heard}

lemma stepCarries_start :
    StepCarries env ctx request arguments (startStep request) c heard d ↔
      c.accepts c.seq = .ok () ∧ heard = [] ∧ ∃ l e rest,
        Brings isInitialized c.inbox.arrivals l e rest ∧
          d = c.asked request (some arguments) l rest := by
  constructor
  · intro h
    cases h with
    | event command eventName l e rest hr he ha hb _ _ =>
      obtain rfl := Option.some.inj he
      obtain rfl := Option.some.inj hr
      exact ⟨ha, rfl, l, e, rest, hb, rfl⟩
    | nothing hr _ | awaited _ _ _ hr _ _ => simp [startStep] at hr
    | eventAnswered _ _ _ _ _ _ _ _ _ _ _ _ hw => simp [startStep] at hw
    | answered _ _ _ _ _ he | answeredAwaited _ _ _ _ _ _ _ _ he => simp [startStep] at he
  · rintro ⟨ha, rfl, l, e, rest, hb, rfl⟩
    exact .event request "initialized" l e rest rfl rfl ha hb nofun nofun

lemma stepCarries_configurationDone :
    StepCarries env ctx request arguments configurationDoneStep c heard d ↔
      ∃ l r rest, Answers c l r rest ∧ heard = [("configurationDone", r)] ∧
        d = c.asked "configurationDone" (some (.obj [])) l rest := by
  constructor
  · intro h
    cases h with
    | answered command l r rest hr _ ha _ _ =>
      obtain rfl := Option.some.inj hr
      exact ⟨l, r, rest, ha, rfl, rfl⟩
    | nothing hr _ | awaited _ _ _ hr _ _ => simp [configurationDoneStep] at hr
    | event _ _ _ _ _ _ he | eventAnswered _ _ _ _ _ _ _ _ he =>
      simp [configurationDoneStep] at he
    | answeredAwaited _ _ _ _ _ _ _ _ _ _ _ hw => simp [configurationDoneStep] at hw
  · rintro ⟨l, r, rest, ha, rfl, rfl⟩
    exact .answered "configurationDone" l r rest rfl rfl ha nofun rfl

/-- **The manifest's sequence** completes when both requests are taken and the connection brings
`initialized` and then an answer to the second. -/
theorem exists_runManifest :
    (∃ entry d, runManifestInitSequence env config (withDefaultSteps manifest request) request
        arguments c = .ok entry d) ↔
      c.accepts c.seq = .ok () ∧ c.accepts (c.seq + 1) = .ok () ∧ BringsBoth c := by
  rw [exists_comm]
  simp only [runManifestInitSequence, runInitSteps_eq_ok]
  constructor
  · rintro ⟨d, heard, h⟩
    cases h with
    | cons _ _ _ u _ _ _ h h' =>
      obtain ⟨ha, -, l, e, rest, hb, rfl⟩ := stepCarries_start.mp h
      cases h' with
      | cons _ _ _ v _ _ _ h' _ =>
        obtain ⟨l', r, rest', ⟨ha', hb'⟩, -, -⟩ := stepCarries_configurationDone.mp h'
        exact ⟨ha, ha', l, e, rest, l', r, rest', hb, hb'⟩
  · rintro ⟨ha, ha', l, e, rest, l', r, rest', hb, hb'⟩
    let u := c.asked request (some arguments) l rest
    have hdone : StepsCarry env (manifest.templateContext env config.program) request arguments
        [configurationDoneStep] u [("configurationDone", r)] _ :=
      .cons _ _ u _ _ _ [] (stepCarries_configurationDone.mpr
        ⟨l', r, rest', ⟨ha', hb'⟩, rfl, rfl⟩) (.nil _)
    exact ⟨_, _, .cons _ _ c u _ [] _ (stepCarries_start.mpr ⟨ha, rfl, l, e, rest, hb, rfl⟩) hdone⟩

/-! ### The default sequence -/

/-- **The default sequence** completes when both requests are taken, the first is answered, and
`initialized` is among the messages put aside or comes in before the second is answered. -/
theorem exists_runDefault_iff :
    (∃ d, runDefaultInitSequence request arguments c = .ok () d) ↔
      ∃ l m rest x u l' m' rest', Answers c l m rest ∧
        Finds isInitialized (Brings isInitialized) (c.asked request (some arguments) l rest) x u ∧
        Answers u l' m' rest' := by
  simp only [runDefaultInitSequence_eq_ok]
  constructor
  · rintro ⟨d, heard, l, m, rest, x, u, l', m', rest', ha, hx, ha', -, -⟩
    exact ⟨l, m, rest, x, u, l', m', rest', ha, hx, ha'⟩
  · rintro ⟨l, m, rest, x, u, l', m', rest', ha, hx, ha'⟩
    exact ⟨_, _, l, m, rest, x, u, l', m', rest', ha, hx, ha', rfl, rfl⟩

/-- An `initialized` that comes in before an answer, and what comes in after the answer. -/
lemma bringsBoth_of_mem {l l' : List Message} {m m' x : Message} {rest rest' : Wire}
    (h : Brings (responseMatchesSeq c.seq) c.inbox.arrivals l m rest) (hx : x ∈ l)
    (hf : isInitialized x) (h' : Brings (responseMatchesSeq (c.seq + 1)) rest l' m' rest') :
    BringsBoth c := by
  obtain ⟨k, e, rest₁, hb⟩ := exists_brings hx hf (.item m :: rest)
  rcases hb.split with ⟨k', rfl⟩ | ⟨k', rfl, hrest⟩
  · have hn := hb.skips x (List.mem_append_left _ hx)
    rw [hf] at hn
    exact absurd hn (by simp)
  · -- the answer to the second request comes in after what is left of the first wait
    have harr : rest₁ = (k' ++ m :: l' ++ [m']).map .item ++ rest' := by
      rw [hrest, h'.arrivals]
      simp
    obtain ⟨l₂, r, rest₂, hr⟩ := exists_brings
      (List.mem_append_right (k' ++ m :: l') (List.mem_singleton_self m')) h'.fits rest'
    rw [← harr] at hr
    exact ⟨k, e, rest₁, l₂, r, rest₂, h.arrivals ▸ hb, hr⟩

/-- Where an `initialized` was put aside and the requests are answered, the connection brings
another one, and an answer to the second request after it. -/
def HeardAgain (c : ControlClient) : Prop :=
  (pendingEvent c "initialized").isSome → c.accepts (c.seq + 1) = .ok () →
    ∀ l m rest l' m' rest', Answers c l m rest →
      Brings (responseMatchesSeq (c.seq + 1)) rest l' m' rest' → BringsBoth c

/-- **The two sequences agree** exactly when an `initialized` that was put aside is not needed:
where there is one, and the requests are answered, the connection brings another one, and an
answer to the second request after it. -/
theorem init_sequences_agree_iff (env : Environment) (config : SessionInitConfig)
    (manifest : PluginManifest) (request : String) (arguments : Value) (c : ControlClient) :
    InitSequencesAgree env config manifest request arguments c ↔ HeardAgain c := by
  constructor
  · intro h hpending haccepts l m rest l' m' rest' ha hb
    obtain ⟨x, hx⟩ : ∃ x, c.inbox.pending.find? (fun y => isInitialized y.1) = some x :=
      Option.isSome_iff_exists.mp hpending
    have hfind : (c.asked request (some arguments) l rest).inbox.pending.find?
        (fun y => isInitialized y.1) = some x := by
      rw [show (c.asked request (some arguments) l rest).inbox.pending =
        c.inbox.pending ++ l.zipIdx c.inbox.taken from rfl, List.find?_append, hx]
      rfl
    obtain ⟨d, hd⟩ := exists_runDefault_iff.mpr
      ⟨l, m, rest, x, _, l', m', rest', ha, .inl ⟨hfind, rfl⟩, ⟨haccepts, hb⟩⟩
    obtain ⟨entry, d', hm⟩ := h d hd
    exact (exists_runManifest.mp ⟨entry, d', hm⟩).2.2
  · intro h d hd
    obtain ⟨l, m, rest, x, u, l', m', rest', ha, hx, ha'⟩ := exists_runDefault_iff.mp ⟨d, hd⟩
    rcases hx with ⟨hfind, rfl⟩ | ⟨hnone, k, e, rest₁, hb, -, rfl⟩
    · have hfits : isInitialized x.1 :=
        List.find?_some (p := fun y : Received => isInitialized y.1) hfind
      refine exists_runManifest.mpr ⟨ha.1, ha'.1, ?_⟩
      rcases List.mem_append.mp (List.mem_of_find?_eq_some hfind) with hmem | hmem
      · -- it was put aside before
        refine h ?_ ha'.1 l m rest l' m' rest' ha ha'.2
        rw [List.find?_isSome]
        exact ⟨x, hmem, hfits⟩
      · exact bringsBoth_of_mem ha.2 (List.fst_mem_of_mem_zipIdx hmem) hfits ha'.2
    · refine exists_runManifest.mpr ⟨ha.1, ha'.1, l ++ m :: k, e, rest₁, l', m', rest', ?_, ha'.2⟩
      have hskips := List.find?_eq_none.mp hnone
      refine ⟨?_, ?_, hb.fits⟩
      · rw [ha.2.arrivals, show rest = _ from hb.arrivals]
        simp
      · intro y hy
        rcases List.mem_append.mp hy with hy | hy
        · rw [← List.zipIdx_map_fst c.inbox.taken l] at hy
          obtain ⟨z, hz, rfl⟩ := List.mem_map.mp hy
          simpa using hskips z (List.mem_append_right _ hz)
        · rcases List.mem_cons.mp hy with rfl | hy
          · have hf := ha.2.fits
            cases y with
            | response r => rfl
            | _ => simp [responseMatchesSeq] at hf
          · exact hb.skips y hy

/-- A file system without files, and an environment without variables. -/
def bareEnvironment : Environment := ⟨fun _ => none, fun _ => none⟩

def fakeManifest : PluginManifest := ⟨"fake", ["fake"], [], none, none, none⟩

def fakeConfig : SessionInitConfig := ⟨"main", none, "dap-core", some fakeManifest, none⟩

/-- `initialized` was put aside, and both requests are answered. -/
def initializedBefore : ControlClient :=
  { fromDuplex [] fun _ => .ok () with
    inbox := ⟨[.item (.response ⟨2, 1, true, some "launch", none, none⟩),
        .item (.response ⟨3, 2, true, some "configurationDone", none, none⟩)], 1,
      [(.event ⟨1, "initialized", none⟩, 0)]⟩ }

theorem initialized_before_is_not_enough :
    ¬ InitSequencesAgree bareEnvironment fakeConfig fakeManifest "launch" (.obj [])
      initializedBefore := by
  intro h
  have hd : runDefaultInitSequence "launch" (.obj []) initializedBefore =
    .ok () (stateOf (runDefaultInitSequence "launch" (.obj []) initializedBefore)) := rfl
  obtain ⟨entry, d', hm⟩ := h _ hd
  obtain ⟨stop, u, hs⟩ : ∃ stop u, runManifestInitSequence bareEnvironment fakeConfig
    (withDefaultSteps fakeManifest "launch") "launch" (.obj []) initializedBefore =
      .error stop u := ⟨_, _, rfl⟩
  rw [hm] at hs
  simp at hs

end DappyCore.Control
