import DappyCore.Navigation
import DappyCore.TypedRequests
import DappyCore.InitSteps

/-!
Failures of the adapter: a response that says that the request failed, and what the call that
waited for it makes of it. No call looks at the flag.
-/

namespace DappyCore.Control

open Lib Lib.Effect Lib.Inbox Json Protocol Transport Plugin

/-- A response that says that the request failed. -/
def failed : Message → Bool
  | .response response => !response.success
  | _ => false

/-- The calls that wait for the response to a request of their own. -/
inductive Operation
  | navigate (navigationType : NavigationType) (threadId : ℤ)
  | typed (request : TypedRequest)
  | start (config : SessionInitConfig) (request : String) (arguments : Value)

/-- The requests that start a session. -/
def startsSession (request command : String) : Prop :=
  command ∈ ["initialize", "launch", "attach", request, "configurationDone"]

/-- The call does not claim success where the response it heard says that the request failed. -/
def Reports (env : Environment) (c : ControlClient) : Operation → Prop
  | .navigate k threadId => ∀ l m rest, Answers c l m rest → failed m →
    ∀ result d, navigate k threadId c = .ok result d → result.success = false
  | .typed request => ∀ l m rest, Answers c l m rest → failed m →
    ∀ body d, request.call c ≠ .ok body d
  | .start config request arguments => ∀ result d,
    runDebugRequest env config request arguments c = .ok result d → result.ready →
      ∀ heard, DebugCarries env config request arguments c heard d →
        ∀ x ∈ heard, startsSession request x.1 → ¬ failed x.2

/-- What a navigation waits for after the response comes in. -/
def Followed (k : NavigationType) (u : ControlClient) : Prop :=
  if k.waitsForStop then
    ∃ x d, Finds (eventNamed "stopped") (Brings (eventNamed "stopped")) u x d
  else ∃ heard rest, Drains u.inbox.arrivals heard rest

/-- No response that is heard says that the request failed, or what is awaited after it does not
come in. -/
def NoFailure (env : Environment) (c : ControlClient) : Operation → Prop
  | .navigate k threadId => ∀ l m rest, Answers c l m rest → failed m →
    ¬ Followed k (c.answered k threadId l rest)
  | .typed _ => ∀ l m rest, Answers c l m rest → ¬ failed m
  | .start config request arguments => ∀ heard d,
    DebugCarries env config request arguments c heard d →
      ∀ x ∈ heard, startsSession request x.1 → ¬ failed x.2

variable {env : Environment} {c d : ControlClient}

/-- **A navigation comes to a result** once its command was answered and what it waits for then
has come in. -/
theorem exists_navigate {k : NavigationType} {threadId : ℤ} :
    (∃ result d, navigate k threadId c = .ok result d) ↔
      ∃ l m rest, Answers c l m rest ∧ Followed k (c.answered k threadId l rest) := by
  unfold Followed
  constructor
  · rintro ⟨result, d, h⟩
    obtain ⟨o, hn⟩ := navigate_eq_ok.mp h
    by_cases hk : k.waitsForStop
    · obtain ⟨l, m, rest, x, ha, hx, -, -⟩ := (navigateFrom_waits hk).mp hn
      refine ⟨l, m, rest, ha, ?_⟩
      rw [if_pos hk]
      exact ⟨x, d, (waitForEvent_eq_ok (by omega)).mp hx⟩
    · obtain ⟨l, m, rest, heard, w, ha, hd, -⟩ := (navigateFrom_steps hk).mp hn
      refine ⟨l, m, rest, ha, ?_⟩
      rw [if_neg hk]
      exact ⟨heard, w, hd⟩
  · rintro ⟨l, m, rest, ha, hf⟩
    by_cases hk : k.waitsForStop
    · rw [if_pos hk] at hf
      obtain ⟨x, d, hx⟩ := hf
      have hw := (waitForEvent_eq_ok (show 30 ≠ 0 by omega)).mpr hx
      exact ⟨_, d, navigate_eq_ok.mpr
        ⟨_, (navigateFrom_waits hk).mpr ⟨l, m, rest, x, ha, hw, rfl, rfl⟩⟩⟩
    · rw [if_neg hk] at hf
      obtain ⟨heard, w, hd⟩ := hf
      exact ⟨_, _, navigate_eq_ok.mpr
        ⟨_, (navigateFrom_steps hk).mpr ⟨l, m, rest, heard, w, ha, hd, rfl, rfl, rfl⟩⟩⟩

/-- A navigation that comes to a result claims success. -/
lemma success_of_navigate {k : NavigationType} {threadId : ℤ} {result : NavigateResult}
    (h : navigate k threadId c = .ok result d) : result.success := by
  obtain ⟨o, hn⟩ := navigate_eq_ok.mp h
  by_cases hk : k.waitsForStop
  · obtain ⟨l, m, rest, x, -, -, -, rfl⟩ := (navigateFrom_waits hk).mp hn
    rfl
  · obtain ⟨l, m, rest, heard, w, -, -, -, -, rfl⟩ := (navigateFrom_steps hk).mp hn
    rfl

/-- **A typed request comes to a result** once it was answered, whatever the answer says. -/
theorem exists_typed (request : TypedRequest) :
    (∃ body d, request.call c = .ok body d) ↔ ∃ l m rest, Answers c l m rest := by
  obtain ⟨command, arguments, hcall⟩ := request.exists_call
  rw [hcall]
  constructor
  · rintro ⟨body, d, h⟩
    obtain ⟨l, r, rest, ha, -⟩ := requestBody_eq_ok.mp h
    exact ⟨l, _, rest, ha⟩
  · rintro ⟨l, m, rest, ha⟩
    cases m with
    | response r => exact ⟨_, _, requestBody_eq_ok.mpr ⟨l, r, rest, ha, rfl, rfl⟩⟩
    | _ => exact absurd ha.2.fits Bool.false_ne_true

/-- A session that is started is said to be ready. -/
lemma ready_of_runDebugRequest {config : SessionInitConfig} {request : String} {arguments : Value}
    {result : SessionInitResult}
    (h : runDebugRequest env config request arguments c = .ok result d) : result.ready := by
  obtain ⟨_, _, -, h⟩ := bind_eq_ok.mp h
  obtain ⟨_, _, -, h⟩ := bind_eq_ok.mp h
  obtain ⟨_, _, -, h⟩ := bind_eq_ok.mp h
  obtain ⟨_, _, -, h⟩ := bind_eq_ok.mp h
  obtain ⟨_, _, -, h⟩ := bind_eq_ok.mp h
  obtain ⟨rfl, -⟩ := EStateM.Result.ok.inj h
  rfl

/-- **Failures are reported** exactly where there are none, or where the call fails for want of
what it waits for next. -/
theorem failures_reported_iff (env : Environment) (c : ControlClient) (operation : Operation) :
    Reports env c operation ↔ NoFailure env c operation := by
  cases operation with
  | navigate k threadId =>
    constructor
    · intro h l m rest ha hm hf
      obtain ⟨result, d, hn⟩ := exists_navigate.mpr ⟨l, m, rest, ha, hf⟩
      have hs := success_of_navigate hn
      rw [h l m rest ha hm result d hn] at hs
      exact Bool.false_ne_true hs
    · intro h l m rest ha hm result d hn
      obtain ⟨l', m', rest', ha', hf⟩ := exists_navigate.mp ⟨result, d, hn⟩
      obtain ⟨rfl, rfl, rfl⟩ := ha.2.unique ha'.2
      exact absurd hf (h l m rest ha hm)
  | typed request =>
    constructor
    · intro h l m rest ha hm
      obtain ⟨body, d, hr⟩ := (exists_typed request).mpr ⟨l, m, rest, ha⟩
      exact h l m rest ha hm body d hr
    · exact fun h l m rest ha hm => absurd hm (h l m rest ha)
  | start config request arguments =>
    constructor
    · intro h heard d hd
      obtain ⟨result, hr⟩ := runDebugRequest_eq_ok.mpr ⟨heard, hd⟩
      exact h result d hr (ready_of_runDebugRequest hr) heard hd
    · exact fun h result d _ _ heard hd => h heard d hd

/-- The adapter cannot evaluate the expression. -/
def evaluationFails : ControlClient :=
  fromDuplex [.item (.response ⟨1, 1, false, some "evaluate", some "not available", none⟩)]
    fun _ => .ok ()

theorem failed_evaluation_is_ok :
    ¬ Reports ⟨fun _ => none, fun _ => none⟩ evaluationFails
      (.typed (.evaluate "x" none)) := by
  intro h
  exact h [] _ [] ⟨rfl, rfl, nofun, rfl⟩ rfl .null
    (stateOf (evaluate "x" none evaluationFails)) rfl

end DappyCore.Control
