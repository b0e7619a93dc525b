import DappyCore.TypedRequests

/-!
Probing the execution status: drain, ask for the threads if nothing told the status, and drain
again. An event that comes in between the question and the answer is read and dropped.
-/

namespace DappyCore.Control

open Lib Lib.Effect Lib.Inbox Json Protocol Transport Execution

/-- Sync execution state by issuing `threads` when no events were observed. -/
def probeStatus : Client ExecutionStateTracker := do
  let drained ← drain 200
  let tracker := applied .new (drained.map (·.1))
  if tracker.state.status = .unknown then
    let _ ← threads
    let drained ← drain 100
    return applied tracker (drained.map (·.1))
  else return tracker

variable {c d : ControlClient}

/-- What a call consumed: the buffer, and then what it took from the connection. -/
def consumed (c d : ControlClient) : List Received :=
  c.inbox.pending ++ c.inbox.wire.take (d.inbox.taken - c.inbox.taken)

lemma consumed_of_took {got : List Received} (h : Took c.inbox d.inbox got) :
    consumed c d = c.inbox.pending ++ got := by
  rw [consumed, h.wire, h.taken]
  simp

/-- The tracker has seen every message that the call consumed, in the order of arrival. -/
def SeesEveryEvent (c : ControlClient) : Prop :=
  ∀ t d, probeStatus c = .ok t d → t = applied .new ((consumed c d).map (·.1))

/-- What the probe knows before it asks for the threads. -/
def told (c : ControlClient) (heard : List Message) : ExecutionStateTracker :=
  applied .new (c.inbox.pending.map (·.1) ++ heard)

lemma told_drained (c : ControlClient) (heard : List Message) :
    applied .new ((c.inbox.pending ++ heard.zipIdx c.inbox.taken).map (·.1)) = told c heard := by
  rw [List.map_append, List.zipIdx_map_fst]
  rfl

/-- A probe that need not ask. -/
lemma probeStatus_told {heard : List Message} {w : Wire}
    (hd : Drains c.inbox.arrivals heard w) (hs : (told c heard).state.status ≠ .unknown) :
    probeStatus c = .ok (told c heard) (c.drained heard w) := by
  rw [probeStatus, bind_of_ok (drain_eq_ok (by omega) |>.mpr ⟨heard, w, hd, rfl, rfl⟩),
    told_drained, if_neg hs]
  rfl

/-- A probe that asks. -/
lemma probeStatus_asked {heard : List Message} {w : Wire}
    (hd : Drains c.inbox.arrivals heard w) (hs : (told c heard).state.status = .unknown)
    {t : ExecutionStateTracker} :
    probeStatus c = .ok t d ↔
      ∃ skipped r w' late rest, Answers (c.drained heard w) skipped (.response r) w' ∧
        Drains w' late rest ∧ t = applied (told c heard) late ∧
        d = ControlClient.drained { (c.drained heard w).sent "threads" (some (.obj [])) with
          inbox := (c.drained heard w).inbox.dropped skipped w' } late rest := by
  rw [probeStatus, bind_of_ok (drain_eq_ok (by omega) |>.mpr ⟨heard, w, hd, rfl, rfl⟩),
    told_drained, if_pos hs, bind_eq_ok]
  constructor
  · rintro ⟨body, u, hb, h⟩
    obtain ⟨skipped, r, w', ha, -, rfl⟩ := requestBody_eq_ok.mp hb
    obtain ⟨out, v, hv, h⟩ := bind_eq_ok.mp h
    obtain ⟨late, rest, hl, rfl, rfl⟩ := (drain_eq_ok (by omega)).mp hv
    simp only [pure_apply, EStateM.Result.ok.injEq] at h
    obtain ⟨rfl, rfl⟩ := h
    refine ⟨skipped, r, w', late, rest, ha, hl, ?_, rfl⟩
    rw [List.map_append, List.zipIdx_map_fst]
    rfl
  · rintro ⟨skipped, r, w', late, rest, ha, hl, rfl, rfl⟩
    refine ⟨_, _, requestBody_eq_ok.mpr ⟨skipped, r, w', ha, rfl, rfl⟩, bind_eq_ok.mpr ?_⟩
    refine ⟨_, _, (drain_eq_ok (by omega)).mpr ⟨late, rest, hl, rfl, rfl⟩, ?_⟩
    rw [List.map_append, List.zipIdx_map_fst]
    rfl

/-- Where nothing told the status, no event comes in between the question for the threads and
the answer to it, if that comes and the drain after it does not fail. -/
def NoneBetween (c : ControlClient) : Prop :=
  ∀ heard w skipped r w' late rest, Drains c.inbox.arrivals heard w →
    (∀ e ∈ eventsOf (c.inbox.pending.map (·.1) ++ heard), ¬ setsStatus e) →
    Answers (c.drained heard w) skipped (.response r) w' → Drains w' late rest →
    eventsOf skipped = []

lemma consumed_told {heard : List Message} {w : Wire} (hd : Drains c.inbox.arrivals heard w) :
    (consumed c (c.drained heard w)).map (·.1) = c.inbox.pending.map (·.1) ++ heard := by
  rw [consumed_of_took (took_drains hd []), List.map_append, List.zipIdx_map_fst]

lemma consumed_asked {heard skipped late : List Message} {r : Response} {w w' rest : Wire}
    (hd : Drains c.inbox.arrivals heard w)
    (ha : Answers (c.drained heard w) skipped (.response r) w') (hl : Drains w' late rest)
    (hi : d.inbox = ⟨rest, c.inbox.taken + heard.length + skipped.length + 1 + late.length, []⟩) :
    (consumed c d).map (·.1) =
      c.inbox.pending.map (·.1) ++ heard ++ (skipped ++ [.response r]) ++ late := by
  have h₁ := took_drains (b := c.inbox) hd []
  have h₂ := took_dropped (b := (c.drained heard w).inbox) ha.2
  have h₃ := took_drains (b := (c.drained heard w).inbox.dropped skipped w') hl []
  have ht := (h₁.trans h₂).trans h₃
  rw [consumed_of_took (d := d) (by rw [hi]; exact ht)]
  simp [List.zipIdx_map_fst]

/-- **Probing the status** sees every event exactly when none comes in between the question for
the threads and the answer. -/
theorem probe_sees_iff (c : ControlClient) : SeesEveryEvent c ↔ NoneBetween c := by
  have hunknown : ∀ heard, (told c heard).state.status = .unknown ↔
      ∀ e ∈ eventsOf (c.inbox.pending.map (·.1) ++ heard), ¬ setsStatus e := by
    intro heard
    rw [told, applied_eq_tracked, status_tracked_eq_unknown]
  have hasked : ∀ heard skipped late r, applied (told c heard) late =
      applied .new (c.inbox.pending.map (·.1) ++ heard ++ (skipped ++ [.response r]) ++ late) ↔
        eventsOf skipped = [] := by
    intro heard skipped late r
    rw [told, ← applied_append, applied_skip_iff, eventsOf_append]
    simp [eventsOf, event?]
  constructor
  · intro h heard w skipped r w' late rest hd hn ha hl
    have hp := (probeStatus_asked hd ((hunknown heard).mpr hn)).mpr
      ⟨skipped, r, w', late, rest, ha, hl, rfl, rfl⟩
    have ht := h _ _ hp
    rw [consumed_asked hd ha hl rfl] at ht
    exact (hasked ..).mp ht
  · intro h t d hp
    obtain ⟨out, u, hu, -⟩ := bind_eq_ok.mp hp
    obtain ⟨heard, w, hd, -, -⟩ := (drain_eq_ok (by omega)).mp hu
    by_cases hs : (told c heard).state.status = .unknown
    · obtain ⟨skipped, r, w', late, rest, ha, hl, rfl, rfl⟩ := (probeStatus_asked hd hs).mp hp
      rw [consumed_asked hd ha hl rfl]
      exact (hasked ..).mpr (h heard w skipped r w' late rest hd ((hunknown heard).mp hs) ha hl)
    · rw [probeStatus_told hd hs] at hp
      simp only [EStateM.Result.ok.injEq] at hp
      obtain ⟨rfl, rfl⟩ := hp
      rw [consumed_told hd]
      rfl

/-- The program stops between the question for the threads and the answer. -/
def stopsWhileAsked : ControlClient :=
  fromDuplex [.pause, .pause, .item (.event ⟨1, "stopped", none⟩),
    .item (.response ⟨2, 1, true, some "threads", none, none⟩)] fun _ => .ok ()

theorem stop_while_asked_is_missed : ¬ SeesEveryEvent stopsWhileAsked := by
  intro h
  have hp : probeStatus stopsWhileAsked = .ok .new (stateOf (probeStatus stopsWhileAsked)) := rfl
  exact absurd (h _ _ hp) (by decide)

end DappyCore.Control
