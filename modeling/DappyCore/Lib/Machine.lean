import Mathlib.Data.List.Basic

/-!
Machines that take one input after another and stop at the first step that fails. A failed
step may have changed the state before it failed, so it leaves a state too.
-/

namespace DappyCore.Lib.Machine

variable {σ ι ε η : Type}

/-- What a step leaves: the state, and whether the machine goes on. -/
abbrev Result (σ ε : Type) := σ × Except ε Unit

/-- The inputs in turn, up to the first that fails. -/
def run (step : σ → ι → Result σ ε) (s : σ) : List ι → Result σ ε
  | [] => (s, .ok ())
  | i :: is =>
    match step s i with
    | (t, .ok ()) => run step t is
    | (t, .error e) => (t, .error e)

/-- The steps taken: each with the state before it and its input. -/
def visits (step : σ → ι → Result σ ε) (s : σ) : List ι → List (σ × ι)
  | [] => []
  | i :: is =>
    (s, i) ::
      match step s i with
      | (t, .ok ()) => visits step t is
      | (_, .error _) => []

variable {step : σ → ι → Result σ ε}

@[simp] lemma run_nil (s : σ) : run step s [] = (s, .ok ()) := rfl

lemma run_cons_ok {s t : σ} {i : ι} {is : List ι} (h : step s i = (t, .ok ())) :
    run step s (i :: is) = run step t is := by
  simp [run, h]

lemma run_cons_error {s t : σ} {i : ι} {is : List ι} {e : ε} (h : step s i = (t, .error e)) :
    run step s (i :: is) = (t, .error e) := by
  simp [run, h]

lemma visits_cons_ok {s t : σ} {i : ι} {is : List ι} (h : step s i = (t, .ok ())) :
    visits step s (i :: is) = (s, i) :: visits step t is := by
  simp [visits, h]

lemma visits_cons_error {s t : σ} {i : ι} {is : List ι} {e : ε} (h : step s i = (t, .error e)) :
    visits step s (i :: is) = [(s, i)] := by
  simp [visits, h]

/-- The two ways a run begins. -/
lemma step_ok_or_error (step : σ → ι → Result σ ε) (s : σ) (i : ι) :
    (∃ t, step s i = (t, .ok ())) ∨ ∃ t e, step s i = (t, .error e) := by
  rcases h : step s i with ⟨t, _ | _⟩
  · exact .inr ⟨t, _, rfl⟩
  · exact .inl ⟨t, rfl⟩

lemma run_append (s : σ) (is js : List ι) :
    run step s (is ++ js) =
      match run step s is with
      | (t, .ok ()) => run step t js
      | (t, .error e) => (t, .error e) := by
  induction is generalizing s with
  | nil => rfl
  | cons i is ih =>
    rw [List.cons_append]
    rcases step_ok_or_error step s i with ⟨t, h⟩ | ⟨t, e, h⟩
    · rw [run_cons_ok h, run_cons_ok h, ih]
    · rw [run_cons_error h, run_cons_error h]

/-- **Invariants.** What every step preserves on the inputs of the run holds of every state
the run visits. -/
theorem visits_inv {I : σ → Prop} {P : ι → Prop}
    (hstep : ∀ s i t, P i → I s → step s i = (t, .ok ()) → I t)
    {s : σ} (hs : I s) {is : List ι} (hP : ∀ i ∈ is, P i) :
    ∀ v ∈ visits step s is, I v.1 ∧ P v.2 := by
  induction is generalizing s with
  | nil => simp [visits]
  | cons i is ih =>
    have hi := hP i List.mem_cons_self
    have his := fun j hj => hP j (List.mem_cons_of_mem _ hj)
    rcases step_ok_or_error step s i with ⟨t, h⟩ | ⟨t, e, h⟩
    · rw [visits_cons_ok h]
      intro v hv
      rcases List.mem_cons.mp hv with rfl | hv
      · exact ⟨hs, hi⟩
      · exact ih (hstep s i t hi hs h) his v hv
    · rw [visits_cons_error h]
      intro v hv
      rw [List.mem_singleton] at hv
      exact hv ▸ ⟨hs, hi⟩

/-- What every step that goes through preserves holds where a run that goes through ends. -/
theorem run_ok_inv {I : σ → Prop} {P : ι → Prop}
    (hstep : ∀ s i t, P i → I s → step s i = (t, .ok ()) → I t)
    {s t : σ} (hs : I s) {is : List ι} (hP : ∀ i ∈ is, P i) (h : run step s is = (t, .ok ())) :
    I t := by
  induction is generalizing s with
  | nil =>
    obtain rfl := congrArg Prod.fst h
    exact hs
  | cons i is ih =>
    have hi := hP i List.mem_cons_self
    have his := fun j hj => hP j (List.mem_cons_of_mem _ hj)
    rcases step_ok_or_error step s i with ⟨u, hu⟩ | ⟨u, e, hu⟩
    · rw [run_cons_ok hu] at h
      exact ih (hstep s i u hi hs hu) his h
    · simp [run_cons_error hu] at h

/-- The state before a step is where the run over the inputs before it ends. -/
theorem mem_visits_iff {s : σ} {is : List ι} {v : σ × ι} :
    v ∈ visits step s is ↔
      ∃ pre post, is = pre ++ v.2 :: post ∧ run step s pre = (v.1, .ok ()) := by
  induction is generalizing s with
  | nil => simp [visits]
  | cons i is ih =>
    constructor
    · -- the first step is visited, and the later ones if it goes through
      intro hv
      rcases step_ok_or_error step s i with ⟨t, h⟩ | ⟨t, e, h⟩
      · rw [visits_cons_ok h] at hv
        rcases List.mem_cons.mp hv with rfl | hv
        · exact ⟨[], is, rfl, rfl⟩
        · obtain ⟨pre, post, rfl, hr⟩ := ih.mp hv
          exact ⟨i :: pre, post, rfl, by rw [run_cons_ok h, hr]⟩
      · rw [visits_cons_error h, List.mem_singleton] at hv
        exact ⟨[], is, by rw [hv]; rfl, by rw [hv]; rfl⟩
    · rintro ⟨pre, post, hi, hr⟩
      cases pre with
      | nil =>
        obtain ⟨rfl, rfl⟩ := List.cons.inj hi
        obtain rfl := congrArg Prod.fst hr
        exact List.mem_cons_self
      | cons j pre =>
        obtain ⟨rfl, rfl⟩ := List.cons.inj hi
        rcases step_ok_or_error step s i with ⟨t, h⟩ | ⟨t, e, h⟩
        · rw [run_cons_ok h] at hr
          rw [visits_cons_ok h]
          exact List.mem_cons_of_mem _ (ih.mpr ⟨pre, post, rfl, hr⟩)
        · simp [run_cons_error h] at hr

/-- A run goes through, or ends with the first step that fails. -/
theorem run_cases (step : σ → ι → Result σ ε) (s : σ) (is : List ι) :
    (∃ t, run step s is = (t, .ok ())) ∨
      ∃ v ∈ visits step s is, ∃ e, step v.1 v.2 = ((run step s is).1, .error e) := by
  induction is generalizing s with
  | nil => exact .inl ⟨s, rfl⟩
  | cons i is ih =>
    rcases step_ok_or_error step s i with ⟨t, h⟩ | ⟨t, e, h⟩
    · rw [run_cons_ok h, visits_cons_ok h]
      refine (ih t).imp id ?_
      rintro ⟨v, hv, e, he⟩
      exact ⟨v, List.mem_cons_of_mem _ hv, e, he⟩
    · rw [run_cons_error h, visits_cons_error h]
      exact .inr ⟨(s, i), List.mem_singleton_self _, e, h⟩

/-- Two properties of a step agree along a run, where an invariant that makes them agree is
kept by the steps that have them. -/
theorem forall_visits_congr {I : σ → Prop} {P Q R : σ → ι → Prop}
    (hiff : ∀ s i, I s → R s i → (P s i ↔ Q s i))
    (hstep : ∀ s i t, I s → R s i → Q s i → step s i = (t, .ok ()) → I t)
    {s : σ} (hs : I s) {is : List ι} (hR : ∀ v ∈ visits step s is, R v.1 v.2) :
    (∀ v ∈ visits step s is, P v.1 v.2) ↔ ∀ v ∈ visits step s is, Q v.1 v.2 := by
  induction is generalizing s with
  | nil => simp [visits]
  | cons i is ih =>
    rcases step_ok_or_error step s i with ⟨t, h⟩ | ⟨t, e, h⟩
    · rw [visits_cons_ok h] at hR ⊢
      obtain ⟨hi, his⟩ := List.forall_mem_cons.mp hR
      rw [List.forall_mem_cons, List.forall_mem_cons, hiff s i hs hi]
      exact and_congr_right fun hq => ih (hstep s i t hs hi hq h) his
    · rw [visits_cons_error h] at hR ⊢
      simp only [List.mem_singleton, forall_eq] at hR ⊢
      exact hiff s i hs hR

/-- A run goes through exactly when each of its steps does. -/
theorem run_ok_iff (s : σ) (is : List ι) :
    (run step s is).2 = .ok () ↔ ∀ v ∈ visits step s is, (step v.1 v.2).2 = .ok () := by
  induction is generalizing s with
  | nil => simp [visits]
  | cons i is ih =>
    rcases step_ok_or_error step s i with ⟨t, h⟩ | ⟨t, e, h⟩
    · rw [run_cons_ok h, visits_cons_ok h, ih]
      simp [h]
    · rw [run_cons_error h, visits_cons_error h]
      simp [h]

/-- What a run adds to a list is what its steps add, one after the other. -/
theorem run_appends (step : σ → ι → Result σ ε) {α : Type} {I : σ → Prop}
    (hI : ∀ s i, I s → I (step s i).1)
    (f : σ → List α) (new : σ → ι → List α)
    (h : ∀ s i, I s → f (step s i).1 = f s ++ new s i) {s : σ} (hs : I s) (is : List ι) :
    f (run step s is).1 = f s ++ (visits step s is).flatMap fun v => new v.1 v.2 := by
  induction is generalizing s with
  | nil => simp [visits]
  | cons i is ih =>
    have hi := h s i hs
    have ht := hI s i hs
    rcases step_ok_or_error step s i with ⟨t, hs⟩ | ⟨t, e, hs⟩
    · rw [hs] at hi ht
      rw [run_cons_ok hs, visits_cons_ok hs, ih ht, hi, List.flatMap_cons, List.append_assoc]
    · rw [hs] at hi
      rw [run_cons_error hs, visits_cons_error hs, hi, List.flatMap_singleton]

/-- A machine none of whose steps fails takes all its inputs. -/
lemma visits_map_snd (step : σ → ι → Result σ ε) {f : σ → ι → σ}
    (hf : ∀ s i, step s i = (f s i, .ok ())) (s : σ) (is : List ι) :
    (visits step s is).map Prod.snd = is := by
  induction is generalizing s with
  | nil => rfl
  | cons i is ih => rw [visits_cons_ok (hf s i), List.map_cons, ih]

/-- What every step preserves, whether it goes through or not, holds where a run ends. -/
theorem run_inv {I : σ → Prop} {P : ι → Prop} (hstep : ∀ s i, P i → I s → I (step s i).1)
    {s : σ} (hs : I s) {is : List ι} (hP : ∀ i ∈ is, P i) : I (run step s is).1 := by
  induction is generalizing s with
  | nil => exact hs
  | cons i is ih =>
    have hi := hstep s i (hP i List.mem_cons_self) hs
    have his := fun j hj => hP j (List.mem_cons_of_mem _ hj)
    rcases step_ok_or_error step s i with ⟨t, h⟩ | ⟨t, e, h⟩
    · rw [h] at hi
      rw [run_cons_ok h]
      exact ih hi his
    · rw [h] at hi
      rw [run_cons_error h]
      exact hi

/-- **The register rule.** What only some steps of a run write holds what the last of them put
there. -/
theorem run_register {β : Type} {I : σ → Prop} {g : σ → β} {w : σ × ι → Option β}
    (hI : ∀ s i t, I s → step s i = (t, .ok ()) → I t)
    (hw : ∀ s i t, I s → step s i = (t, .ok ()) → g t = (w (s, i)).getD (g s))
    {s t : σ} (hs : I s) {is : List ι} (h : run step s is = (t, .ok ())) :
    g t = ((visits step s is).filterMap w).getLast?.getD (g s) := by
  induction is generalizing s with
  | nil =>
    obtain rfl := congrArg Prod.fst h
    rfl
  | cons i is ih =>
    rcases step_ok_or_error step s i with ⟨u, hu⟩ | ⟨u, e, hu⟩
    · rw [run_cons_ok hu] at h
      rw [visits_cons_ok hu, List.filterMap_cons, ih (hI s i u hs hu) h, hw s i u hs hu]
      cases w (s, i) with
      | none => rfl
      | some b =>
        rw [List.getLast?_cons]
        rfl
    · simp [run_cons_error hu] at h

/-! ### History -/

/-- The machine with a history that is told of every step and decides nothing. -/
def observed (step : σ → ι → Result σ ε) (note : η → σ → ι → σ → η) :
    σ × η → ι → Result (σ × η) ε :=
  fun s i => (((step s.1 i).1, note s.2 s.1 i (step s.1 i).1), (step s.1 i).2)

/-- The history does not change what the machine does. -/
theorem run_observed (note : η → σ → ι → σ → η) (s : σ) (h : η) (is : List ι) :
    (run (observed step note) (s, h) is).1.1 = (run step s is).1 ∧
      (run (observed step note) (s, h) is).2 = (run step s is).2 := by
  induction is generalizing s h with
  | nil => simp
  | cons i is ih =>
    rcases step_ok_or_error step s i with ⟨t, hs⟩ | ⟨t, e, hs⟩
    · have ho : observed step note (s, h) i = ((t, note h s i t), .ok ()) := by
        simp [observed, hs]
      rw [run_cons_ok ho, run_cons_ok hs]
      exact ih t _
    · have ho : observed step note (s, h) i = ((t, note h s i t), .error e) := by
        simp [observed, hs]
      rw [run_cons_error ho, run_cons_error hs]
      simp

end DappyCore.Lib.Machine
