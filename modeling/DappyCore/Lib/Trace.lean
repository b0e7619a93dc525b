import Mathlib.Data.List.Induction

/-!
Runs of a step function that always goes through: what is said of each step along a run, and
when something that a run brought about has come to stay.
-/

namespace DappyCore.Lib.Trace

variable {σ ι : Type} {step : σ → ι → σ} {P Q : σ → ι → Prop} {I : σ → Prop} {s : σ} {l : List ι}

/-- Each step of the run, taken in the state before it. -/
def Along (step : σ → ι → σ) (P : σ → ι → Prop) : σ → List ι → Prop
  | _, [] => True
  | s, i :: l => P s i ∧ Along step P (step s i) l

lemma along_append {l' : List ι} :
    Along step P s (l ++ l') ↔ Along step P s l ∧ Along step P (l.foldl step s) l' := by
  induction l generalizing s with
  | nil => simp [Along]
  | cons i l ih => rw [List.cons_append, Along, Along, ih, and_assoc, List.foldl_cons]

/-- Said with the place of each step in the run. -/
theorem along_iff :
    Along step P s l ↔ ∀ pre i post, l = pre ++ i :: post → P (pre.foldl step s) i := by
  induction l generalizing s with
  | nil => simp [Along]
  | cons i l ih =>
    rw [Along, ih]
    constructor
    · rintro ⟨hi, hl⟩ pre j post h
      cases pre with
      | nil =>
        obtain ⟨rfl, rfl⟩ := List.cons.inj h
        exact hi
      | cons k pre =>
        obtain ⟨rfl, rfl⟩ := List.cons.inj h
        exact hl pre j post rfl
    · intro h
      refine ⟨h [] i l rfl, fun pre j post hl => ?_⟩
      exact h (i :: pre) j post (by rw [hl, List.cons_append])

/-- What the invariant gives at one step it gives along the run. -/
theorem along_of_inv (hstep : ∀ s i, I s → P s i → Q s i ∧ I (step s i)) (hs : I s)
    (hl : Along step P s l) : Along step Q s l := by
  induction l generalizing s with
  | nil => trivial
  | cons i l ih =>
    obtain ⟨hq, hi⟩ := hstep s i hs hl.1
    exact ⟨hq, ih hi hl.2⟩

/-- **Invariants.** What every step keeps holds where a run ends. -/
theorem inv_foldl (hstep : ∀ s i, I s → I (step s i)) (hs : I s) (l : List ι) :
    I (l.foldl step s) := by
  induction l generalizing s with
  | nil => exact hs
  | cons i l ih => exact ih (hstep s i hs)

/-- What every step on one of the inputs of the run keeps. -/
theorem inv_foldl_of {R : ι → Prop} (hstep : ∀ s i, R i → I s → I (step s i)) (hs : I s)
    (hl : ∀ i ∈ l, R i) : I (l.foldl step s) := by
  induction l generalizing s with
  | nil => exact hs
  | cons i l ih =>
    have hi := hstep s i (hl i List.mem_cons_self) hs
    exact ih hi fun j hj => hl j (List.mem_cons_of_mem _ hj)

/-- **What came about** in a run came about at some step, and has stayed since. -/
theorem exists_lasting {p : σ → Prop} (hs : ¬ p s) (hl : p (l.foldl step s)) :
    ∃ pre i post, l = pre ++ i :: post ∧ ¬ p (pre.foldl step s) ∧
      ∀ mid, mid <+: post → p (mid.foldl step (step (pre.foldl step s) i)) := by
  induction l using List.reverseRecOn with
  | nil => exact absurd hl hs
  | append_singleton l i ih =>
    by_cases hp : p (l.foldl step s)
    · obtain ⟨pre, j, post, rfl, hpre, hpost⟩ := ih hp
      refine ⟨pre, j, post ++ [i], by simp, hpre, fun mid hmid => ?_⟩
      rcases List.prefix_concat_iff.mp hmid with rfl | hmid
      · simpa [List.foldl_append] using hl
      · exact hpost mid hmid
    · refine ⟨l, i, [], rfl, hp, fun mid hmid => ?_⟩
      obtain rfl := List.prefix_nil.mp hmid
      simpa [List.foldl_append] using hl

end DappyCore.Lib.Trace
