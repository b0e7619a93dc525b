import Mathlib.Data.List.Induction

/-!
A register that only some inputs of a fold write holds what the last of them put there.
-/

namespace DappyCore.Lib

variable {α β σ : Type}

/-- The last element that satisfies `p`. -/
def lastOf (p : α → Bool) (l : List α) : Option α := (l.filter p).getLast?

@[simp] lemma lastOf_nil (p : α → Bool) : lastOf p [] = none := rfl

lemma lastOf_concat (p : α → Bool) (l : List α) (a : α) :
    lastOf p (l ++ [a]) = if p a then some a else lastOf p l := by
  unfold lastOf
  rw [List.filter_append]
  split_ifs with h <;> simp [h]

lemma lastOf_eq_none_iff {p : α → Bool} {l : List α} : lastOf p l = none ↔ ∀ a ∈ l, ¬ p a := by
  rw [lastOf, List.getLast?_eq_none_iff, List.filter_eq_nil_iff]

lemma lastOf_mem {p : α → Bool} {l : List α} {a : α} (h : lastOf p l = some a) :
    a ∈ l ∧ p a := by
  have hm := List.mem_of_getLast? h
  exact List.mem_filter.mp hm

/-- The last that satisfies `p` is the last that satisfies a stronger `q`, if it does. -/
lemma lastOf_of_imp {p q : α → Bool} (hpq : ∀ a, q a → p a) {l : List α} {a : α}
    (h : lastOf p l = some a) (ha : q a) : lastOf q l = some a := by
  induction l using List.reverseRecOn with
  | nil => simp at h
  | append_singleton l b ih =>
    rw [lastOf_concat] at h ⊢
    by_cases hb : p b
    · rw [if_pos hb, Option.some.injEq] at h
      rw [h, if_pos ha]
    · rw [if_neg hb] at h
      rw [if_neg fun hq => hb (hpq b hq)]
      exact ih h

/-- **The register rule.** -/
theorem foldl_lastOf {f : σ → α → σ} {g : σ → β} {p : α → Bool} {v : α → β}
    (hp : ∀ s a, p a → g (f s a) = v a) (hn : ∀ s a, ¬ p a → g (f s a) = g s) (s : σ)
    (l : List α) : g (l.foldl f s) = (lastOf p l).elim (g s) v := by
  induction l using List.reverseRecOn with
  | nil => rfl
  | append_singleton l a ih =>
    rw [List.foldl_append, List.foldl_cons, List.foldl_nil, lastOf_concat]
    split_ifs with h
    · exact hp _ a h
    · rw [hn _ a h, ih]

end DappyCore.Lib
