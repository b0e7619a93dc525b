import Mathlib.Data.List.Basic

/-!
Computations that change a state and may fail, and leave the changed state when they do.
-/

namespace DappyCore.Lib.Effect

variable {ε σ α β : Type} {x : EStateM ε σ α} {f : α → EStateM ε σ β} {s t : σ}

@[simp] lemma pure_apply (a : α) (s : σ) : (pure a : EStateM ε σ α) s = .ok a s := rfl

@[simp] lemma throw_apply (e : ε) (s : σ) : (throw e : EStateM ε σ α) s = .error e s := rfl

lemma bind_of_ok {a : α} (h : x s = .ok a t) : (x >>= f) s = f a t := by
  simp [bind, EStateM.bind, h]

lemma bind_of_error {e : ε} (h : x s = .error e t) : (x >>= f) s = .error e t := by
  simp [bind, EStateM.bind, h]

/-- **A sequence comes to a result** exactly when its parts do, one after the other. -/
theorem bind_eq_ok {b : β} :
    (x >>= f) s = .ok b t ↔ ∃ a u, x s = .ok a u ∧ f a u = .ok b t := by
  constructor
  · intro h
    cases hx : x s with
    | ok a u => exact ⟨a, u, rfl, by rw [← h, bind_of_ok hx]⟩
    | error e u => simp [bind_of_error hx] at h
  · rintro ⟨a, u, hx, hf⟩
    rw [bind_of_ok hx, hf]

/-- The same without a state. -/
theorem except_bind_eq_ok {x : Except ε α} {f : α → Except ε β} {b : β} :
    (x >>= f) = .ok b ↔ ∃ a, x = .ok a ∧ f a = .ok b := by
  cases x with
  | error e => exact iff_of_false nofun (by simp)
  | ok a =>
    constructor
    · intro h
      exact ⟨a, rfl, h⟩
    · rintro ⟨a', ha, h⟩
      rw [Except.ok.inj ha]
      exact h

lemma mapError_eq_ok {ε' : Type} {x : Except ε α} {f : ε → ε'} {a : α} :
    x.mapError f = .ok a ↔ x = .ok a := by
  cases x with
  | error e => exact ⟨nofun, nofun⟩
  | ok b => exact ⟨fun h => congrArg _ (Except.ok.inj h), fun h => congrArg _ (Except.ok.inj h)⟩

lemma map_eq_ok {x : Except ε α} {f : α → β} {b : β} :
    x.map f = .ok b ↔ ∃ a, x = .ok a ∧ f a = b := by
  cases x with
  | error e => exact ⟨nofun, fun ⟨_, h, _⟩ => nomatch h⟩
  | ok a =>
    constructor
    · intro h
      exact ⟨a, rfl, Except.ok.inj h⟩
    · rintro ⟨_, h, rfl⟩
      cases h
      rfl

lemma isOk_iff {x : Except ε α} : x.isOk ↔ ∃ a, x = .ok a := by
  cases x with
  | error e => exact ⟨nofun, nofun⟩
  | ok a => exact ⟨fun _ => ⟨a, rfl⟩, fun _ => rfl⟩

lemma isOk_bind_iff {x : Except ε α} {f : α → Except ε β} :
    (x >>= f).isOk ↔ ∃ a, x = .ok a ∧ (f a).isOk := by
  simp only [isOk_iff, except_bind_eq_ok]
  constructor
  · rintro ⟨b, a, ha, hb⟩
    exact ⟨a, ha, b, hb⟩
  · rintro ⟨a, ha, b, hb⟩
    exact ⟨b, a, ha, hb⟩

lemma toOption_eq_some {x : Except ε α} {a : α} : x.toOption = some a ↔ x = .ok a := by
  cases x <;> simp [Except.toOption]

/-- The state that is left. -/
def stateOf : EStateM.Result ε σ α → σ
  | .ok _ s => s
  | .error _ s => s

@[simp] lemma stateOf_ok (a : α) (s : σ) : stateOf (.ok a s : EStateM.Result ε σ α) = s := rfl

@[simp] lemma stateOf_error (e : ε) (s : σ) :
    stateOf (.error e s : EStateM.Result ε σ α) = s := rfl

end DappyCore.Lib.Effect
