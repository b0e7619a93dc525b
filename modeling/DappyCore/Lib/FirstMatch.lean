import Mathlib.Data.List.DropRight

/-!
The first entry of a list that one of two tests finds, and the end of a list from which a test
holds.
-/

namespace DappyCore.Lib.FirstMatch

variable {α : Type} {p q : α → Bool} {l : List α} {a : α}

/-- Where the first test finds nothing, the other decides. -/
lemma find?_or_of_none (h : l.find? p = none) :
    l.find? (fun b => p b || q b) = l.find? q := by
  induction l with
  | nil => rfl
  | cons b l ih =>
    have hb : p b = false := by simpa using List.find?_eq_none.mp h b List.mem_cons_self
    rw [List.find?_cons, hb] at h
    rw [List.find?_cons, List.find?_cons, hb, Bool.false_or, ih h]

/-- **One scan for two tests** finds what the first test finds exactly where nothing before it
passes the second. -/
theorem find?_or_eq_some_iff (h : l.find? p = some a) :
    l.find? (fun b => p b || q b) = some a ↔ ∀ b ∈ l.takeWhile (fun b => !p b), q b = false := by
  induction l with
  | nil => cases h
  | cons b l ih =>
    cases hb : p b with
    | true =>
      rw [List.find?_cons, hb] at h
      obtain rfl : b = a := Option.some.inj h
      rw [List.takeWhile_cons, List.find?_cons, hb]
      simp
    | false =>
      rw [List.find?_cons, hb] at h
      have hne : b ≠ a := by
        rintro rfl
        rw [List.find?_some h] at hb
        cases hb
      rw [List.takeWhile_cons, List.find?_cons, hb, Bool.false_or, Bool.not_false, if_pos rfl,
        List.forall_mem_cons]
      cases hq : q b with
      | true => simp [hne]
      | false =>
        rw [ih h]
        simp

/-- What one scan for two tests finds is what the first test finds, if it passes that. -/
lemma find?_of_or (h : l.find? (fun b => p b || q b) = some a) (ha : p a = true) :
    l.find? p = some a := by
  induction l with
  | nil => cases h
  | cons b l ih =>
    rw [List.find?_cons] at h ⊢
    cases hb : p b with
    | true =>
      rw [hb, Bool.true_or] at h
      exact h
    | false =>
      cases hq : q b with
      | true =>
        rw [hb, hq, Bool.or_true] at h
        obtain rfl := Option.some.inj h
        rw [ha] at hb
        cases hb
      | false =>
        rw [hb, hq, Bool.or_false] at h
        exact ih h

/-- The last entry that fails a test is found again in an end of the list that has one. -/
lemma rtakeWhile_rtakeWhile (h : ∃ b ∈ l.rtakeWhile q, p b = false) :
    (l.rtakeWhile q).rtakeWhile p = l.rtakeWhile p := by
  obtain ⟨b, hb, hpb⟩ := h
  unfold List.rtakeWhile at hb ⊢
  rw [List.mem_reverse] at hb
  rw [List.reverse_reverse]
  congr 1
  generalize l.reverse = r at hb ⊢
  induction r with
  | nil => rfl
  | cons c r ih =>
    rw [List.takeWhile_cons] at hb ⊢
    cases hq : q c with
    | false => simp [hq] at hb
    | true =>
      rw [hq, if_pos rfl, List.mem_cons] at hb
      rw [if_pos rfl, List.takeWhile_cons, List.takeWhile_cons]
      cases hp : p c with
      | false => rfl
      | true =>
        have hr : b ∈ r.takeWhile q := hb.resolve_left fun hbc => by
          rw [hbc, hp] at hpb
          cases hpb
        rw [if_pos rfl, if_pos rfl, ih hr]

end DappyCore.Lib.FirstMatch
