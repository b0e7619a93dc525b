import Mathlib.Data.List.Infix

/-!
Patterns with stars. A pattern spells the words that come of filling its stars; the pieces between
the stars are then found one after the other, each at its first occurrence.
-/

namespace DappyCore.Lib.Wildcard

variable {α : Type} {pieces : List (List α)} {piece word rest : List α}

/-! ### Pieces -/

/-- The pieces occur in the word one after the other, the last of them at its end. -/
def Follows : List (List α) → List α → Prop
  | [], _ => True
  | [piece], word => piece <:+ word
  | piece :: pieces, word => ∃ gap rest, word = gap ++ (piece ++ rest) ∧ Follows pieces rest

/-- The pieces make up the word, with gaps between them. -/
def Spells : List (List α) → List α → Prop
  | [], word => word = []
  | [piece], word => word = piece
  | piece :: pieces, word => ∃ gap rest, word = piece ++ (gap ++ rest) ∧ Spells pieces rest

lemma follows_cons (h : pieces ≠ []) : Follows (piece :: pieces) word ↔
    ∃ gap rest, word = gap ++ (piece ++ rest) ∧ Follows pieces rest := by
  cases pieces with
  | nil => exact absurd rfl h
  | cons => rfl

lemma spells_cons (h : pieces ≠ []) : Spells (piece :: pieces) word ↔
    ∃ gap rest, word = piece ++ (gap ++ rest) ∧ Spells pieces rest := by
  cases pieces with
  | nil => exact absurd rfl h
  | cons => rfl

/-- More room before them does the pieces no harm. -/
lemma Follows.of_suffix (h : Follows pieces rest) (hsuf : rest <:+ word) : Follows pieces word := by
  match pieces with
  | [] => trivial
  | [piece] => exact List.IsSuffix.trans h hsuf
  | piece :: next :: pieces =>
    obtain ⟨front, rfl⟩ := hsuf
    obtain ⟨gap, after, rfl, hafter⟩ := h
    exact ⟨front ++ gap, after, by simp, hafter⟩

lemma follows_nil_cons : Follows ([] :: pieces) word ↔ Follows pieces word := by
  cases pieces with
  | nil => simp [Follows]
  | cons next pieces =>
    rw [follows_cons (List.cons_ne_nil _ _)]
    constructor
    · rintro ⟨gap, rest, rfl, h⟩
      exact h.of_suffix (List.suffix_append gap rest)
    · intro h
      exact ⟨[], word, rfl, h⟩

/-- **The first occurrence of a piece will do** where any does: what follows another one is the end
of what follows the first. -/
theorem follows_of_first (hne : pieces ≠ []) {before after : List α}
    (hfirst : ∀ before' after', before ++ (piece ++ after) = before' ++ (piece ++ after') →
      before <+: before') :
    Follows (piece :: pieces) (before ++ (piece ++ after)) ↔ Follows pieces after := by
  rw [follows_cons hne]
  constructor
  · rintro ⟨gap, rest, heq, hrest⟩
    have hle := (hfirst gap rest heq).length_le
    have hlen := congrArg List.length heq
    have hafter : after <:+ before ++ (piece ++ after) := by
      rw [← List.append_assoc]
      exact List.suffix_append _ after
    have hend : rest <:+ before ++ (piece ++ after) := by
      rw [heq, ← List.append_assoc]
      exact List.suffix_append _ rest
    simp only [List.length_append] at hlen
    exact hrest.of_suffix (List.suffix_of_suffix_length_le hend hafter (by omega))
  · intro h
    exact ⟨before, after, rfl, h⟩

/-- A word that the pieces make up begins with the first, and the others follow. -/
lemma spells_cons_iff (h : pieces ≠ []) : Spells (piece :: pieces) word ↔
    ∃ rest, word = piece ++ rest ∧ Follows pieces rest := by
  induction pieces generalizing piece word with
  | nil => exact absurd rfl h
  | cons next pieces ih =>
    rw [spells_cons h]
    cases pieces with
    | nil =>
      constructor
      · rintro ⟨gap, rest, rfl, rfl⟩
        exact ⟨gap ++ rest, rfl, List.suffix_append gap rest⟩
      · rintro ⟨_, rfl, gap, rfl⟩
        exact ⟨gap, next, rfl, rfl⟩
    | cons last pieces =>
      have hne : last :: pieces ≠ [] := List.cons_ne_nil _ _
      constructor
      · rintro ⟨gap, _, rfl, hspells⟩
        obtain ⟨rest, rfl, hrest⟩ := (ih hne).mp hspells
        exact ⟨_, rfl, (follows_cons hne).mpr ⟨gap, rest, rfl, hrest⟩⟩
      · rintro ⟨_, rfl, hfollows⟩
        obtain ⟨gap, rest, rfl, hrest⟩ := (follows_cons hne).mp hfollows
        exact ⟨gap, next ++ rest, rfl, (ih hne).mpr ⟨rest, rfl, hrest⟩⟩

/-! ### Patterns -/

variable [DecidableEq α] {star : α} {pattern : List α}

/-- A pattern with its stars filled in turn. -/
def fill (star : α) : List α → List (List α) → List α
  | [], _ => []
  | a :: pattern, gaps =>
    if a = star then gaps.headD [] ++ fill star pattern gaps.tail else a :: fill star pattern gaps

/-- **The words a pattern spells** are those that its pieces make up. -/
theorem exists_fill_iff :
    (∃ gaps, fill star pattern gaps = word) ↔ Spells (pattern.splitOn star) word := by
  induction pattern generalizing word with
  | nil => simp [fill, Spells, eq_comm]
  | cons a pattern ih =>
    have hne := List.splitOn_ne_nil star pattern
    rw [List.splitOn_cons_eq_if_modifyHead]
    by_cases ha : a = star
    · rw [if_pos (beq_iff_eq.mpr ha), spells_cons hne]
      simp only [fill, if_pos ha]
      constructor
      · rintro ⟨gaps, rfl⟩
        exact ⟨gaps.headD [], _, rfl, ih.mp ⟨gaps.tail, rfl⟩⟩
      · rintro ⟨gap, rest, rfl, hrest⟩
        obtain ⟨gaps, rfl⟩ := ih.mpr hrest
        exact ⟨gap :: gaps, rfl⟩
    · rw [if_neg (by simpa using ha)]
      simp only [fill, if_neg ha]
      obtain ⟨piece, pieces, hsplit⟩ := List.exists_cons_of_ne_nil hne
      rw [hsplit] at ih ⊢
      have hhead : Spells ((a :: piece) :: pieces) word ↔
          ∃ rest, word = a :: rest ∧ Spells (piece :: pieces) rest := by
        cases pieces with
        | nil => simp [Spells]
        | cons next pieces =>
          constructor
          · rintro ⟨gap, rest, rfl, h⟩
            exact ⟨_, rfl, gap, rest, rfl, h⟩
          · rintro ⟨_, rfl, gap, rest, rfl, h⟩
            exact ⟨gap, rest, rfl, h⟩
      rw [List.modifyHead_cons, hhead]
      constructor
      · rintro ⟨gaps, rfl⟩
        exact ⟨_, rfl, ih.mp ⟨gaps, rfl⟩⟩
      · rintro ⟨rest, rfl, hrest⟩
        obtain ⟨gaps, rfl⟩ := ih.mpr hrest
        exact ⟨gaps, rfl⟩

end DappyCore.Lib.Wildcard
