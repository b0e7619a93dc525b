import Mathlib.Data.List.Basic

/-!
Texts put together of words with a separator between them, and of lines with one after each; and
how they come apart again.
-/

namespace DappyCore.Lib.Words

variable {α : Type*} [DecidableEq α] {sep : α}

/-! ### Lines -/

lemma splitOn_lines {lines : List (List α)} (h : ∀ line ∈ lines, sep ∉ line) :
    (lines.flatMap (· ++ [sep])).splitOn sep = lines ++ [[]] := by
  induction lines with
  | nil => exact List.splitOn_nil sep
  | cons line lines ih =>
    obtain ⟨hline, hlines⟩ := List.forall_mem_cons.mp h
    rw [List.flatMap_cons, List.append_assoc, List.singleton_append,
      List.splitOn_append_cons_self, List.splitOn_eq_singleton hline, ih hlines]
    rfl

/-! ### Words -/

/-- The words of a text: what is between the separators, of any length but none. -/
def words (sep : α) (text : List α) : List (List α) := (text.splitOn sep).filter (· ≠ [])

@[simp] lemma words_nil : words sep [] = [] := by simp [words]

lemma words_append_cons (front rest : List α) :
    words sep (front ++ sep :: rest) = words sep front ++ words sep rest := by
  rw [words, List.splitOn_append_cons_self, List.filter_append]
  rfl

lemma words_cons (rest : List α) : words sep (sep :: rest) = words sep rest := by
  rw [← List.nil_append (sep :: rest), words_append_cons, words_nil, List.nil_append]

/-- A text that the separator ends adds its own words only. -/
lemma words_concat_append (front rest : List α) :
    words sep (front ++ [sep] ++ rest) = words sep (front ++ [sep]) ++ words sep rest := by
  rw [List.append_assoc, List.singleton_append, words_append_cons, words_append_cons, words_nil,
    List.append_nil]

lemma words_of_notMem {word : List α} (hne : word ≠ []) (h : sep ∉ word) :
    words sep (word ++ [sep]) = [word] := by
  rw [words_append_cons, words_nil, List.append_nil, words, List.splitOn_eq_singleton h]
  simp [hne]

lemma words_replicate (n : ℕ) : words sep (List.replicate n sep) = [] := by
  induction n with
  | zero => exact words_nil
  | succ n ih => rw [List.replicate_succ, words_cons, ih]

end DappyCore.Lib.Words
