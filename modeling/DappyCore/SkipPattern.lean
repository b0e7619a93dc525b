import DappyCore.Lib.Wildcard
import DappyCore.StopPolicy

/-!
The patterns of paths to skip. The loop over the parts of a pattern takes each at its first
occurrence, and finds the paths that the pattern spells all the same.
-/

namespace DappyCore.StopPolicy

open Lib.Text Lib.Wildcard

variable {path pattern : List Char}

/-- The loop past the first part: each one is looked for in what is left, the last at its end. -/
lemma matchParts_of_pos {count index : ℕ} {parts : List (List Char)} {cursor : List Char}
    (hpos : 0 < index) (hcount : index + parts.length = count) :
    ∃ found, matchParts count index parts cursor = some found ∧
      (found = true ↔ Follows parts cursor) := by
  induction parts generalizing index cursor with
  | nil => exact ⟨true, rfl, by simp [Follows]⟩
  | cons part parts ih =>
    rw [List.length_cons] at hcount
    have hnext : ∀ rest, ∃ found, matchParts count (index + 1) parts rest = some found ∧
        (found = true ↔ Follows parts rest) := fun rest =>
      ih (Nat.succ_pos index) (by omega)
    by_cases hpart : part = []
    · -- two wildcards in a row
      obtain ⟨found, hfound, hiff⟩ := hnext cursor
      refine ⟨found, ?_, ?_⟩
      · rw [matchParts, if_pos hpart, hfound]
      · rw [hiff, hpart, follows_nil_cons]
    · rw [matchParts, if_neg hpart, if_neg (by omega)]
      by_cases hlast : parts = []
      · -- the last part stands at the end
        subst hlast
        have hindex : index = count - 1 := by
          rw [List.length_nil] at hcount
          omega
        exact ⟨_, if_pos hindex, List.isSuffixOf_iff_suffix⟩
      · -- a part between wildcards: its first place is as good as any later one
        have hlen := List.length_pos_of_ne_nil hlast
        rw [if_neg (by omega)]
        cases hfind : find part cursor with
        | none =>
          refine ⟨false, rfl, ?_⟩
          rw [follows_cons hlast]
          refine iff_of_false Bool.false_ne_true ?_
          rintro ⟨gap, rest, rfl, -⟩
          exact find_eq_none_iff.mp hfind ⟨gap, rest, by simp⟩
        | some pos =>
          obtain ⟨before, after, rfl, rfl, hfirst⟩ := find_eq_some hfind
          obtain ⟨found, hfound, hiff⟩ := hnext after
          refine ⟨found, ?_, ?_⟩
          · have hslice : sliceFrom (before ++ (part ++ after)) (size before + size part) =
                some after := by
              rw [← List.append_assoc]
              exact sliceFrom_append (size_append before part)
            simp only [hslice, Option.bind_some, hfound]
          · rw [hiff, follows_of_first hlast hfirst]

/-- The whole loop: the first part is where the path begins. -/
lemma matchParts_zero {part : List Char} {parts : List (List Char)} (h : parts ≠ []) :
    ∃ found, matchParts (part :: parts).length 0 (part :: parts) path = some found ∧
      (found = true ↔ Spells (part :: parts) path) := by
  have hnext : ∀ rest, ∃ found, matchParts (part :: parts).length 1 parts rest = some found ∧
      (found = true ↔ Follows parts rest) := fun rest =>
    matchParts_of_pos Nat.one_pos (by rw [List.length_cons, Nat.add_comm])
  by_cases hpart : part = []
  · obtain ⟨found, hfound, hiff⟩ := hnext path
    refine ⟨found, ?_, ?_⟩
    · rw [matchParts, if_pos hpart, hfound]
    · rw [hiff, hpart, spells_cons_iff h]
      simp
  · rw [matchParts, if_neg hpart, if_pos rfl, spells_cons_iff h]
    by_cases hpre : part <+: path
    · obtain ⟨rest, rfl⟩ := hpre
      obtain ⟨found, hfound, hiff⟩ := hnext rest
      refine ⟨found, ?_, ?_⟩
      · rw [if_pos (List.isPrefixOf_iff_prefix.mpr (List.prefix_append part rest)),
          sliceFrom_append rfl, Option.bind_some, hfound]
      · rw [hiff]
        simp
    · refine ⟨false, if_neg (mt List.isPrefixOf_iff_prefix.mp hpre), ?_⟩
      refine iff_of_false Bool.false_ne_true ?_
      rintro ⟨rest, rfl, -⟩
      exact hpre (List.prefix_append part rest)

/-- A pattern with a star has more than one part. -/
lemma splitOn_of_mem (h : '*' ∈ pattern) :
    ∃ part parts, pattern.splitOn '*' = part :: parts ∧ parts ≠ [] := by
  obtain ⟨front, rest, rfl⟩ := List.append_of_mem h
  rw [List.splitOn_append_cons_self]
  obtain ⟨part, parts, hfront⟩ := List.exists_cons_of_ne_nil (List.splitOn_ne_nil '*' front)
  rw [hfront]
  exact ⟨part, parts ++ rest.splitOn '*', rfl,
    List.append_ne_nil_of_right_ne_nil _ (List.splitOn_ne_nil '*' rest)⟩

lemma matchParts_splitOn (h : '*' ∈ pattern) :
    ∃ found, matchParts (pattern.splitOn '*').length 0 (pattern.splitOn '*') path = some found ∧
      (found = true ↔ ∃ gaps, fill '*' pattern gaps = path) := by
  rw [exists_fill_iff]
  obtain ⟨part, parts, hsplit, hparts⟩ := splitOn_of_mem h
  rw [hsplit]
  exact matchParts_zero hparts

lemma isSome_find_iff {part text : List Char} : (find part text).isSome ↔ part <:+: text := by
  rw [Option.isSome_iff_ne_none, Ne, find_eq_none_iff, not_not]

/-- Without a star, a pattern is looked for anywhere in the path. -/
lemma pathMatchesSkip_of_notMem (hnil : pattern ≠ []) (hstar : '*' ∉ pattern) :
    pathMatchesSkip path pattern = some (find pattern path).isSome := by
  rw [pathMatchesSkip, if_neg hnil, if_neg hstar]

/-- **A pattern matches what it spells**: with stars, the paths that come of putting texts in their
place; without one, the paths it is part of. No slice on the way panics. -/
theorem path_matches_skip (path pattern : List Char) :
    ∃ found, pathMatchesSkip path pattern = some found ∧ (found = true ↔ pattern ≠ [] ∧
      if '*' ∈ pattern then ∃ gaps, fill '*' pattern gaps = path else pattern <:+: path) := by
  unfold pathMatchesSkip
  by_cases hnil : pattern = []
  · exact ⟨false, if_pos hnil, by simp [hnil]⟩
  · rw [if_neg hnil]
    by_cases hstar : '*' ∈ pattern
    · obtain ⟨found, hfound, hiff⟩ :
          ∃ found, matchParts _ 0 (pattern.splitOn '*') path = some found ∧
            (found = true ↔ ∃ gaps, fill '*' pattern gaps = path) := matchParts_splitOn hstar
      refine ⟨found, ?_, ?_⟩
      · rw [if_pos hstar, hfound]
      · rw [hiff, if_pos hstar, and_iff_right hnil]
    · refine ⟨_, if_neg hstar, ?_⟩
      rw [isSome_find_iff, if_neg hstar, and_iff_right hnil]

/-! ### Hidden frames -/

lemma anyM_of_forall {α : Type} {f : α → Option Bool} {g : α → Bool} {l : List α}
    (h : ∀ a ∈ l, f a = some (g a)) : l.anyM f = some (l.any g) := by
  induction l with
  | nil => rfl
  | cons a l ih =>
    obtain ⟨ha, hl⟩ := List.forall_mem_cons.mp h
    rw [List.anyM, ha, List.any_cons]
    cases g a with
    | true => rfl
    | false => exact ih hl

/-- A frame is hidden where one of the default patterns is part of its path. -/
theorem isHiddenStackFrame_eq (path : List Char) (full : Bool) :
    isHiddenStackFrame path full =
      some (!full && defaultHiddenStackPatterns.any fun pattern => (find pattern path).isSome) := by
  have hplain : ∀ pattern ∈ defaultHiddenStackPatterns, pattern ≠ [] ∧ '*' ∉ pattern := by decide
  cases full with
  | true => rfl
  | false =>
    exact anyM_of_forall fun pattern hmem =>
      pathMatchesSkip_of_notMem (hplain pattern hmem).1 (hplain pattern hmem).2

/-- Smart step passes over what a stack trace hides. -/
theorem smartStepShouldSkip_eq (path : List Char) (enabled : Bool) :
    smartStepShouldSkip path enabled = isHiddenStackFrame path !enabled := by
  cases enabled <;> rfl

end DappyCore.StopPolicy
