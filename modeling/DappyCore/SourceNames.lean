import DappyCore.StopPolicy

/-!
Source paths against their file names. A suffix of a path may cut a component in two, and then the
paths match without their file names.
-/

namespace DappyCore.StopPolicy

open Paths

variable {path front part : List Char} {parts : List (List Char)}

/-! ### Parts -/

lemma isComponent_iff {part : List Char} : isComponent part ↔ part ≠ [] ∧ part ≠ ['.'] :=
  decide_eq_true_iff

lemma isComponent_append (cut : List Char) (h : isComponent part) : isComponent (cut ++ part) := by
  rw [isComponent_iff] at h ⊢
  refine ⟨List.append_ne_nil_of_right_ne_nil _ h.1, fun heq => ?_⟩
  rcases List.append_eq_singleton_iff.mp heq with ⟨-, hpart⟩ | ⟨-, hpart⟩
  · exact h.2 hpart
  · exact h.1 hpart

/-- Where a part is put before a path, it lengthens the first part of it. -/
lemma splitOn_append_parts (front : List Char) {path part : List Char} {parts : List (List Char)}
    (h : path.splitOn '/' = part :: parts) : ∃ before cut,
      (front ++ path).splitOn '/' = before ++ ((cut ++ part) :: parts) := by
  induction front with
  | nil => exact ⟨[], [], h⟩
  | cons c front ih =>
    obtain ⟨before, cut, hsplit⟩ := ih
    rw [List.cons_append, List.splitOn_cons_eq_if_modifyHead, hsplit]
    split_ifs with hc
    · exact ⟨[] :: before, cut, rfl⟩
    · cases before with
      | nil => exact ⟨[], c :: cut, rfl⟩
      | cons first before => exact ⟨(c :: first) :: before, cut, rfl⟩

lemma getLast?_of_fileName {name : List Char} (h : fileName path = some name) :
    (components path).getLast? = some name := (Option.filter_eq_some_iff.mp h).1

/-- A file name at the end of a path is the end of the file name there. -/
lemma fileName_of_suffix {name longer whole : List Char} (hsuf : path <:+ whole)
    (hname : fileName path = some name) (hlonger : fileName whole = some longer) :
    name <:+ longer := by
  obtain ⟨front, rfl⟩ := hsuf
  obtain ⟨part, parts, hsplit⟩ := List.exists_cons_of_ne_nil (List.splitOn_ne_nil '/' path)
  obtain ⟨before, cut, hwhole⟩ := splitOn_append_parts front hsplit
  have hn := getLast?_of_fileName hname
  have hl := getLast?_of_fileName hlonger
  unfold components at hn hl
  rw [hsplit] at hn
  rw [hwhole, List.filter_append] at hl
  generalize hparts : parts.filter isComponent = rest at hn hl
  cases rest with
  | nil =>
    -- the path is its file name, and what is before it in the other lengthens that
    have hpart : isComponent part := by
      by_contra hnot
      rw [List.filter_cons_of_neg hnot, hparts] at hn
      cases hn
    have hcut := isComponent_append cut hpart
    rw [List.filter_cons_of_pos hpart, hparts] at hn
    rw [List.filter_cons_of_pos hcut, hparts, List.getLast?_append] at hl
    obtain rfl : part = name := by simpa using hn
    obtain rfl : cut ++ part = longer := by simpa using hl
    exact List.suffix_append cut part
  | cons next rest =>
    -- the last component is past any cut
    have hlast : ∀ first : List Char,
        ((first :: parts).filter isComponent).getLast? = (next :: rest).getLast? := by
      intro first
      rw [List.filter_cons, hparts]
      split_ifs
      · exact List.getLast?_cons_cons
      · rfl
    rw [hlast] at hn
    rw [List.getLast?_append, hlast, hn, Option.some_or] at hl
    obtain rfl := Option.some.inj hl
    exact List.suffix_rfl

/-! ### Matches -/

/-- The tests on paths come down to suffixes and file names. -/
lemma sourcePathsMatch_iff (stored current : List Char) : sourcePathsMatch stored current = true ↔
    normalize stored <:+ normalize current ∨ normalize current <:+ normalize stored ∨
      (fileName (normalize stored)).isSome ∧
        fileName (normalize stored) = fileName (normalize current) := by
  unfold sourcePathsMatch
  by_cases hsame : stored = current
  · simp [hsame]
  · rw [if_neg hsame]
    by_cases hnorm : normalize stored = normalize current
    · simp [hnorm]
    · have hguarded : ∀ {a b : List Char}, '/' :: a <:+ b → a <:+ b := fun h =>
        (List.suffix_cons _ _).trans h
      rw [if_neg hnorm]
      split_ifs with hsuf
      · simp only [Bool.or_eq_true, List.isSuffixOf_iff_suffix] at hsuf
        rcases hsuf with ((h | h) | h) | h
        · simp [h]
        · simp [h]
        · simp [hguarded h]
        · simp [hguarded h]
      · simp only [Bool.or_eq_true, List.isSuffixOf_iff_suffix, not_or] at hsuf
        simp [hsuf.1.1.1, hsuf.1.1.2]

/-- It does not matter which path is the stored one. -/
lemma sourcePathsMatch_comm (stored current : List Char) :
    sourcePathsMatch stored current = sourcePathsMatch current stored := by
  rw [Bool.eq_iff_iff, sourcePathsMatch_iff, sourcePathsMatch_iff]
  constructor
  · rintro (h | h | ⟨hsome, heq⟩)
    · exact .inr (.inl h)
    · exact .inl h
    · exact .inr (.inr ⟨heq ▸ hsome, heq.symm⟩)
  · rintro (h | h | ⟨hsome, heq⟩)
    · exact .inr (.inl h)
    · exact .inl h
    · exact .inr (.inr ⟨heq ▸ hsome, heq.symm⟩)

/-! ### The law -/

/-- A path that ends in a file name. -/
structure SourcePath where
  path : List Char
  name : List Char
  named : fileName (normalize path) = some name

/-- Two paths match by their file names, whichever is the stored one. -/
structure MatchByName (stored current : SourcePath) : Prop where
  by_name : sourcePathsMatch stored.path current.path = true ↔ stored.name = current.name
  symm : sourcePathsMatch stored.path current.path = sourcePathsMatch current.path stored.path

/-- The first path ends the other as a text, where its file name is only the rest of a longer
one. -/
def Cuts (a b : SourcePath) : Prop :=
  normalize a.path <:+ normalize b.path ∧ ∃ front, front ≠ [] ∧ b.name = front ++ a.name

lemma cuts_iff (a b : SourcePath) :
    Cuts a b ↔ normalize a.path <:+ normalize b.path ∧ a.name ≠ b.name := by
  refine and_congr_right fun hsuf => ?_
  constructor
  · rintro ⟨front, hne, hname⟩ heq
    rw [heq, List.self_eq_append_left] at hname
    exact hne hname
  · intro hne
    obtain ⟨front, hname⟩ := fileName_of_suffix hsuf a.named b.named
    refine ⟨front, ?_, hname.symm⟩
    rintro rfl
    exact hne hname

/-- **Paths match by whole file names** exactly where neither ends the other within a name. -/
theorem match_by_name_iff (stored current : SourcePath) :
    MatchByName stored current ↔ ¬ Cuts stored current ∧ ¬ Cuts current stored := by
  have hmatch := sourcePathsMatch_iff stored.path current.path
  rw [stored.named, current.named, Option.some_inj, Option.isSome_some, and_iff_right rfl] at hmatch
  rw [cuts_iff, cuts_iff]
  constructor
  · intro h
    have hname := hmatch.symm.trans h.by_name
    exact ⟨fun ⟨hsuf, hne⟩ => hne (hname.mp (.inl hsuf)),
      fun ⟨hsuf, hne⟩ => hne (hname.mp (.inr (.inl hsuf))).symm⟩
  · rintro ⟨hstored, hcurrent⟩
    refine ⟨hmatch.trans ⟨?_, fun heq => .inr (.inr heq)⟩, sourcePathsMatch_comm _ _⟩
    rintro (hsuf | hsuf | heq)
    · exact not_not.mp fun hne => hstored ⟨hsuf, hne⟩
    · exact not_not.mp fun hne => hcurrent ⟨hsuf, Ne.symm hne⟩
    · exact heq

def mainPath : SourcePath := ⟨"main.py".toList, "main.py".toList, by decide⟩

def domainPath : SourcePath := ⟨"/proj/domain.py".toList, "domain.py".toList, by decide⟩

theorem main_matches_domain : ¬ MatchByName mainPath domainPath := by
  intro h
  have hname := h.by_name.mp (by decide)
  exact absurd hname (by decide)

end DappyCore.StopPolicy
