import DappyCore.Lib.Utf8
import Mathlib.Data.List.Infix

/-!
Places in a text, by the bytes before them. There is one between two characters, and none within
a character: a slice that begins or ends there is no text.
-/

namespace DappyCore.Lib.Text

/-! ### Sizes -/

/-- The bytes of a text, counted. -/
def size : List Char → ℕ
  | [] => 0
  | c :: text => c.utf8Size + size text

@[simp] lemma size_nil : size [] = 0 := rfl

@[simp] lemma size_cons (c : Char) (text : List Char) :
    size (c :: text) = c.utf8Size + size text := rfl

@[simp] lemma size_append (s t : List Char) : size (s ++ t) = size s + size t := by
  induction s with
  | nil => exact (Nat.zero_add _).symm
  | cons c s ih => rw [List.cons_append, size_cons, size_cons, ih, Nat.add_assoc]

lemma length_encode (text : List Char) : (Utf8.encode text).length = size text := by
  induction text with
  | nil => rfl
  | cons c text ih => simpa [Utf8.encode] using ih

lemma length_le_size (text : List Char) : text.length ≤ size text := by
  induction text with
  | nil => exact Nat.le_refl _
  | cons c text ih =>
    have hc := c.utf8Size_pos
    simp only [List.length_cons, size_cons]
    omega

@[simp] lemma size_eq_zero_iff {text : List Char} : size text = 0 ↔ text = [] := by
  constructor
  · intro h
    have hlen := length_le_size text
    exact List.length_eq_zero_iff.mp (by omega)
  · rintro rfl
    rfl

/-- Where every character takes one byte, bytes and characters count the same. -/
lemma size_eq_length {text : List Char} (h : ∀ c ∈ text, c.utf8Size = 1) :
    size text = text.length := by
  induction text with
  | nil => rfl
  | cons c text ih =>
    obtain ⟨hc, htext⟩ := List.forall_mem_cons.mp h
    rw [size_cons, hc, ih htext, List.length_cons, Nat.add_comm]

/-! ### Cuts -/

/-- A text cut after so many bytes. -/
def cut : List Char → ℕ → Option (List Char × List Char)
  | text, 0 => some ([], text)
  | [], _ + 1 => none
  | c :: text, n + 1 =>
    if c.utf8Size ≤ n + 1 then
      (cut text (n + 1 - c.utf8Size)).map fun (front, rest) => (c :: front, rest)
    else none

@[simp] lemma cut_zero (text : List Char) : cut text 0 = some ([], text) := by
  cases text <;> rfl

lemma cut_cons {c : Char} {text : List Char} {n : ℕ} (h : c.utf8Size ≤ n) :
    cut (c :: text) n =
      (cut text (n - c.utf8Size)).map fun (front, rest) => (c :: front, rest) := by
  cases n with
  | zero =>
    have hc := c.utf8Size_pos
    omega
  | succ n => rw [cut, if_pos h]

/-- There is no place within a character. -/
lemma cut_cons_of_lt {c : Char} {text : List Char} {n : ℕ} (hpos : 0 < n) (h : n < c.utf8Size) :
    cut (c :: text) n = none := by
  cases n with
  | zero => cases hpos
  | succ n => rw [cut, if_neg (by omega)]

lemma cut_append (front rest : List Char) :
    cut (front ++ rest) (size front) = some (front, rest) := by
  induction front with
  | nil => exact cut_zero rest
  | cons c front ih =>
    rw [List.cons_append, size_cons, cut_cons (Nat.le_add_right _ _), Nat.add_sub_cancel_left, ih]
    rfl

/-- **A cut** takes a text apart at a place that is between two characters. -/
theorem cut_eq_some_iff {text front rest : List Char} {n : ℕ} :
    cut text n = some (front, rest) ↔ text = front ++ rest ∧ size front = n := by
  constructor
  · intro h
    induction text generalizing n front with
    | nil =>
      cases n with
      | zero =>
        obtain ⟨rfl, rfl⟩ := Prod.mk.inj (Option.some.inj h)
        exact ⟨rfl, rfl⟩
      | succ n => cases h
    | cons c text ih =>
      cases n with
      | zero =>
        obtain ⟨rfl, rfl⟩ := Prod.mk.inj (Option.some.inj h)
        exact ⟨rfl, rfl⟩
      | succ n =>
        by_cases hc : c.utf8Size ≤ n + 1
        · rw [cut_cons hc, Option.map_eq_some_iff] at h
          obtain ⟨⟨front', rest'⟩, hcut, heq⟩ := h
          obtain ⟨rfl, rfl⟩ := Prod.mk.inj heq
          obtain ⟨rfl, hsize⟩ := ih hcut
          refine ⟨rfl, ?_⟩
          rw [size_cons, hsize]
          omega
        · rw [cut_cons_of_lt (Nat.succ_pos n) (by omega)] at h
          cases h
  · rintro ⟨rfl, rfl⟩
    exact cut_append front rest

/-! ### Slices -/

/-- `&text[..stop]`. -/
def sliceTo (text : List Char) (stop : ℕ) : Option (List Char) := (cut text stop).map (·.1)

/-- `&text[start..]`. -/
def sliceFrom (text : List Char) (start : ℕ) : Option (List Char) := (cut text start).map (·.2)

/-- `&text[start..stop]`. -/
def slice (text : List Char) (start stop : ℕ) : Option (List Char) :=
  (sliceFrom text start).bind fun rest =>
    if start ≤ stop then sliceTo rest (stop - start) else none

lemma sliceTo_eq_some_iff {text front : List Char} {n : ℕ} :
    sliceTo text n = some front ↔ front <+: text ∧ size front = n := by
  simp only [sliceTo, Option.map_eq_some_iff, Prod.exists, cut_eq_some_iff]
  constructor
  · rintro ⟨_, rest, ⟨rfl, hsize⟩, rfl⟩
    exact ⟨List.prefix_append _ rest, hsize⟩
  · rintro ⟨⟨rest, rfl⟩, hsize⟩
    exact ⟨front, rest, ⟨rfl, hsize⟩, rfl⟩

lemma sliceFrom_append {front rest : List Char} {n : ℕ} (h : size front = n) :
    sliceFrom (front ++ rest) n = some rest := by
  rw [sliceFrom, ← h, cut_append, Option.map_some]

lemma sliceTo_append {front rest : List Char} {n : ℕ} (h : size front = n) :
    sliceTo (front ++ rest) n = some front :=
  sliceTo_eq_some_iff.mpr ⟨List.prefix_append front rest, h⟩

lemma slice_of_append {front rest : List Char} {n m : ℕ} (hn : size front = n) :
    slice (front ++ rest) n (n + m) = sliceTo rest m := by
  rw [slice, sliceFrom_append hn, Option.bind_some, if_pos (Nat.le_add_right n m),
    Nat.add_sub_cancel_left]

lemma slice_append {front part rest : List Char} {n m : ℕ} (hn : size front = n)
    (hm : size front + size part = m) : slice (front ++ (part ++ rest)) n m = some part := by
  rw [slice, sliceFrom_append hn, Option.bind_some, if_pos (by omega), sliceTo_append (by omega)]

/-! ### Occurrences -/

/-- `text.find(part)`: the place of the first occurrence. -/
def find (part : List Char) : List Char → Option ℕ
  | [] => if part = [] then some 0 else none
  | c :: text =>
    if part.isPrefixOf (c :: text) then some 0 else (find part text).map (c.utf8Size + ·)

/-- **What is found is the first occurrence**: any other begins no earlier. -/
lemma find_eq_some {part text : List Char} {n : ℕ} (h : find part text = some n) :
    ∃ before after, text = before ++ (part ++ after) ∧ size before = n ∧
      ∀ before' after', text = before' ++ (part ++ after') → before <+: before' := by
  induction text generalizing n with
  | nil =>
    unfold find at h
    split_ifs at h with hpart
    cases h
    exact ⟨[], [], by simp [hpart], rfl, fun _ _ _ => List.nil_prefix⟩
  | cons c text ih =>
    unfold find at h
    split_ifs at h with hpre
    · cases h
      obtain ⟨after, hafter⟩ := List.isPrefixOf_iff_prefix.mp hpre
      exact ⟨[], after, hafter.symm, rfl, fun _ _ _ => List.nil_prefix⟩
    · obtain ⟨m, hm, rfl⟩ := Option.map_eq_some_iff.mp h
      obtain ⟨before, after, rfl, rfl, hfirst⟩ := ih hm
      refine ⟨c :: before, after, rfl, rfl, fun before' after' heq => ?_⟩
      cases before' with
      | nil => exact absurd (List.isPrefixOf_iff_prefix.mpr ⟨after', heq.symm⟩) hpre
      | cons d before' =>
        obtain ⟨rfl, htail⟩ := List.cons.inj heq
        exact List.cons_prefix_cons.mpr ⟨rfl, hfirst before' after' htail⟩

lemma find_eq_none_iff {part text : List Char} : find part text = none ↔ ¬ part <:+: text := by
  induction text with
  | nil => simp [find]
  | cons c text ih =>
    rw [List.infix_cons_iff, ← List.isPrefixOf_iff_prefix]
    unfold find
    split_ifs with hpre
    · simp [hpre]
    · simp [hpre, ih]

/-- `text.find(p)` for characters: the place of the first one that is meant. -/
def position (p : Char → Bool) : List Char → Option ℕ
  | [] => none
  | c :: text => if p c then some 0 else (position p text).map (c.utf8Size + ·)

/-- **The first character that is meant** comes after those that are not. -/
lemma position_eq (p : Char → Bool) (text : List Char) : (position p text).getD (size text) =
    size (text.takeWhile (! p ·)) := by
  induction text with
  | nil => rfl
  | cons c text ih =>
    unfold position
    split_ifs with hc
    · simp [hc]
    · rw [List.takeWhile_cons_of_pos (by simpa using hc), size_cons, size_cons, ← ih]
      cases position p text <;> rfl

end DappyCore.Lib.Text
