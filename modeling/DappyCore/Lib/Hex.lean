import Mathlib.Algebra.Ring.Nat
import Mathlib.Data.List.Induction
import Mathlib.Data.Nat.Notation

/-!
Numbers in hexadecimal: read from digits of either case, and written in capitals with zeros before
them.
-/

namespace DappyCore.Lib.Hex

/-! ### Digits -/

/-- `char::to_digit(16)`. -/
def digitValue (c : Char) : Option ℕ :=
  if 48 ≤ c.toNat ∧ c.toNat ≤ 57 then some (c.toNat - 48)
  else if 97 ≤ c.toNat ∧ c.toNat ≤ 102 then some (c.toNat - 87)
  else if 65 ≤ c.toNat ∧ c.toNat ≤ 70 then some (c.toNat - 55)
  else none

def isHexDigit (c : Char) : Bool := (digitValue c).isSome

/-- The capital digit of a number below sixteen. -/
def upperDigit (n : ℕ) : Char := n.digitChar.toUpper

lemma digitValue_upperDigit {n : ℕ} (h : n < 16) : digitValue (upperDigit n) = some n := by
  have hall : ∀ n < 16, digitValue (upperDigit n) = some n := by decide
  exact hall n h

lemma lt_of_digitValue {c : Char} {n : ℕ} (h : digitValue c = some n) : n < 16 ∧ c.toNat < 128 := by
  unfold digitValue at h
  split_ifs at h <;> cases h <;> omega

/-- A digit in capitals is the capital digit of its value. -/
lemma upperDigit_of_digitValue {c : Char} {n : ℕ} (h : digitValue c = some n) :
    c.toUpper = upperDigit n := by
  have hall : ∀ k < 128, ∀ n < 16, digitValue (Char.ofNat k) = some n →
      (Char.ofNat k).toUpper = upperDigit n := by decide
  obtain ⟨hn, hc⟩ := lt_of_digitValue h
  have hchar : Char.ofNat c.toNat = c := Char.ofNat_toNat c
  exact hchar ▸ hall c.toNat hc n hn (hchar.symm ▸ h)

/-! ### Reading -/

/-- The value of some digits, more significant ones first. -/
def value (digits : List Char) : Option ℕ :=
  digits.foldlM (fun n c => (digitValue c).map (16 * n + ·)) 0

/-- `from_str_radix(text, 16)` of an unsigned type of this maximum. -/
def fromStr (max : ℕ) (text : List Char) : Option ℕ :=
  let digits := if text.head? = some '+' then text.tail else text
  if digits = [] then none else (value digits).filter (· ≤ max)

@[simp] lemma value_nil : value [] = some 0 := rfl

lemma value_concat (digits : List Char) (c : Char) : value (digits ++ [c]) =
    (value digits).bind fun n => (digitValue c).map (16 * n + ·) := by
  rw [value, List.foldlM_append]
  cases hd : digits.foldlM (fun n c => (digitValue c).map (16 * n + ·)) 0 with
  | none => simp [value, hd]
  | some n => simp [value, hd]

lemma isSome_of_value {digits : List Char} {n : ℕ} (h : value digits = some n) :
    ∀ c ∈ digits, isHexDigit c := by
  induction digits using List.reverseRecOn generalizing n with
  | nil => simp
  | append_singleton digits c ih =>
    rw [value_concat, Option.bind_eq_some_iff] at h
    obtain ⟨m, hm, hc⟩ := h
    refine List.forall_mem_append.mpr ⟨ih hm, ?_⟩
    rw [List.forall_mem_singleton, isHexDigit]
    cases hd : digitValue c with
    | none => simp [hd] at hc
    | some d => rfl

/-- A text that is read is of digits, but for a sign. -/
lemma mem_of_fromStr {max n : ℕ} {text : List Char} (h : fromStr max text = some n) :
    ∀ c ∈ text, c = '+' ∨ isHexDigit c := by
  unfold fromStr at h
  dsimp only at h
  split_ifs at h with hsign hnil hnil
  · have hvalue := (Option.filter_eq_some_iff.mp h).1
    obtain ⟨rest, rfl⟩ := List.head?_eq_some_iff.mp hsign
    intro c hc
    exact (List.mem_cons.mp hc).imp_right (isSome_of_value hvalue c)
  · have hvalue := (Option.filter_eq_some_iff.mp h).1
    intro c hc
    exact .inr (isSome_of_value hvalue c hc)

/-- Zeros before a number do not count. -/
lemma value_replicate_append (k : ℕ) (digits : List Char) :
    value (List.replicate k '0' ++ digits) = value digits := by
  induction k with
  | zero => rfl
  | succ k ih =>
    rw [← ih]
    rfl

/-! ### Writing -/

/-- The number in capital digits, `{:X}`. -/
def upper (n : ℕ) : List Char := (Nat.toDigits 16 n).map Char.toUpper

/-- The number with zeros before it up to this width, `{:0width$X}`. -/
def padded (width n : ℕ) : List Char := (upper n).leftpad width '0'

lemma upper_of_lt {n : ℕ} (h : n < 16) : upper n = [upperDigit n] := by
  rw [upper, Nat.toDigits_of_lt_base h]
  rfl

lemma upper_of_le {n : ℕ} (h : 16 ≤ n) : upper n = upper (n / 16) ++ [upperDigit (n % 16)] := by
  rw [upper, Nat.toDigits_of_base_le (by decide) h, List.map_append]
  rfl

/-- **A number that is written is read back.** -/
theorem value_upper (n : ℕ) : value (upper n) = some n := by
  induction n using Nat.strongRecOn with
  | ind n ih =>
    by_cases h : n < 16
    · rw [upper_of_lt h, ← List.nil_append [upperDigit n], value_concat, value_nil,
        Option.bind_some, digitValue_upperDigit h]
      simp
    · rw [upper_of_le (by omega), value_concat, ih (n / 16) (by omega), Option.bind_some,
        digitValue_upperDigit (Nat.mod_lt n (by decide)), Option.map_some, Nat.div_add_mod]

lemma value_padded (width n : ℕ) : value (padded width n) = some n := by
  rw [padded, List.leftpad, value_replicate_append, value_upper]

lemma length_padded {width n : ℕ} (hpos : 0 < width) (h : n < 16 ^ width) :
    (padded width n).length = width := by
  have hlen : (upper n).length ≤ width := by
    rw [upper, List.length_map, Nat.length_toDigits_le_iff (by decide) hpos]
    exact h
  rw [padded, List.length_leftpad, Nat.max_eq_left hlen]

lemma isHexDigit_of_mem_padded {width n : ℕ} {c : Char} (h : c ∈ padded width n) : isHexDigit c :=
  isSome_of_value (value_padded width n) c h

lemma padded_ne_nil (width n : ℕ) : padded width n ≠ [] := by
  rw [padded, List.leftpad]
  refine List.append_ne_nil_of_right_ne_nil _ ?_
  rw [upper, Ne, List.map_eq_nil_iff]
  exact Nat.toDigits_ne_nil

/-- What is written with zeros before it is read back, where it is not too large to be read. -/
lemma fromStr_padded {max n : ℕ} (width : ℕ) (h : n ≤ max) :
    fromStr max (padded width n) = some n := by
  have hsign : (padded width n).head? ≠ some '+' := by
    intro hplus
    have hdigit := isHexDigit_of_mem_padded (List.mem_of_head? hplus)
    exact absurd hdigit (by decide)
  rw [fromStr, if_neg hsign, if_neg (padded_ne_nil width n), value_padded, Option.filter_some,
    if_pos (by simpa using h)]

/-- A byte is written with two digits. -/
lemma padded_two {n : ℕ} (h : n < 256) :
    padded 2 n = [upperDigit (n / 16), upperDigit (n % 16)] := by
  by_cases hlt : n < 16
  · rw [padded, upper_of_lt hlt, Nat.div_eq_of_lt hlt, Nat.mod_eq_of_lt hlt]
    rfl
  · rw [padded, upper_of_le (by omega), upper_of_lt (by omega)]
    rfl

end DappyCore.Lib.Hex
