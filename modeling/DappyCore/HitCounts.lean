import DappyCore.StopPolicy
import DappyCore.TransportSteps

/-!
Hit conditions against arithmetic. A numeral past `u32` does not parse, and each operator then goes
by a default of its own.
-/

namespace DappyCore.StopPolicy

open Transport

/-! ### Conditions -/

/-- A text of blanks. -/
def Blank (text : List Char) : Prop := ∀ c ∈ text, isWhitespace c

/-- A decimal numeral. -/
structure Numeral where
  digits : List Char
  ne_nil : digits ≠ []
  isDigit : ∀ c ∈ digits, c.isDigit

def Numeral.value (n : Numeral) : ℕ := Nat.ofDigitChars 10 n.digits 0

inductive Operator | atLeast | atMost | above | below | multiple | bare
  deriving DecidableEq

namespace Operator

def symbol : Operator → List Char
  | atLeast => ['>', '=']
  | atMost => ['<', '=']
  | above => ['>']
  | below => ['<']
  | multiple => ['%']
  | bare => []

/-- What the operator says of a count and a number. -/
def Holds : Operator → ℕ → ℕ → Prop
  | atLeast, count, n => n ≤ count
  | atMost, count, n => count ≤ n
  | above, count, n => n < count
  | below, count, n => count < n
  | multiple, count, n => n ∣ count
  | bare, count, n => n ≤ count

/-- The operators that only a smaller number makes hold. -/
def Lower (op : Operator) : Prop := op = atLeast ∨ op = above ∨ op = bare

lemma Lower.holds {op : Operator} (h : op.Lower) {count m n : ℕ} (hle : m ≤ n)
    (hn : op.Holds count n) : op.Holds count m := by
  rcases h with rfl | rfl | rfl
  · exact Nat.le_trans hle hn
  · exact Nat.lt_of_le_of_lt hle hn
  · exact Nat.le_trans hle hn

end Operator

/-- An operator and a numeral, with blanks around them. -/
structure HitCondition where
  operator : Operator
  numeral : Numeral
  before : List Char
  between : List Char
  after : List Char
  blank_before : Blank before
  blank_between : Blank between
  blank_after : Blank after
  pos : operator = .multiple → 0 < numeral.value

def HitCondition.text (c : HitCondition) : List Char :=
  c.before ++ (c.operator.symbol ++ (c.between ++ (c.numeral.digits ++ c.after)))

/-! ### Blanks -/

lemma Blank.append {s t : List Char} (hs : Blank s) (ht : Blank t) : Blank (s ++ t) :=
  List.forall_mem_append.mpr ⟨hs, ht⟩

/-- What has no blank at its ends is what is left of it between blanks. -/
lemma trim_between {before body after : List Char} (hbefore : Blank before) (hafter : Blank after)
    (hne : body ≠ []) (hhead : isWhitespace (body.head hne) = false)
    (hlast : isWhitespace (body.getLast hne) = false) :
    trim (before ++ (body ++ after)) = body := by
  have hdrop : (before ++ (body ++ after)).dropWhile isWhitespace = body ++ after := by
    rw [List.dropWhile_append_of_pos hbefore]
    obtain ⟨a, body, rfl⟩ := List.exists_cons_of_ne_nil hne
    rw [List.head_cons] at hhead
    rw [List.cons_append, List.dropWhile_cons_of_neg (by simp [hhead])]
  rw [trim, hdrop, rdropWhile_append_pos hafter, List.rdropWhile_eq_self_iff]
  intro _
  simp [hlast]

variable {n : Numeral} {op : Operator}

lemma Numeral.not_isWhitespace (n : Numeral) {c : Char} (hc : c ∈ n.digits) :
    isWhitespace c = false := not_isWhitespace_of_isDigit (n.isDigit c hc)

lemma Numeral.trim_digits (n : Numeral) {before after : List Char} (hbefore : Blank before)
    (hafter : Blank after) : trim (before ++ (n.digits ++ after)) = n.digits :=
  trim_between hbefore hafter n.ne_nil (n.not_isWhitespace (List.head_mem n.ne_nil))
    (n.not_isWhitespace (List.getLast_mem n.ne_nil))

lemma Operator.symbol_ne_nil (h : op ≠ .bare) : op.symbol ≠ [] := by
  cases op <;> simp_all [symbol]

lemma Operator.not_isWhitespace_symbol {c : Char} (hc : c ∈ op.symbol) :
    isWhitespace c = false := by
  cases op <;> simp only [symbol, List.mem_cons, List.not_mem_nil, or_false] at hc
  case atLeast | atMost => rcases hc with rfl | rfl <;> decide
  all_goals subst hc; decide

/-- A condition without its outer blanks. -/
lemma HitCondition.trim_text (c : HitCondition) (h : c.operator ≠ .bare) :
    trim c.text = c.operator.symbol ++ (c.between ++ c.numeral.digits) := by
  have hend : c.between ++ c.numeral.digits ≠ [] :=
    List.append_ne_nil_of_right_ne_nil _ c.numeral.ne_nil
  have hsymbol := Operator.symbol_ne_nil h
  have hne : c.operator.symbol ++ (c.between ++ c.numeral.digits) ≠ [] :=
    List.append_ne_nil_of_right_ne_nil _ hend
  have hhead : isWhitespace ((c.operator.symbol ++ (c.between ++ c.numeral.digits)).head hne) =
      false := by
    rw [List.head_append_of_ne_nil hsymbol]
    exact Operator.not_isWhitespace_symbol (List.head_mem hsymbol)
  have hlast : isWhitespace
      ((c.operator.symbol ++ (c.between ++ c.numeral.digits)).getLast hne) = false := by
    rw [List.getLast_append_of_ne_nil _ hend, List.getLast_append_of_ne_nil _ c.numeral.ne_nil]
    exact c.numeral.not_isWhitespace (List.getLast_mem c.numeral.ne_nil)
  have htrim := trim_between c.blank_before c.blank_after hne hhead hlast
  rwa [List.append_assoc, List.append_assoc] at htrim

lemma HitCondition.trim_text_bare (c : HitCondition) (h : c.operator = .bare) :
    trim c.text = c.numeral.digits := by
  have htrim := c.numeral.trim_digits (c.blank_before.append c.blank_between) c.blank_after
  rw [List.append_assoc] at htrim
  rw [text, h, Operator.symbol, List.nil_append, htrim]

/-! ### What the code does -/

/-- The test that the code makes for an operator, on what came of the numeral. -/
def Operator.test : Operator → Option UInt32 → UInt32 → Bool
  | atLeast, n, count => n.getD 0 ≤ count
  | atMost, n, count => count ≤ n.getD 0
  | above, n, count => n.getD 0 < count
  | below, n, count => count < n.getD 0
  | multiple, n, count => count % max (n.getD 1) 1 = 0
  | bare, n, count => n.getD 1 ≤ count

lemma isPrefixOf?_of_notMem {a : Char} {symbol text : List Char} (h : a ∉ text) :
    (a :: symbol).isPrefixOf? text = none := by
  cases text with
  | nil => rfl
  | cons b text =>
    have hne : a ≠ b := fun hab => h (hab ▸ List.mem_cons_self)
    simp [List.isPrefixOf?, hne]

lemma Numeral.notMem (n : Numeral) {c : Char} (hc : c.isDigit = false) : c ∉ n.digits := fun h => by
  rw [n.isDigit c h] at hc
  cases hc

/-- **Each operator gets its test**: no symbol is taken for another, nor a digit for one. -/
lemma hitCountMatches_text (c : HitCondition) (count : UInt32) :
    hitCountMatches c.text count = c.operator.test (parseU32 c.numeral.digits) count := by
  unfold hitCountMatches
  by_cases hbare : c.operator = .bare
  · -- a numeral by itself begins with no operator
    rw [c.trim_text_bare hbare, hbare]
    simp only [if_neg c.numeral.ne_nil,
      isPrefixOf?_of_notMem (c.numeral.notMem (c := '>') (by decide)),
      isPrefixOf?_of_notMem (c.numeral.notMem (c := '<') (by decide)),
      isPrefixOf?_of_notMem (c.numeral.notMem (c := '%') (by decide)), Operator.test]
  · have hrest : trim (c.between ++ c.numeral.digits) = c.numeral.digits := by
      have hblank : Blank [] := List.forall_mem_nil _
      have htrim := c.numeral.trim_digits c.blank_between hblank
      rwa [List.append_nil] at htrim
    -- what follows an operator is no `=`
    have hequals : '=' ∉ c.between ++ c.numeral.digits := by
      rw [List.mem_append, not_or]
      exact ⟨fun h => absurd (c.blank_between _ h) (by decide), c.numeral.notMem (by decide)⟩
    have hnone : ['='].isPrefixOf? (c.between ++ c.numeral.digits) = none :=
      isPrefixOf?_of_notMem hequals
    rw [c.trim_text hbare]
    cases hop : c.operator with
    | bare => exact absurd hop hbare
    | _ => simp [Operator.symbol, Operator.test, List.isPrefixOf?, hrest, hnone]

/-- A numeral parses where it fits. -/
lemma Numeral.parseU32_digits (n : Numeral) :
    parseU32 n.digits = if n.value < 2 ^ 32 then some (UInt32.ofNat n.value) else none := by
  have hdigits : digitsOf n.digits = n.digits := by
    unfold digitsOf
    split
    · rename_i rest heq
      exact absurd (heq ▸ List.mem_cons_self) (n.notMem (c := '+') (by decide))
    · rfl
  have hall : n.digits.all Char.isDigit := List.all_eq_true.mpr n.isDigit
  have hfits : (n.value ≤ usizeMax && n.value < 2 ^ 32) = decide (n.value < 2 ^ 32) := by
    have hmax : 2 ^ 32 ≤ usizeMax := by decide
    rw [← Bool.decide_and, decide_eq_decide]
    omega
  rw [parseU32, parseUsize, hdigits, if_neg (by simp [n.ne_nil, hall]), Option.filter_filter]
  change Option.map _ ((some n.value).filter _) = _
  rw [Option.filter_some, hfits]
  simp

/-! ### Against arithmetic -/

lemma mod_eq_zero_iff {count m : UInt32} : count % m = 0 ↔ m.toNat ∣ count.toNat := by
  rw [← UInt32.toNat_inj, UInt32.toNat_mod, Nat.dvd_iff_mod_eq_zero]
  rfl

lemma max_one {m : UInt32} (h : 0 < m.toNat) : max m 1 = m := by
  change (if m ≤ 1 then 1 else m) = m
  split_ifs with hle
  · rw [UInt32.le_iff_toNat_le] at hle
    have hone : (1 : UInt32).toNat = 1 := rfl
    exact UInt32.toNat_inj.mp (by omega)
  · rfl

lemma eq_zero_iff {count : UInt32} : count = 0 ↔ count.toNat = 0 := by
  rw [← UInt32.toNat_inj]
  rfl

/-- Where the numeral fits, the test is right. -/
lemma Operator.test_some {count m : UInt32} (h : op = .multiple → 0 < m.toNat) :
    op.test (some m) count = true ↔ op.Holds count.toNat m.toNat := by
  cases op with
  | multiple => simp only [test, Holds, Option.getD_some, max_one (h rfl), decide_eq_true_eq,
      mod_eq_zero_iff]
  | _ => simp [test, Holds, UInt32.le_iff_toNat_le, UInt32.lt_iff_toNat_lt]

/-- Where it does not, the default is right for a count of zero, and for most operators only. -/
lemma Operator.test_none {count : UInt32} {m : ℕ} (h : 2 ^ 32 ≤ m) :
    (op.test none count = true ↔ op.Holds count.toNat m) ↔
      count = 0 ∧ op ≠ .atLeast ∧ op ≠ .below := by
  have hlt := count.toNat_lt
  have hone : (1 : UInt32).toNat = 1 := rfl
  rw [eq_zero_iff]
  cases op with
  | multiple =>
    have hdvd : m ∣ count.toNat ↔ count.toNat = 0 :=
      ⟨fun hd => Nat.eq_zero_of_dvd_of_lt hd (by omega), fun h0 => h0 ▸ Nat.dvd_zero m⟩
    simp only [test, Holds, Option.getD_none, hdvd, decide_eq_true_eq, mod_eq_zero_iff]
    simp [max_one (m := 1) (by decide), hone]
  | _ =>
    simp only [test, Holds, Option.getD_none, decide_eq_true_eq, UInt32.le_iff_toNat_le,
      UInt32.lt_iff_toNat_lt, UInt32.toNat_zero, hone]
    simp
    omega

/-! ### The law -/

variable {count : UInt32}

/-- The condition holds as arithmetic has it, and where a smaller number would make it hold too,
raising the number has not made it match. -/
structure Means (c : HitCondition) (count : UInt32) : Prop where
  agrees : hitCountMatches c.text count = true ↔ c.operator.Holds count.toNat c.numeral.value
  never_starts : c.operator.Lower → ∀ lower : HitCondition, lower.operator = c.operator →
    lower.numeral.value ≤ c.numeral.value → hitCountMatches c.text count = true →
      hitCountMatches lower.text count = true

lemma agrees_iff (c : HitCondition) (count : UInt32) :
    (hitCountMatches c.text count = true ↔ c.operator.Holds count.toNat c.numeral.value) ↔
      c.numeral.value < 2 ^ 32 ∨
        count = 0 ∧ c.operator ≠ .atLeast ∧ c.operator ≠ .below := by
  rw [hitCountMatches_text, Numeral.parseU32_digits]
  by_cases h : c.numeral.value < 2 ^ 32
  · have hvalue : (UInt32.ofNat c.numeral.value).toNat = c.numeral.value :=
      UInt32.toNat_ofNat_of_lt' h
    have hpos : c.operator = .multiple → 0 < (UInt32.ofNat c.numeral.value).toNat := by
      intro hop
      rw [hvalue]
      exact c.pos hop
    have htest : c.operator.test (some (UInt32.ofNat c.numeral.value)) count = true ↔
      c.operator.Holds count.toNat (UInt32.ofNat c.numeral.value).toNat := Operator.test_some hpos
    rw [if_pos h]
    rw [hvalue] at htest
    exact iff_of_true htest (.inl h)
  · rw [if_neg h, Operator.test_none (by omega), or_iff_right h]

/-- **Hit conditions mean what they say** exactly where the numeral is below `2 ^ 32`, or nothing
has been hit yet and the operator is neither `>=` nor `<`. -/
theorem hit_condition_means_iff (c : HitCondition) (count : UInt32) : Means c count ↔
    c.numeral.value < 2 ^ 32 ∨ count = 0 ∧ c.operator ≠ .atLeast ∧ c.operator ≠ .below := by
  rw [← agrees_iff]
  refine ⟨Means.agrees, fun h => ⟨h, fun hop lower hlower hle hmatch => ?_⟩⟩
  have hlow : lower.numeral.value < 2 ^ 32 ∨
      count = 0 ∧ lower.operator ≠ .atLeast ∧ lower.operator ≠ .below := by
    rcases (agrees_iff c count).mp h with hfits | hzero
    · exact .inl (Nat.lt_of_le_of_lt hle hfits)
    · exact .inr (hlower ▸ hzero)
  rw [(agrees_iff lower count).mpr hlow, hlower]
  exact hop.holds hle (h.mp hmatch)

/-- `>=4294967296`. -/
def pastU32 : HitCondition where
  operator := .atLeast
  numeral := ⟨"4294967296".toList, by decide, List.all_eq_true.mp (by decide)⟩
  before := []
  between := []
  after := []
  blank_before := List.forall_mem_nil _
  blank_between := List.forall_mem_nil _
  blank_after := List.forall_mem_nil _
  pos h := by cases h

/-- One hit is enough for a condition that asks for more than four billion. -/
theorem past_u32_matches : ¬ Means pastU32 1 := by
  intro h
  have hholds : 4294967296 ≤ 1 := h.agrees.mp (by decide)
  exact absurd hholds (by decide)

end DappyCore.StopPolicy
