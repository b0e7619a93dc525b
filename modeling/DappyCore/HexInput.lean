import DappyCore.Memory

/-!
Hexadecimal input against what it renders. The input is cut up by bytes, and each pair goes to a
parser that takes a sign too.
-/

namespace DappyCore.Memory

open Lib.Text Lib.Hex Transport

/-! ### Pairs -/

/-- A pair of characters that is read as a byte: two digits, or a digit with a sign. -/
def readsByte (a b : Char) : Bool := (isHexDigit a || a = '+') && isHexDigit b

/-- The pairs that are read from the start of a text, and what is left then. -/
def readPairs : List Char → List (Char × Char) × List Char
  | a :: b :: rest =>
    if readsByte a b then ((a, b) :: (readPairs rest).1, (readPairs rest).2)
    else ([], a :: b :: rest)
  | rest => ([], rest)

/-- Induction on the pairs that are read. -/
@[elab_as_elim]
lemma readPairs_induction {motive : List Char → Prop} (text : List Char) (nil : motive [])
    (single : ∀ a, motive [a])
    (read : ∀ a b rest, readsByte a b → motive rest → motive (a :: b :: rest))
    (unread : ∀ a b rest, ¬ readsByte a b → motive (a :: b :: rest)) : motive text := by
  induction text using readPairs.induct with
  | case1 a b rest hread ih => exact read a b rest hread ih
  | case2 a b rest hread => exact unread a b rest hread
  | case3 rest hshort =>
    match rest with
    | [] => exact nil
    | [a] => exact single a
    | a :: b :: rest => exact absurd rfl (hshort a b rest)

/-- Two bytes from the start is within a character. -/
def cutsChar : List Char → Bool
  | [] => false
  | [a] => 2 < a.utf8Size
  | a :: b :: _ => 2 < a.utf8Size || a.utf8Size = 1 && 1 < b.utf8Size

/-- The byte that a pair is read as. -/
def byteOf (p : Char × Char) : UInt8 := UInt8.ofNat ((fromStr 255 [p.1, p.2]).getD 0)

lemma utf8Size_of_isHexDigit {c : Char} (h : isHexDigit c) : c.utf8Size = 1 := by
  obtain ⟨n, hn⟩ := Option.isSome_iff_exists.mp h
  rw [Char.utf8Size_eq_one_iff, UInt32.le_iff_toNat_le]
  have hlt := (lt_of_digitValue hn).2
  exact Nat.le_of_lt_succ hlt

lemma utf8Size_of_readsByte {a b : Char} (h : readsByte a b) : a.utf8Size = 1 ∧ b.utf8Size = 1 := by
  simp only [readsByte, Bool.and_eq_true, Bool.or_eq_true, decide_eq_true_eq] at h
  refine ⟨?_, utf8Size_of_isHexDigit h.2⟩
  rcases h.1 with ha | rfl
  · exact utf8Size_of_isHexDigit ha
  · rfl

lemma isHexDigit_iff {c : Char} : isHexDigit c ↔ ∃ n, digitValue c = some n :=
  Option.isSome_iff_exists

lemma value_single (b : Char) : value [b] = digitValue b := by
  cases h : digitValue b <;> simp [value, h]

lemma value_pair (a b : Char) :
    value [a, b] = (digitValue a).bind fun m => (digitValue b).map (16 * m + ·) := by
  cases ha : digitValue a <;> simp [value, ha]

/-- Two digits have the value of a byte. -/
lemma fromStr_pair {a b : Char} {m n : ℕ} (ha : digitValue a = some m)
    (hb : digitValue b = some n) : fromStr 255 [a, b] = some (16 * m + n) := by
  have hm := (lt_of_digitValue ha).1
  have hn := (lt_of_digitValue hb).1
  have hplus : a ≠ '+' := by
    rintro rfl
    cases ha
  have hle : 16 * m + n ≤ 255 := by omega
  simp [fromStr, hplus, value_pair, ha, hb, hle]

lemma isSome_fromStr_pair (a b : Char) : (fromStr 255 [a, b]).isSome = readsByte a b := by
  unfold readsByte isHexDigit
  by_cases hplus : a = '+'
  · subst hplus
    cases hb : digitValue b with
    | none => simp [fromStr, value_single, hb]
    | some n =>
      have hle : n ≤ 255 := by
        have hn := (lt_of_digitValue hb).1
        omega
      simp [fromStr, value_single, hb, hle]
  · cases ha : digitValue a with
    | none => simp [fromStr, hplus, value_pair, ha]
    | some m =>
      cases hb : digitValue b with
      | none => simp [fromStr, hplus, value_pair, ha, hb]
      | some n => simp [fromStr_pair ha hb]

/-- A character past ASCII is no byte. -/
lemma fromStr_single_of_size {a : Char} (h : a.utf8Size = 2) : fromStr 255 [a] = none := by
  have hplus : a ≠ '+' := by
    rintro rfl
    cases h
  have hnone : digitValue a = none := by
    rw [Option.eq_none_iff_forall_ne_some]
    intro n hn
    rw [utf8Size_of_isHexDigit (isHexDigit_iff.mpr ⟨n, hn⟩)] at h
    cases h
  simp [fromStr, hplus, value_single, hnone]

/-! ### The loop -/

lemma sliceTo_two {a b : Char} (ha : a.utf8Size = 1) (hb : b.utf8Size = 1) (rest : List Char) :
    sliceTo (a :: b :: rest) 2 = some [a, b] := by
  have hsize : size [a, b] = 2 := by simp [ha, hb]
  exact sliceTo_append hsize

lemma sliceTo_two_of_size {a : Char} (ha : a.utf8Size = 2) (rest : List Char) :
    sliceTo (a :: rest) 2 = some [a] := by
  have hsize : size [a] = 2 := by simp [ha]
  exact sliceTo_append hsize

lemma sliceTo_of_cutsChar {text : List Char} (h : cutsChar text) : sliceTo text 2 = none := by
  unfold sliceTo
  rw [Option.map_eq_none_iff]
  match text with
  | [] => cases h
  | [a] =>
    have ha : 2 < a.utf8Size := by simpa [cutsChar] using h
    exact cut_cons_of_lt (by decide) ha
  | a :: b :: rest =>
    simp only [cutsChar, Bool.or_eq_true, Bool.and_eq_true, decide_eq_true_eq] at h
    rcases h with ha | ⟨ha, hb⟩
    · exact cut_cons_of_lt (by decide) ha
    · rw [cut_cons (by omega), ha, cut_cons_of_lt (by decide) hb]
      rfl

/-- What comes of the rest of a text: all of it is read, or the loop ends where it cannot be. -/
structure Ends (rest : List Char) (out : List UInt8)
    (result : Option (Except String (List UInt8))) : Prop where
  read : (readPairs rest).2 = [] → result = some (.ok (out ++ (readPairs rest).1.map byteOf))
  panicked : cutsChar (readPairs rest).2 → result = none
  refused : (readPairs rest).2 ≠ [] → cutsChar (readPairs rest).2 = false →
    ∃ message, result = some (.error message)

/-- The offsets of so many pairs from a place on. -/
def offsets (start k : ℕ) : List ℕ := (List.range k).map (start + 2 * ·)

lemma offsets_succ (start k : ℕ) : offsets start (k + 1) = start :: offsets (start + 2) k := by
  rw [offsets, List.range_succ_eq_map, List.map_cons, List.map_map]
  congr 1
  refine List.map_congr_left fun i _ => ?_
  simp only [Function.comp_apply]
  omega

/-- Two bytes that are within no character, and are not read, do not parse. -/
lemma unread_pair {rest : List Char} (hne : rest ≠ []) (heven : size rest % 2 = 0)
    (hread : readPairs rest = ([], rest)) (hcut : cutsChar rest = false) :
    ∃ pair, sliceTo rest 2 = some pair ∧ fromStr 255 pair = none := by
  match rest with
  | [] => exact absurd rfl hne
  | [a] =>
    have hle : a.utf8Size ≤ 2 := by simpa [cutsChar] using hcut
    have hpos := a.utf8Size_pos
    rw [size_cons, size_nil] at heven
    have ha : a.utf8Size = 2 := by omega
    exact ⟨[a], sliceTo_two_of_size ha [], fromStr_single_of_size ha⟩
  | a :: b :: rest =>
    simp only [cutsChar, Bool.or_eq_false_iff, Bool.and_eq_false_iff, decide_eq_false_iff_not]
      at hcut
    have hpos := a.utf8Size_pos
    by_cases ha : a.utf8Size = 1
    · have hb : b.utf8Size = 1 := by
        have hposb := b.utf8Size_pos
        have hnot := hcut.2.resolve_left (not_not.mpr ha)
        omega
      refine ⟨[a, b], sliceTo_two ha hb rest, ?_⟩
      rw [← Option.isNone_iff_eq_none, ← Option.not_isSome, isSome_fromStr_pair, Bool.not_eq_true']
      by_contra htrue
      rw [readPairs, if_pos (by simpa using htrue)] at hread
      cases hread
    · have ha : a.utf8Size = 2 := by omega
      exact ⟨[a], sliceTo_two_of_size ha _, fromStr_single_of_size ha⟩

/-- Where the next two bytes are no pair that is read, the loop ends. -/
lemma ends_of_unread {front rest : List Char} {out : List UInt8} {k : ℕ} (hne : rest ≠ [])
    (hsize : size rest = 2 * k) (hread : readPairs rest = ([], rest)) :
    Ends rest out (hexBytes (front ++ rest) (offsets (size front) k) out) := by
  have hpos : size rest ≠ 0 := mt size_eq_zero_iff.mp hne
  obtain ⟨k, rfl⟩ : ∃ j, k = j + 1 := ⟨k - 1, by omega⟩
  rw [offsets_succ, hexBytes, slice_of_append rfl]
  refine ⟨fun h => ?_, fun h => ?_, fun _ h => ?_⟩
  · rw [hread] at h
    exact absurd h hne
  · rw [hread] at h
    rw [sliceTo_of_cutsChar h]
  · rw [hread] at h
    obtain ⟨pair, hpair, hnone⟩ := unread_pair hne (by omega) hread h
    rw [hpair]
    simp only [hnone]
    exact ⟨_, rfl⟩

/-- **The loop** reads the pairs there are from the start. -/
lemma hexBytes_ends {front rest : List Char} {out : List UInt8} {k : ℕ}
    (hsize : size rest = 2 * k) :
    Ends rest out (hexBytes (front ++ rest) (offsets (size front) k) out) := by
  induction rest using readPairs_induction generalizing front out k with
  | read a b rest hread ih =>
    obtain ⟨ha, hb⟩ := utf8Size_of_readsByte hread
    rw [size_cons, size_cons, ha, hb] at hsize
    obtain ⟨k, rfl⟩ : ∃ j, k = j + 1 := ⟨k - 1, by omega⟩
    obtain ⟨n, hn⟩ := Option.isSome_iff_exists.mp ((isSome_fromStr_pair a b).trans hread)
    have hbyte : byteOf (a, b) = UInt8.ofNat n := by rw [byteOf, hn, Option.getD_some]
    have hmove : front ++ a :: b :: rest = (front ++ [a, b]) ++ rest := by simp
    have hfront : size front + 2 = size (front ++ [a, b]) := by simp [ha, hb]
    have hpairs : readPairs (a :: b :: rest) =
        ((a, b) :: (readPairs rest).1, (readPairs rest).2) := by
      rw [readPairs, if_pos hread]
    -- one round of the loop reads the pair
    have hloop : hexBytes (front ++ a :: b :: rest) (offsets (size front) (k + 1)) out =
        hexBytes ((front ++ [a, b]) ++ rest) (offsets (size (front ++ [a, b])) k)
          (out ++ [byteOf (a, b)]) := by
      rw [offsets_succ, hexBytes, slice_of_append rfl, sliceTo_two ha hb]
      simp only [hn]
      rw [hmove, hfront, hbyte]
    have hih : Ends rest (out ++ [byteOf (a, b)]) (hexBytes ((front ++ [a, b]) ++ rest)
        (offsets (size (front ++ [a, b])) k) (out ++ [byteOf (a, b)])) := ih (by omega)
    rw [hloop]
    refine ⟨fun h => ?_, fun h => ?_, fun hne h => ?_⟩
    · rw [hpairs] at h ⊢
      rw [hih.read h, List.map_cons, List.append_assoc, List.singleton_append]
    · rw [hpairs] at h
      exact hih.panicked h
    · rw [hpairs] at h hne
      exact hih.refused hne h
  | unread a b rest hread =>
    exact ends_of_unread (List.cons_ne_nil _ _) hsize (by rw [readPairs, if_neg hread])
  | single a => exact ends_of_unread (List.cons_ne_nil _ _) hsize rfl
  | nil =>
    rw [size_nil] at hsize
    obtain rfl : k = 0 := by omega
    refine ⟨fun _ => ?_, fun h => ?_, fun h => ?_⟩
    · simp [offsets, hexBytes, readPairs]
    · cases h
    · exact absurd rfl h

/-! ### Pairs and their text -/

lemma readPairs_text (text : List Char) :
    text = (readPairs text).1.flatMap (fun p => [p.1, p.2]) ++ (readPairs text).2 := by
  induction text using readPairs_induction with
  | nil => rfl
  | single a => rfl
  | read a b rest hread ih =>
    rw [readPairs, if_pos hread, List.flatMap_cons, List.append_assoc, ← ih]
    rfl
  | unread a b rest hread =>
    rw [readPairs, if_neg hread]
    rfl

lemma readsByte_of_mem {text : List Char} {p : Char × Char} (hp : p ∈ (readPairs text).1) :
    readsByte p.1 p.2 := by
  induction text using readPairs_induction with
  | nil => cases hp
  | single a => cases hp
  | read a b rest hread ih =>
    rw [readPairs, if_pos hread] at hp
    rcases List.mem_cons.mp hp with rfl | hp
    · exact hread
    · exact ih hp
  | unread a b rest hread =>
    rw [readPairs, if_neg hread] at hp
    cases hp

/-- An even number of digits is read to its end. -/
lemma readPairs_of_isHexDigit {text : List Char} (heven : text.length % 2 = 0)
    (h : ∀ c ∈ text, isHexDigit c) : (readPairs text).2 = [] := by
  induction text using readPairs_induction with
  | nil => rfl
  | single a => simp at heven
  | read a b rest hread ih =>
    rw [readPairs, if_pos hread]
    simp only [List.length_cons] at heven
    exact ih (by omega) fun c hc => h c (List.mem_cons_of_mem _ (List.mem_cons_of_mem _ hc))
  | unread a b rest hread =>
    have ha := h a List.mem_cons_self
    have hb := h b (List.mem_cons_of_mem _ List.mem_cons_self)
    exact absurd (by simp [readsByte, ha, hb]) hread

/-! ### The law -/

/-- The bytes with two digits each. -/
def rendered (bytes : List UInt8) : List Char := bytes.flatMap fun byte => padded 2 byte.toNat

lemma rendered_cons (byte : UInt8) (bytes : List UInt8) :
    rendered (byte :: bytes) = padded 2 byte.toNat ++ rendered bytes := List.flatMap_cons

def IsHex (text : List Char) : Prop :=
  text ≠ [] ∧ text.length % 2 = 0 ∧ (∀ c ∈ text, isHexDigit c) ∧ text.length / 2 ≤ maxWriteBytes

/-- Bytes are returned for hexadecimal text, and they are what it renders, up to case. -/
structure ParsedExactly (text : List Char) (result : Except String (List UInt8)) : Prop where
  accepted : (∃ bytes, result = .ok bytes) ↔ IsHex text
  bytes : ∀ bytes, result = .ok bytes →
    ∀ other, text.map Char.toUpper = rendered other ↔ other = bytes

/-- In a text of an even number of bytes, what follows the pairs that are read does not begin with
a pair that ends within a character; and where all of it is read, no pair has a sign. -/
def WellPaired (text : List Char) : Prop :=
  size text % 2 = 0 →
    cutsChar (readPairs text).2 = false ∧
      ((readPairs text).2 = [] → (readPairs text).1.length ≤ maxWriteBytes →
        ∀ p ∈ (readPairs text).1, p.1 ≠ '+')

lemma byteOf_pair {p : Char × Char} {m n : ℕ} (hm : digitValue p.1 = some m)
    (hn : digitValue p.2 = some n) : (byteOf p).toNat = 16 * m + n := by
  have hmlt := (lt_of_digitValue hm).1
  have hnlt := (lt_of_digitValue hn).1
  rw [byteOf, fromStr_pair hm hn, Option.getD_some, UInt8.toNat_ofNat']
  exact Nat.mod_eq_of_lt (by omega)

/-- A pair of digits renders the byte that it is read as. -/
lemma padded_byteOf {p : Char × Char} (ha : isHexDigit p.1) (hb : isHexDigit p.2) :
    padded 2 (byteOf p).toNat = [p.1.toUpper, p.2.toUpper] := by
  obtain ⟨m, hm⟩ := isHexDigit_iff.mp ha
  obtain ⟨n, hn⟩ := isHexDigit_iff.mp hb
  have hnlt := (lt_of_digitValue hn).1
  have hdiv : (16 * m + n) / 16 = m := by omega
  have hmod : (16 * m + n) % 16 = n := by omega
  rw [padded_two (byteOf p).toNat_lt, byteOf_pair hm hn, hdiv, hmod, upperDigit_of_digitValue hm,
    upperDigit_of_digitValue hn]

lemma length_padded_byte (byte : UInt8) : (padded 2 byte.toNat).length = 2 :=
  length_padded (by decide) byte.toNat_lt

lemma padded_byte_injective {b c : UInt8} (h : padded 2 b.toNat = padded 2 c.toNat) : b = c := by
  have hvalue := value_padded 2 b.toNat
  rw [h, value_padded, Option.some_inj] at hvalue
  exact UInt8.toNat_inj.mp hvalue.symm

lemma rendered_injective {bytes other : List UInt8} (h : rendered bytes = rendered other) :
    bytes = other := by
  induction bytes generalizing other with
  | nil =>
    cases other with
    | nil => rfl
    | cons c other =>
      have hlen := congrArg List.length h
      rw [rendered_cons, List.length_append, length_padded_byte] at hlen
      have hzero : (rendered []).length = 0 := rfl
      omega
  | cons b bytes ih =>
    cases other with
    | nil =>
      have hlen := congrArg List.length h
      rw [rendered_cons, List.length_append, length_padded_byte] at hlen
      have hzero : (rendered []).length = 0 := rfl
      omega
    | cons c other =>
      rw [rendered_cons, rendered_cons] at h
      obtain ⟨hbyte, hrest⟩ := List.append_inj h
        ((length_padded_byte b).trans (length_padded_byte c).symm)
      rw [padded_byte_injective hbyte, ih hrest]

lemma map_toUpper_eq_rendered {pairs : List (Char × Char)}
    (h : ∀ p ∈ pairs, isHexDigit p.1 ∧ isHexDigit p.2) :
    (pairs.flatMap fun p => [p.1, p.2]).map Char.toUpper = rendered (pairs.map byteOf) := by
  induction pairs with
  | nil => rfl
  | cons p pairs ih =>
    obtain ⟨hp, hpairs⟩ := List.forall_mem_cons.mp h
    rw [List.flatMap_cons, List.map_append, ih hpairs, List.map_cons (f := byteOf), rendered_cons,
      padded_byteOf hp.1 hp.2]
    rfl

section Read

variable {text : List Char}

lemma length_eq_of_read (h : (readPairs text).2 = []) :
    text.length = 2 * (readPairs text).1.length := by
  have hlen := congrArg List.length (readPairs_text text)
  rw [h, List.append_nil] at hlen
  rw [hlen, Nat.mul_comm]
  simp

/-- A text that is all read is of digits where no pair has a sign. -/
lemma isHexDigit_iff_of_read (h : (readPairs text).2 = []) :
    (∀ c ∈ text, isHexDigit c) ↔ ∀ p ∈ (readPairs text).1, p.1 ≠ '+' := by
  have htext := readPairs_text text
  rw [h, List.append_nil] at htext
  constructor
  · intro hall p hp hplus
    have hmem : p.1 ∈ text := by
      rw [htext]
      exact List.mem_flatMap.mpr ⟨p, hp, List.mem_cons_self⟩
    have hdigit := hall p.1 hmem
    rw [hplus] at hdigit
    cases hdigit
  · intro hnone c hc
    rw [htext] at hc
    obtain ⟨p, hp, hcp⟩ := List.mem_flatMap.mp hc
    have hread := readsByte_of_mem hp
    simp only [readsByte, Bool.and_eq_true, Bool.or_eq_true, decide_eq_true_eq] at hread
    rcases List.mem_pair.mp hcp with rfl | rfl
    · exact hread.1.resolve_right (hnone p hp)
    · exact hread.2

lemma isHex_iff_of_read (hne : text ≠ []) (h : (readPairs text).2 = []) : IsHex text ↔
    (∀ p ∈ (readPairs text).1, p.1 ≠ '+') ∧ (readPairs text).1.length ≤ maxWriteBytes := by
  have hlen := length_eq_of_read h
  have hhalf : text.length / 2 = (readPairs text).1.length := by omega
  rw [IsHex, isHexDigit_iff_of_read h, hhalf]
  have heven : text.length % 2 = 0 := by omega
  exact ⟨fun hx => hx.2.2, fun hx => ⟨hne, heven, hx⟩⟩

/-- Where digits without signs are all read, the bytes render the text. -/
lemma rendered_iff_of_read (h : (readPairs text).2 = [])
    (hplain : ∀ p ∈ (readPairs text).1, p.1 ≠ '+') (other : List UInt8) :
    text.map Char.toUpper = rendered other ↔ other = (readPairs text).1.map byteOf := by
  have htext := readPairs_text text
  rw [h, List.append_nil] at htext
  have hdigits : ∀ p ∈ (readPairs text).1, isHexDigit p.1 ∧ isHexDigit p.2 := by
    intro p hp
    have hread := readsByte_of_mem hp
    simp only [readsByte, Bool.and_eq_true, Bool.or_eq_true, decide_eq_true_eq] at hread
    exact ⟨hread.1.resolve_right (hplain p hp), hread.2⟩
  have hrendered : text.map Char.toUpper = rendered ((readPairs text).1.map byteOf) := by
    rw [← map_toUpper_eq_rendered hdigits, ← htext]
  rw [hrendered]
  exact ⟨fun heq => (rendered_injective heq).symm, fun heq => heq ▸ rfl⟩

/-- Digits only take one byte each, so an odd number of bytes is not of digits. -/
lemma not_isHex_of_odd (h : size text % 2 ≠ 0) : ¬ IsHex text := by
  intro hx
  rw [size_eq_length fun c hc => utf8Size_of_isHexDigit (hx.2.2.1 c hc)] at h
  exact h hx.2.1

end Read

lemma parsedExactly_error {text : List Char} {message : String} :
    ParsedExactly text (.error message) ↔ ¬ IsHex text := by
  constructor
  · intro h hx
    obtain ⟨bytes, hbytes⟩ := h.accepted.mpr hx
    cases hbytes
  · intro h
    refine ⟨iff_of_false ?_ h, ?_⟩
    · rintro ⟨_, hbytes⟩
      cases hbytes
    · intro _ hbytes
      cases hbytes

lemma exists_error {text : List Char} {message : String} :
    (∃ result, some (.error message) = some result ∧ ParsedExactly text result) ↔
      ¬ IsHex text := by
  simp only [Option.some_inj, exists_eq_left', parsedExactly_error]

/-- What is all read and not too long comes out, which is right where no pair has a sign. -/
lemma parsedExactly_of_read {text : List Char} (hne : text ≠ []) (h : (readPairs text).2 = [])
    (hle : (readPairs text).1.length ≤ maxWriteBytes) :
    ParsedExactly text (.ok ((readPairs text).1.map byteOf)) ↔
      ∀ p ∈ (readPairs text).1, p.1 ≠ '+' := by
  constructor
  · intro hparsed
    exact ((isHex_iff_of_read hne h).mp (hparsed.accepted.mp ⟨_, rfl⟩)).1
  · intro hplain
    refine ⟨iff_of_true ⟨_, rfl⟩ ((isHex_iff_of_read hne h).mpr ⟨hplain, hle⟩), ?_⟩
    intro bytes hbytes other
    cases hbytes
    exact rendered_iff_of_read h hplain other

/-- What is all read is not returned where it is too long, and that is right. -/
lemma exists_of_read {text : List Char} {message : String} (hne : text ≠ [])
    (h : (readPairs text).2 = []) :
    (∃ result, (if maxWriteBytes < (readPairs text).1.length then some (.error message)
        else some (.ok ((readPairs text).1.map byteOf))) = some result ∧
      ParsedExactly text result) ↔
    ((readPairs text).1.length ≤ maxWriteBytes → ∀ p ∈ (readPairs text).1, p.1 ≠ '+') := by
  by_cases hle : (readPairs text).1.length ≤ maxWriteBytes
  · rw [if_neg (by omega), forall_prop_of_true hle]
    simp only [Option.some_inj, exists_eq_left', parsedExactly_of_read hne h hle]
  · rw [if_pos (by omega), exists_error]
    exact iff_of_true (fun hx => hle ((isHex_iff_of_read hne h).mp hx).2) fun hle' =>
      absurd hle' hle

lemma offsets_zero (k : ℕ) : (List.range k).map (2 * ·) = offsets (size []) k := by
  simp [offsets]

/-- **Hex input is parsed exactly** where it is well paired. -/
theorem parses_exactly_iff (data : List Char) :
    (∃ result, hexStringToBytes data = some result ∧ ParsedExactly (trim data) result) ↔
      WellPaired (trim data) := by
  unfold hexStringToBytes
  dsimp only
  generalize trim data = text
  by_cases hnil : text = []
  · -- no digits: an error, as it should be
    subst hnil
    rw [if_pos rfl, exists_error]
    exact iff_of_true (fun hx => hx.1 rfl) fun _ => ⟨rfl, fun _ _ => List.forall_mem_nil _⟩
  · rw [if_neg hnil]
    by_cases heven : size text % 2 = 0
    · rw [if_neg (not_not.mpr heven), offsets_zero]
      have hends : Ends text []
          (hexBytes ([] ++ text) (offsets (size []) (size text / 2)) []) :=
        hexBytes_ends (by omega)
      rw [List.nil_append] at hends
      have hpaired : WellPaired text ↔ _ := forall_prop_of_true heven
      rw [hpaired]
      by_cases hread : (readPairs text).2 = []
      · -- all pairs are read
        have hcut : cutsChar (readPairs text).2 = false := by
          rw [hread]
          rfl
        rw [hends.read hread, List.nil_append, and_iff_right hcut, forall_prop_of_true hread]
        dsimp only
        rw [List.length_map]
        exact exists_of_read hnil hread
      · -- the pairs end at one that is no byte, or within a character
        rw [and_iff_left fun h => absurd h hread]
        cases hcut : cutsChar (readPairs text).2 with
        | true =>
          rw [hends.panicked hcut]
          simp
        | false =>
          obtain ⟨message, hmessage⟩ := hends.refused hread hcut
          rw [hmessage]
          dsimp only
          rw [exists_error]
          exact iff_of_true (fun hx => hread (readPairs_of_isHexDigit hx.2.1 hx.2.2.1)) rfl
    · -- an odd number of bytes: no hex text has it
      rw [if_pos heven, exists_error]
      exact iff_of_true (not_isHex_of_odd heven) fun h => absurd h heven

/-- The sign of the first pair is dropped. -/
theorem sign_is_dropped : ¬ ∃ result, hexStringToBytes "+5".toList = some result ∧
    ParsedExactly (trim "+5".toList) result := by
  rintro ⟨result, hresult, hparsed⟩
  have hbytes : hexStringToBytes "+5".toList = some (.ok [5]) := by decide
  rw [hbytes] at hresult
  obtain rfl := Option.some.inj hresult
  have hx : IsHex (trim "+5".toList) := hparsed.accepted.mp ⟨_, rfl⟩
  exact absurd (hx.2.2.1 '+' (by decide)) (by decide)

end DappyCore.Memory
