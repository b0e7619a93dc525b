import DappyCore.TransportSteps

/-!
The header lines in a stream: the places from which a reader would read one. A message costs a
header line, so a reader that has lost its place returns no more messages than there are header
lines left, and a frame has only the one it begins with.
-/

namespace DappyCore.Transport

open Lib Protocol

/-! ### What a header line looks like -/

lemma mem_of_parseUsize {text : List Char} {n : ℕ} (h : parseUsize text = some n) :
    ∀ c ∈ text, c = '+' ∨ c.isDigit := by
  intro c hc
  have hmem : c = '+' ∨ c ∈ digitsOf text := by
    unfold digitsOf
    split
    · exact List.mem_cons.mp hc
    · exact .inr hc
  unfold parseUsize at h
  split_ifs at h with hd
  have hall : (digitsOf text).all Char.isDigit := by
    by_contra hn
    exact hd (.inr hn)
  exact hmem.imp id fun hm => List.all_eq_true.mp hall c hm

lemma mem_of_mem_trim {text : List Char} {c : Char} (hc : c ∈ text) :
    isWhitespace c ∨ c ∈ trim text := by
  rw [← List.takeWhile_append_dropWhile (p := isWhitespace) (l := text)] at hc
  rcases List.mem_append.mp hc with hc | hc
  · exact .inl (List.mem_takeWhile_imp hc)
  rw [← List.rdropWhile_append_rtakeWhile (p := isWhitespace)
    (l := text.dropWhile isWhitespace)] at hc
  rcases List.mem_append.mp hc with hc | hc
  · exact .inr hc
  · exact .inl (List.mem_rtakeWhile_imp hc)

def nameBytes : List UInt8 := Utf8.encode contentLengthName

/-- Neither a quote nor a `C` can be read as part of a number. -/
def quote : UInt8 := 34

def letterC : UInt8 := 67

/-- A line that gives a length is the name, and then neither a quote nor another `C`. -/
lemma headerLine_length {line : List UInt8} {n : ℕ} (h : headerLine line = .length n) :
    ∃ rest, line = nameBytes ++ rest ∧ quote ∉ rest ∧ letterC ∉ rest := by
  unfold headerLine at h
  cases hd : Utf8.decode line with
  | none => simp [hd] at h
  | some text =>
    simp only [hd] at h
    split_ifs at h with hblank
    cases hp : contentLengthName.isPrefixOf? (text.rdropWhile isLineEnd) with
    | none => simp [hp] at h
    | some rest =>
      simp only [hp] at h
      cases hn : parseUsize (trim rest) with
      | none => simp [hn] at h
      | some m =>
        have htext : text = contentLengthName ++ (rest ++ text.rtakeWhile isLineEnd) := by
          rw [← List.append_assoc, List.isPrefixOf?_eq_some_iff_append_eq.mp hp,
            List.rdropWhile_append_rtakeWhile]
        -- after the name there are blanks, a plus, digits and the end of the line
        have hchar : ∀ c ∈ rest ++ text.rtakeWhile isLineEnd,
            isWhitespace c ∨ c = '+' ∨ c.isDigit ∨ isLineEnd c := by
          intro c hc
          rcases List.mem_append.mp hc with hc | hc
          · rcases mem_of_mem_trim hc with hw | hc
            · exact .inl hw
            · rcases mem_of_parseUsize hn c hc with hplus | hdigit
              · exact .inr (.inl hplus)
              · exact .inr (.inr (.inl hdigit))
          · exact .inr (.inr (.inr (List.mem_rtakeWhile_imp hc)))
        refine ⟨Utf8.encode (rest ++ text.rtakeWhile isLineEnd), ?_, fun hq => ?_, fun hC => ?_⟩
        · rw [Utf8.eq_encode_of_decode hd, nameBytes, ← Utf8.encode_append, ← htext]
        · have hc := hchar _ (Utf8.mem_of_mem_encode hq (by decide))
          exact absurd hc (by decide)
        · have hc := hchar _ (Utf8.mem_of_mem_encode hC (by decide))
          exact absurd hc (by decide)

/-! ### Counting -/

/-- The first line, with its line feed. -/
def firstLine : List UInt8 → Option (List UInt8)
  | [] => none
  | b :: input => if b = lineFeed then some [b] else (firstLine input).map (b :: ·)

def isLength : HeaderLine → Bool
  | .length _ => true
  | _ => false

/-- The first line gives a length. -/
def startsHeader (input : List UInt8) : Bool :=
  (firstLine input).any fun line => isLength (headerLine line)

/-- From how many places a header line could be read. -/
def headersIn : List UInt8 → ℕ
  | [] => 0
  | b :: input => (startsHeader (b :: input)).toNat + headersIn input

lemma headersIn_cons (b : UInt8) (input : List UInt8) :
    headersIn (b :: input) = (startsHeader (b :: input)).toNat + headersIn input := rfl

lemma firstLine_append {line : List UInt8} (h : lineFeed ∉ line) (input : List UInt8) :
    firstLine (line ++ lineFeed :: input) = some (line ++ [lineFeed]) := by
  induction line with
  | nil => simp [firstLine]
  | cons b line ih =>
    have hb : b ≠ lineFeed := fun e => h (e ▸ List.mem_cons_self)
    have hline : lineFeed ∉ line := fun hm => h (List.mem_cons_of_mem _ hm)
    rw [List.cons_append, firstLine, if_neg hb, ih hline, Option.map_some, List.cons_append]

lemma firstLine_eq_some {input line : List UInt8} (h : firstLine input = some line) :
    ∃ front rest, line = front ++ [lineFeed] ∧ lineFeed ∉ front ∧
      input = front ++ lineFeed :: rest := by
  induction input generalizing line with
  | nil => simp [firstLine] at h
  | cons b input ih =>
    unfold firstLine at h
    split_ifs at h with hb
    · obtain rfl := Option.some.inj h
      exact ⟨[], input, by rw [hb, List.nil_append], List.not_mem_nil, by rw [hb, List.nil_append]⟩
    · obtain ⟨line', hl, rfl⟩ := Option.map_eq_some_iff.mp h
      obtain ⟨front, rest, rfl, hfront, rfl⟩ := ih hl
      refine ⟨b :: front, rest, rfl, ?_, rfl⟩
      intro hm
      rcases List.mem_cons.mp hm with e | hm
      · exact hb e.symm
      · exact hfront hm

/-- Where a header line starts, the name stands. -/
lemma shape_of_startsHeader {input : List UInt8} (h : startsHeader input) :
    ∃ rest more, input = nameBytes ++ rest ++ lineFeed :: more ∧ quote ∉ rest ∧
      letterC ∉ rest := by
  cases hl : firstLine input with
  | none => simp [startsHeader, hl] at h
  | some line =>
    simp only [startsHeader, hl, Option.any_some] at h
    obtain ⟨front, more, rfl, -, rfl⟩ := firstLine_eq_some hl
    cases hh : headerLine (front ++ [lineFeed]) with
    | blank => simp [hh, isLength] at h
    | invalid e => simp [hh, isLength] at h
    | length n =>
      obtain ⟨rest, heq, hq, hC⟩ := headerLine_length hh
      rcases List.eq_nil_or_concat' rest with rfl | ⟨rest, b, rfl⟩
      · -- the name does not end in a line feed
        have hlast := congrArg List.getLast? heq
        rw [List.getLast?_concat, List.append_nil] at hlast
        exact absurd hlast (by decide)
      · rw [← List.append_assoc] at heq
        obtain ⟨rfl, -⟩ := List.append_inj' heq rfl
        exact ⟨rest, more, rfl, fun hm => hq (List.mem_append_left _ hm),
          fun hm => hC (List.mem_append_left _ hm)⟩

lemma headersIn_suffix (front input : List UInt8) :
    headersIn input ≤ headersIn (front ++ input) := by
  induction front with
  | nil => exact le_rfl
  | cons b front ih =>
    rw [List.cons_append, headersIn_cons]
    omega

/-- A line read from its beginning is one of those counted. -/
lemma headersIn_line {line : List UInt8} (h : lineFeed ∉ line) (input : List UInt8) :
    (isLength (headerLine (line ++ [lineFeed]))).toNat + headersIn input ≤
      headersIn (line ++ lineFeed :: input) := by
  have hstarts : startsHeader (line ++ lineFeed :: input) =
      isLength (headerLine (line ++ [lineFeed])) := by
    rw [startsHeader, firstLine_append h, Option.any_some]
  cases line with
  | nil =>
    have hcons : headersIn ([] ++ lineFeed :: input) =
        (startsHeader ([] ++ lineFeed :: input)).toNat + headersIn input := rfl
    rw [hcons, hstarts]
  | cons b line =>
    have hcons : headersIn ((b :: line) ++ lineFeed :: input) =
        (startsHeader ((b :: line) ++ lineFeed :: input)).toNat +
          headersIn (line ++ lineFeed :: input) := rfl
    have hle := headersIn_suffix (line ++ [lineFeed]) input
    rw [List.append_assoc, List.singleton_append] at hle
    rw [hcons, hstarts]
    omega

/-- Where no header line starts, none is counted. -/
lemma headersIn_append {front input : List UInt8}
    (h : ∀ a b, front = a ++ b → b ≠ [] → ¬ startsHeader (b ++ input)) :
    headersIn (front ++ input) = headersIn input := by
  induction front with
  | nil => rfl
  | cons c front ih =>
    have hc : startsHeader (c :: (front ++ input)) = false :=
      Bool.eq_false_iff.mpr (h [] (c :: front) rfl (List.cons_ne_nil _ _))
    have hrest := ih fun a b e hb => h (c :: a) b (by rw [e, List.cons_append]) hb
    rw [List.cons_append, headersIn_cons, hc, hrest, Bool.toNat_false, Nat.zero_add]

end DappyCore.Transport
