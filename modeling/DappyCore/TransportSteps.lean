import DappyCore.Transport

/-!
What one call of `read_message` does: which lines are headers, how a call goes on after a wait,
and what it does on a frame.
-/

namespace DappyCore.Transport

open Lib Protocol

variable {serde : Serde} {eof sawHeader : Bool} {contentLength : Option ℕ}

/-! ### Header lines -/

lemma isDigit_of_mem {n : ℕ} {c : Char} (h : c ∈ Nat.toDigits 10 n) : c.isDigit :=
  Nat.isDigit_of_mem_toDigits (by decide) (by decide) h

lemma digit_range {c : Char} (h : c.isDigit) : 48 ≤ c.toNat ∧ c.toNat ≤ 57 := by
  have hv : 48 ≤ c.val.toNat ∧ c.val.toNat ≤ 57 := by
    simpa [Char.isDigit, UInt32.le_iff_toNat_le] using h
  exact hv

lemma not_isWhitespace_of_isDigit {c : Char} (h : c.isDigit) : isWhitespace c = false := by
  have hd := digit_range h
  simp only [isWhitespace, decide_eq_false_iff_not]
  omega

lemma not_isLineEnd_of_isDigit {c : Char} (h : c.isDigit) : isLineEnd c = false := by
  have hd := digit_range h
  simp only [isLineEnd, decide_eq_false_iff_not]
  rintro (rfl | rfl) <;> simp at hd

lemma rdropWhile_append_pos {p : Char → Bool} {s t : List Char} (ht : ∀ c ∈ t, p c) :
    (s ++ t).rdropWhile p = s.rdropWhile p := by
  rw [List.rdropWhile, List.reverse_append,
    List.dropWhile_append_of_pos (fun c hc => ht c (List.mem_reverse.mp hc)), List.rdropWhile]

/-- The digits written for a number are read as it, where it fits. -/
lemma parseUsize_toDigits_eq (n : ℕ) :
    parseUsize (Nat.toDigits 10 n) = (some n).filter (· ≤ usizeMax) := by
  have hdigits : digitsOf (Nat.toDigits 10 n) = Nat.toDigits 10 n := by
    unfold digitsOf
    split
    · rename_i rest heq
      exact absurd (isDigit_of_mem (heq ▸ List.mem_cons_self)) (by decide)
    · rfl
  have hall : (Nat.toDigits 10 n).all Char.isDigit :=
    List.all_eq_true.mpr fun c hc => isDigit_of_mem hc
  simp [parseUsize, hdigits, Nat.toDigits_ne_nil, hall]

lemma parseUsize_toDigits {n : ℕ} (hn : n ≤ usizeMax) :
    parseUsize (Nat.toDigits 10 n) = some n := by
  rw [parseUsize_toDigits_eq, Option.filter_some, if_pos (decide_eq_true hn)]

lemma trim_toDigits (n : ℕ) : trim (' ' :: Nat.toDigits 10 n) = Nat.toDigits 10 n := by
  have hd : ∀ c ∈ Nat.toDigits 10 n, isWhitespace c = false := fun c hc =>
    not_isWhitespace_of_isDigit (isDigit_of_mem hc)
  have hdrop : (' ' :: Nat.toDigits 10 n).dropWhile isWhitespace = Nat.toDigits 10 n := by
    rw [List.dropWhile_cons_of_pos (by decide), List.dropWhile_eq_self_iff]
    intro hl
    simp [hd _ (List.getElem_mem hl)]
  rw [trim, hdrop, List.rdropWhile_eq_self_iff]
  intro hl
  simp [hd _ (List.getLast_mem hl)]

/-- The first line of a frame, without its line feed. -/
def lengthLine (n : ℕ) : List Char :=
  contentLengthName ++ ' ' :: (Nat.toDigits 10 n ++ ['\r'])

lemma rdropWhile_lengthLine (n : ℕ) :
    (lengthLine n ++ ['\n']).rdropWhile isLineEnd =
      contentLengthName ++ ' ' :: Nat.toDigits 10 n := by
  have happ : lengthLine n ++ ['\n'] =
      (contentLengthName ++ ' ' :: Nat.toDigits 10 n) ++ ['\r', '\n'] := by
    simp [lengthLine]
  have hends : ∀ c ∈ ['\r', '\n'], isLineEnd c := by simp [isLineEnd]
  rw [happ, rdropWhile_append_pos hends, List.rdropWhile_eq_self_iff]
  intro hl
  have hne : Nat.toDigits 10 n ≠ [] := Nat.toDigits_ne_nil
  rw [List.getLast_append_of_ne_nil _ (List.cons_ne_nil _ _), List.getLast_cons hne,
    not_isLineEnd_of_isDigit (isDigit_of_mem (List.getLast_mem hne))]
  simp

/-- The line is read as the number it was written for. -/
lemma headerLine_lengthLine {n : ℕ} (hn : n ≤ usizeMax) :
    headerLine (Utf8.encode (lengthLine n ++ ['\n'])) = .length n := by
  have hpre : contentLengthName.isPrefixOf? (contentLengthName ++ ' ' :: Nat.toDigits 10 n) =
      some (' ' :: Nat.toDigits 10 n) := by
    rw [List.isPrefixOf?_eq_some_iff_append_eq]
  simp only [headerLine, Utf8.decode_encode, rdropWhile_lengthLine, hpre, trim_toDigits,
    parseUsize_toDigits hn]
  simp

lemma headerLine_blank : headerLine (Utf8.encode ['\r', '\n']) = .blank := by
  simp only [headerLine, Utf8.decode_encode]
  rfl

/-! ### Waiting -/

/-- What a poll comes to once more bytes have arrived. -/
def Poll.resume (serde : Serde) (eof : Bool) (p : Poll) (input : List UInt8) : Poll :=
  match p with
  | .ready result rest => .ready result (rest ++ input)
  | .pending future => poll serde eof future input
  | .panicked => .panicked

lemma readBody_append (length : ℕ) (filled a b : List UInt8) :
    readBody serde eof length filled (a ++ b) =
      (readBody serde false length filled a).resume serde eof b := by
  by_cases h : length ≤ (filled ++ a).length
  · have h' : length ≤ (filled ++ (a ++ b)).length := by
      rw [← List.append_assoc, List.length_append]
      omega
    simp only [readBody, h, h', if_true, Poll.resume]
    rw [← List.append_assoc, List.take_append_of_le_length h, List.drop_append_of_le_length h]
  · simp only [readBody, h, if_false, Bool.false_eq_true, Poll.resume, poll, List.append_assoc]

lemma startBody_append (contentLength : Option ℕ) (a b : List UInt8) :
    startBody serde eof contentLength (a ++ b) =
      (startBody serde false contentLength a).resume serde eof b := by
  cases contentLength with
  | none => rfl
  | some length =>
    unfold startBody
    by_cases h : isizeMax < length
    · simp [h, Poll.resume]
    · simp only [h, if_false]
      exact readBody_append length [] a b

lemma readHeader_append (contentLength : Option ℕ) (sawHeader : Bool) (lineBuf a b : List UInt8) :
    readHeader serde eof contentLength sawHeader lineBuf (a ++ b) =
      (readHeader serde false contentLength sawHeader lineBuf a).resume serde eof b := by
  induction a generalizing contentLength sawHeader lineBuf with
  | nil => simp [readHeader, Poll.resume, poll]
  | cons c a ih =>
    rw [List.cons_append]
    unfold readHeader
    by_cases hc : c = lineFeed
    · simp only [hc, if_true]
      cases headerLine (lineBuf ++ [lineFeed]) with
      | blank => exact startBody_append contentLength a b
      | length n => exact ih (some n) true []
      | invalid e => rfl
    · simp only [hc, if_false]
      exact ih contentLength sawHeader (lineBuf ++ [c])

/-- **A call goes on after a wait** as if all the bytes had been there at once. -/
theorem poll_append (future : ReadFuture) (a b : List UInt8) :
    poll serde eof future (a ++ b) = (poll serde false future a).resume serde eof b := by
  cases future with
  | header contentLength sawHeader lineBuf => exact readHeader_append ..
  | body length filled => exact readBody_append ..

lemma poll_append_pending {future future' : ReadFuture} {a : List UInt8}
    (h : poll serde false future a = .pending future') (b : List UInt8) :
    poll serde eof future (a ++ b) = poll serde eof future' b := by
  rw [poll_append, h]
  rfl

/-- A call that waits for the header has taken something since it began. -/
lemma readHeader_ne_start {lineBuf input : List UInt8}
    (h : readHeader serde false contentLength sawHeader lineBuf input = .pending .start) :
    contentLength = none ∧ sawHeader = false ∧ lineBuf = [] ∧ input = [] := by
  induction input generalizing contentLength sawHeader lineBuf with
  | nil =>
    simp only [readHeader, Bool.false_eq_true, if_false, Poll.pending.injEq, ReadFuture.start,
      ReadFuture.header.injEq] at h
    obtain ⟨h1, h2, h3⟩ := h
    exact ⟨h1, h2, h3, rfl⟩
  | cons c input ih =>
    unfold readHeader at h
    by_cases hc : c = lineFeed
    · simp only [hc, if_true] at h
      cases hl : headerLine (lineBuf ++ [lineFeed]) with
      | blank =>
        -- the body begins
        simp only [hl, startBody] at h
        cases contentLength with
        | none => simp at h
        | some length =>
          simp only [readBody] at h
          split_ifs at h
          simp [ReadFuture.start] at h
      | length n =>
        simp only [hl] at h
        exact absurd (ih h).1 (by simp)
      | invalid e => simp [hl] at h
    · simp only [hc, if_false] at h
      exact absurd (ih h).2.2.1 (by simp)

/-- **A call that is where it began** has taken nothing. -/
theorem eq_nil_of_pending_start {input : List UInt8}
    (h : poll serde false .start input = .pending .start) : input = [] :=
  (readHeader_ne_start h).2.2.2

/-! ### Frames -/

lemma readHeader_line {lineBuf line input : List UInt8} (h : lineFeed ∉ line) :
    readHeader serde eof contentLength sawHeader lineBuf (line ++ lineFeed :: input) =
      match headerLine (lineBuf ++ line ++ [lineFeed]) with
      | .blank => startBody serde eof contentLength input
      | .length length => readHeader serde eof (some length) true [] input
      | .invalid e => .ready (.error e) input := by
  induction line generalizing lineBuf with
  | nil =>
    rw [List.nil_append, List.append_nil]
    exact if_pos rfl
  | cons c line ih =>
    have hc : c ≠ lineFeed := fun e => h (e ▸ List.mem_cons_self)
    have hline : lineFeed ∉ line := fun hm => h (List.mem_cons_of_mem _ hm)
    have happ : lineBuf ++ [c] ++ line ++ [lineFeed] = lineBuf ++ (c :: line) ++ [lineFeed] := by
      simp
    rw [List.cons_append, readHeader, if_neg hc, ih hline, happ]

lemma lineFeed_notMem_lengthLine (n : ℕ) : lineFeed ∉ Utf8.encode (lengthLine n) := by
  intro h
  have hc : '\n' ∈ lengthLine n := Utf8.mem_of_mem_encode h (by decide)
  simp only [lengthLine, List.mem_append, List.mem_cons, List.not_mem_nil, or_false] at hc
  rcases hc with hc | hc | hc | hc
  · exact absurd hc (by decide)
  · exact absurd hc (by decide)
  · exact absurd (isDigit_of_mem hc) (by decide)
  · exact absurd hc (by decide)

lemma encode_header (n : ℕ) :
    Utf8.encode (header n) = Utf8.encode (lengthLine n) ++ lineFeed :: 13 :: [lineFeed] := by
  have happ : header n = lengthLine n ++ ['\n', '\r', '\n'] := by simp [header, lengthLine]
  rw [happ, Utf8.encode_append]
  rfl

lemma readHeader_lengthLine {n : ℕ} (hn : n ≤ usizeMax) (input : List UInt8) :
    readHeader serde eof none false [] (Utf8.encode (lengthLine n) ++ lineFeed :: input) =
      readHeader serde eof (some n) true [] input := by
  have hl : [] ++ Utf8.encode (lengthLine n) ++ [lineFeed] =
      Utf8.encode (lengthLine n ++ ['\n']) := by
    rw [Utf8.encode_append]
    rfl
  rw [readHeader_line (lineFeed_notMem_lengthLine n), hl, headerLine_lengthLine hn]

lemma usizeMax_of_fits {n : ℕ} (hn : n ≤ isizeMax) : n ≤ usizeMax :=
  hn.trans (by decide)

/-- After the header comes the body. -/
lemma poll_header {n : ℕ} (hn : n ≤ isizeMax) (input : List UInt8) :
    poll serde eof .start (Utf8.encode (header n) ++ input) =
      readBody serde eof n [] input := by
  have hblank : headerLine ([] ++ [13] ++ [lineFeed]) = .blank := headerLine_blank
  have happ : Utf8.encode (header n) ++ input =
      Utf8.encode (lengthLine n) ++ lineFeed :: ([13] ++ lineFeed :: input) := by
    simp [encode_header]
  rw [happ, ReadFuture.start, poll, readHeader_lengthLine (usizeMax_of_fits hn),
    readHeader_line (by decide), hblank]
  simp only [startBody, Nat.not_lt.mpr hn, if_false]

/-- **A frame is read as its body**, and what follows it is left. -/
theorem poll_frame {body : List UInt8} (hb : body.length ≤ isizeMax) (rest : List UInt8) :
    poll serde eof .start (frame body ++ rest) = .ready (deserialize serde body) rest := by
  rw [frame, List.append_assoc, poll_header hb]
  simp [readBody]

end DappyCore.Transport
