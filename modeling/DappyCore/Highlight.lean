import DappyCore.SourceView

/-!
What a highlighted line is of: comments, strings, keywords and the characters between them. The
code goes over bytes, and takes a character between them for one byte.
-/

namespace DappyCore.SourceView

open Lib Lib.Text Transport

/-! ### Lexemes -/

/-- The parts of a line. -/
inductive Lexeme
  | comment (text : List Char)
  | string (text : List Char)
  | keyword (text : List Char)
  | plain (c : Char)

namespace Lexeme

def text : Lexeme → List Char
  | comment text | string text | keyword text => text
  | plain c => [c]

/-- A part with the escape sequences around it. -/
def shown (style : TerminalStyle) : Lexeme → List Char
  | comment text => style.dim text
  | string text => style.yellow text
  | keyword text => style.blue text
  | plain c => [c]

/-- A character by itself is of ASCII. -/
def oneByte : Lexeme → Bool
  | plain c => c.toNat < 128
  | _ => true

end Lexeme

/-- The rest of a string up to its quote, and what is after it. A backslash takes the next
character with it. -/
def stringSplit (quote : Char) : List Char → List Char × List Char
  | [] => ([], [])
  | [c] => ([c], [])
  | c :: d :: text =>
    if c = '\\' then (c :: d :: (stringSplit quote text).1, (stringSplit quote text).2)
    else if c = quote then ([c], d :: text)
    else (c :: (stringSplit quote (d :: text)).1, (stringSplit quote (d :: text)).2)

lemma stringSplit_append (quote : Char) (text : List Char) :
    (stringSplit quote text).1 ++ (stringSplit quote text).2 = text := by
  fun_induction stringSplit quote text with
  | case1 => rfl
  | case2 c => rfl
  | case3 d text ih => rw [List.cons_append, List.cons_append, ih]
  | case4 d text hslash => rfl
  | case5 c d text hslash hquote ih => rw [List.cons_append, ih]

lemma length_stringSplit_le (quote : Char) (text : List Char) :
    (stringSplit quote text).2.length ≤ text.length := by
  have hlen := congrArg List.length (stringSplit_append quote text)
  rw [List.length_append] at hlen
  omega

lemma length_dropWhile_lt {text : List Char} (h : beginsKeyword text) :
    (text.dropWhile (! endsKeyword ·)).length < text.length := by
  obtain ⟨c, rest, rfl, hc⟩ := head_of_beginsKeyword h
  rw [List.dropWhile_cons_of_pos (by simpa using hc), List.length_cons]
  exact Nat.lt_succ_of_le (List.dropWhile_suffix _).length_le

/-- The parts of a line, in order. -/
def lex : List Char → List Lexeme
  | [] => []
  | c :: rest =>
    if c = '#' then [.comment (c :: rest)]
    else if c = '"' ∨ c = '\'' then
      .string (c :: (stringSplit c rest).1) :: lex (stringSplit c rest).2
    else if beginsKeyword (c :: rest) then
      .keyword ((c :: rest).takeWhile (! endsKeyword ·)) ::
        lex ((c :: rest).dropWhile (! endsKeyword ·))
    else .plain c :: lex rest
termination_by text => text.length
decreasing_by
  · have hle := length_stringSplit_le c rest
    rw [List.length_cons]
    omega
  · exact length_dropWhile_lt ‹_›
  · rw [List.length_cons]
    omega

/-- A line that is all comment. -/
def isComment (line : List Char) : Bool :=
  "//".toList.isPrefixOf (line.dropWhile isWhitespace) ||
    ['#'].isPrefixOf (line.dropWhile isWhitespace)

/-! ### The law -/

/-- A line without the escape sequences in it. -/
def strip : List Char → List Char
  | [] => []
  | c :: text => if c = '\x1b' then strip ((text.dropWhile (· ≠ 'm')).drop 1) else c :: strip text
termination_by text => text.length
decreasing_by
  · have hle := (List.dropWhile_suffix (l := text) (· ≠ 'm')).length_le
    rw [List.length_drop, List.length_cons]
    omega
  · rw [List.length_cons]
    omega

/-- The line is there, with escape sequences around parts of it; where it has none itself, it is
what is left without them. -/
structure GivesBack (line out : List Char) : Prop where
  inserted : ∃ lexemes : List Lexeme, lexemes.flatMap Lexeme.text = line ∧
    lexemes.flatMap (Lexeme.shown ⟨true⟩) = out
  stripped : '\x1b' ∉ line → strip out = line

/-! ### Bytes -/

section Bytes

variable {quote : UInt8} {before after part : List UInt8} {b : UInt8}

lemma stringEnd_cons : stringEnd (before ++ b :: after) quote before.length =
    if b = '\\'.toUInt8 then stringEnd (before ++ b :: after) quote
      (min (before.length + 2) (before ++ b :: after).length)
    else if b = quote then before.length + 1
    else stringEnd (before ++ b :: after) quote (before.length + 1) := by
  have hlt : before.length < (before ++ b :: after).length := by simp
  have hget : (before ++ b :: after)[before.length] = b := by simp
  rw [stringEnd, dif_pos hlt, hget]

lemma stringEnd_length (bytes : List UInt8) :
    stringEnd bytes quote bytes.length = bytes.length := by
  rw [stringEnd, dif_neg (Nat.lt_irrefl _)]

/-- Bytes that are no backslash and no quote are gone over one by one. -/
lemma stringEnd_append (h : ∀ b ∈ part, b ≠ '\\'.toUInt8 ∧ b ≠ quote) :
    stringEnd (before ++ (part ++ after)) quote before.length =
      stringEnd (before ++ (part ++ after)) quote (before.length + part.length) := by
  induction part generalizing before with
  | nil => rfl
  | cons b part ih =>
    obtain ⟨⟨hslash, hquote⟩, hpart⟩ := List.forall_mem_cons.mp h
    have hmove : before ++ b :: (part ++ after) = (before ++ [b]) ++ (part ++ after) := by simp
    have hlen : before.length + 1 = (before ++ [b]).length := by simp
    rw [List.cons_append, stringEnd_cons, if_neg hslash, if_neg hquote, hlen, hmove, ih hpart,
      List.length_append, List.length_singleton, List.length_cons, Nat.add_assoc,
      Nat.add_comm 1]

end Bytes

lemma encode_cons (c : Char) (text : List Char) :
    Utf8.encode (c :: text) = String.utf8EncodeChar c ++ Utf8.encode text := List.flatMap_cons

lemma length_encodeChar (c : Char) : (String.utf8EncodeChar c).length = c.utf8Size := by
  have hlen := length_encode [c]
  rwa [encode_cons, Utf8.encode, List.flatMap_nil, List.append_nil, size_cons, size_nil,
    Nat.add_zero] at hlen

lemma exists_encodeChar (c : Char) : ∃ b bs, String.utf8EncodeChar c = b :: bs := by
  have hpos := c.utf8Size_pos
  rw [← length_encodeChar] at hpos
  exact List.exists_cons_of_ne_nil (List.length_pos_iff.mp hpos)

/-- All bytes but the first of a character are past ASCII. -/
lemma le_of_mem_tail_encodeChar {c : Char} {b : UInt8} (hb : b ∈ (String.utf8EncodeChar c).tail) :
    128 ≤ b.toNat := by
  by_contra hlt
  have hc := Utf8.lt_of_mem_encodeChar (List.mem_of_mem_tail hb) (by omega)
  rw [Utf8.encode_ascii hc] at hb
  cases hb

section Strings

variable {quote : Char} (hquote : quote.toNat < 128)
include hquote

/-- The bytes of a character that is no backslash and no quote are none either. -/
lemma ne_of_mem_encodeChar {c : Char} (hc : c ≠ '\\') (hne : c ≠ quote) :
    ∀ b ∈ String.utf8EncodeChar c, b ≠ '\\'.toUInt8 ∧ b ≠ UInt8.ofNat quote.toNat := by
  intro b hb
  constructor
  · rintro rfl
    exact hc (Utf8.eq_of_mem_encodeChar (by decide) hb)
  · rintro rfl
    exact hne (Utf8.eq_of_mem_encodeChar hquote hb)

/-- Nor are those after the first byte of any character. -/
lemma ne_of_mem_tail_encodeChar (c : Char) :
    ∀ b ∈ (String.utf8EncodeChar c).tail, b ≠ '\\'.toUInt8 ∧ b ≠ UInt8.ofNat quote.toNat := by
  intro b hb
  have hle := le_of_mem_tail_encodeChar hb
  constructor
  · rintro rfl
    exact absurd hle (by decide)
  · rintro rfl
    rw [UInt8.toNat_ofNat', Nat.mod_eq_of_lt (by omega)] at hle
    omega

/-- A character that is no backslash and no quote is gone over. -/
lemma stringEnd_skip {c : Char} (hc : c ≠ '\\') (hne : c ≠ quote) (front text : List Char) :
    stringEnd (Utf8.encode (front ++ c :: text)) (UInt8.ofNat quote.toNat) (size front) =
      stringEnd (Utf8.encode (front ++ c :: text)) (UInt8.ofNat quote.toNat)
        (size (front ++ [c])) := by
  have hbytes := ne_of_mem_encodeChar hquote hc hne
  rw [Utf8.encode_append, encode_cons, ← length_encode front, stringEnd_append hbytes,
    length_encodeChar, size_append, length_encode, size_cons, size_nil, Nat.add_zero]

/-- A backslash takes one byte with it, and the rest of that byte's character is gone over. -/
lemma stringEnd_backslash (d : Char) (front text : List Char) :
    stringEnd (Utf8.encode (front ++ '\\' :: d :: text)) (UInt8.ofNat quote.toNat) (size front) =
      stringEnd (Utf8.encode (front ++ '\\' :: d :: text)) (UInt8.ofNat quote.toNat)
        (size (front ++ ['\\', d])) := by
  obtain ⟨b, bs, hd⟩ := exists_encodeChar d
  have hbytes := ne_of_mem_tail_encodeChar hquote d
  rw [hd, List.tail_cons] at hbytes
  have hsize : size (front ++ ['\\', d]) = (Utf8.encode front ++ ['\\'.toUInt8, b]).length +
      bs.length := by
    have hlen := length_encodeChar d
    rw [hd, List.length_cons] at hlen
    have hslash : ('\\').utf8Size = 1 := rfl
    simp only [size_append, size_cons, size_nil, List.length_append, length_encode,
      List.length_cons, List.length_nil]
    omega
  have hwhole : Utf8.encode (front ++ '\\' :: d :: text) =
      (Utf8.encode front ++ ['\\'.toUInt8, b]) ++ (bs ++ Utf8.encode text) := by
    rw [Utf8.encode_append, encode_cons, encode_cons, hd, Utf8.encode_ascii (by decide),
      List.append_assoc]
    rfl
  have hslash : Utf8.encode (front ++ '\\' :: d :: text) =
      Utf8.encode front ++ '\\'.toUInt8 :: (b :: bs ++ Utf8.encode text) := by
    rw [hwhole, List.append_assoc]
    rfl
  have hmin : min ((Utf8.encode front).length + 2)
      (Utf8.encode front ++ '\\'.toUInt8 :: (b :: bs ++ Utf8.encode text)).length =
        (Utf8.encode front ++ ['\\'.toUInt8, b]).length := by
    simp
  calc stringEnd (Utf8.encode (front ++ '\\' :: d :: text)) (UInt8.ofNat quote.toNat) (size front)
      = stringEnd (Utf8.encode (front ++ '\\' :: d :: text)) (UInt8.ofNat quote.toNat)
          (Utf8.encode front ++ ['\\'.toUInt8, b]).length := by
        rw [hslash, ← length_encode, stringEnd_cons, if_pos rfl, hmin]
    _ = _ := by rw [hwhole, stringEnd_append hbytes, hsize]

lemma stringEnd_quote (hslash : quote ≠ '\\') (front text : List Char) :
    stringEnd (Utf8.encode (front ++ quote :: text)) (UInt8.ofNat quote.toNat) (size front) =
      size (front ++ [quote]) := by
  have hne : UInt8.ofNat quote.toNat ≠ '\\'.toUInt8 := by
    intro heq
    have hmem : UInt8.ofNat '\\'.toNat ∈ String.utf8EncodeChar quote := by
      rw [Utf8.encode_ascii hquote, heq]
      exact List.mem_singleton_self _
    exact hslash (Utf8.eq_of_mem_encodeChar (by decide) hmem)
  have hsize : quote.utf8Size = 1 := Char.utf8Size_eq_one_iff.mpr (Nat.le_of_lt_succ hquote)
  rw [Utf8.encode_append, encode_cons, Utf8.encode_ascii hquote, ← length_encode front,
    List.singleton_append, stringEnd_cons, if_neg hne, if_pos rfl, length_encode, size_append,
    size_cons, hsize, size_nil]

/-- **The end of a string** is between two characters: a backslash that takes only the first byte
of a character with it leaves bytes that are neither a backslash nor a quote. -/
lemma stringEnd_eq (hslash : quote ≠ '\\') (front text : List Char) :
    stringEnd (Utf8.encode (front ++ text)) (UInt8.ofNat quote.toNat) (size front) =
      size (front ++ (stringSplit quote text).1) := by
  induction text using stringSplit.induct quote generalizing front with
  | case1 =>
    rw [stringSplit, List.append_nil, ← length_encode, stringEnd_length]
  | case2 c =>
    rw [stringSplit, ← length_encode (front ++ [c])]
    by_cases hc : c = '\\'
    · have hwhole : Utf8.encode (front ++ [c]) = Utf8.encode front ++ ['\\'.toUInt8] := by
        rw [Utf8.encode_append, hc]
        rfl
      have hmin : min ((Utf8.encode front).length + 2)
          (Utf8.encode front ++ ['\\'.toUInt8]).length =
            (Utf8.encode front ++ ['\\'.toUInt8]).length := by
        simp
      rw [hwhole, ← length_encode front, stringEnd_cons, if_pos rfl, hmin, stringEnd_length]
    · by_cases hne : c = quote
      · rw [hne, stringEnd_quote hquote hslash, length_encode]
      · rw [stringEnd_skip hquote hc hne, ← length_encode, stringEnd_length]
  | case3 d text ih =>
    have hmove : front ++ '\\' :: d :: text = (front ++ ['\\', d]) ++ text := by simp
    rw [stringEnd_backslash hquote, hmove, ih, stringSplit, if_pos rfl]
    simp
  | case4 d text hne =>
    rw [stringEnd_quote hquote hslash, stringSplit, if_neg hslash, if_pos rfl]
  | case5 c d text hne hc ih =>
    have hmove : front ++ c :: d :: text = (front ++ [c]) ++ d :: text := by simp
    rw [stringEnd_skip hquote hne hc, hmove, ih, stringSplit, if_neg hne, if_neg hc]
    simp

end Strings

/-! ### The loop -/

variable {style : TerminalStyle}

/-- The byte at a place is that of an ASCII character where the character is. -/
lemma getElem_encode (front rest : List Char) (c : Char) :
    ∃ h : size front < (Utf8.encode (front ++ c :: rest)).length, ∀ d : Char, d.toNat < 128 →
      ((Utf8.encode (front ++ c :: rest))[size front] = UInt8.ofNat d.toNat ↔ c = d) := by
  obtain ⟨b, bs, hc⟩ := exists_encodeChar c
  have hwhole : Utf8.encode (front ++ c :: rest) =
      Utf8.encode front ++ b :: (bs ++ Utf8.encode rest) := by
    rw [Utf8.encode_append, encode_cons, hc, List.cons_append]
  have hlen := length_encode front
  have hget : (Utf8.encode (front ++ c :: rest))[size front]? = some b := by
    rw [hwhole, ← hlen, List.getElem?_append_right (Nat.le_refl _), Nat.sub_self]
    rfl
  obtain ⟨hlt, hbyte⟩ := List.getElem?_eq_some_iff.mp hget
  refine ⟨hlt, fun d hd => ?_⟩
  rw [hbyte]
  constructor
  · rintro rfl
    refine Utf8.eq_of_mem_encodeChar hd ?_
    rw [hc]
    exact List.mem_cons_self
  · rintro rfl
    rw [Utf8.encode_ascii hd] at hc
    exact (List.cons.inj hc).1.symm

lemma highlightFrom_nil (front out : List Char) :
    highlightFrom style (front ++ []) (size front) out = some out := by
  rw [highlightFrom]
  dsimp only
  rw [dif_neg]
  rw [List.append_nil, length_encode]
  exact Nat.lt_irrefl _

lemma utf8Size_of_lt {c : Char} (h : c.toNat < 128) : c.utf8Size = 1 :=
  Char.utf8Size_eq_one_iff.mpr (Nat.le_of_lt_succ h)

/-- One byte is a character of ASCII, or within one. -/
lemma sliceTo_one (c : Char) (rest : List Char) :
    sliceTo (c :: rest) 1 = if c.toNat < 128 then some [c] else none := by
  split_ifs with h
  · have hsize : size [c] = 1 := utf8Size_of_lt h
    exact sliceTo_append hsize
  · have hlt : 1 < c.utf8Size := by
      have hpos := c.utf8Size_pos
      have hne : c.utf8Size ≠ 1 := fun hone => h (Nat.lt_succ_of_le
        (Char.utf8Size_eq_one_iff.mp hone))
      omega
    rw [sliceTo, cut_cons_of_lt (by decide) hlt, Option.map_none]

lemma kwEnd_eq (front rest : List Char) : kwEnd (front ++ rest) rest (size front) =
    size (front ++ rest.takeWhile (! endsKeyword ·)) := by
  rw [size_append, ← position_eq, kwEnd]
  cases position endsKeyword rest with
  | none => exact size_append front rest
  | some offset => rfl

lemma lt_of_isQuote {c : Char} (h : c = '"' ∨ c = '\'') : c.toNat < 128 := by
  rcases h with rfl | rfl <;> decide

/-- A string from its quote on. -/
lemma stringEnd_string {c : Char} (h : c = '"' ∨ c = '\'') (front rest : List Char) :
    stringEnd (Utf8.encode (front ++ c :: rest)) (UInt8.ofNat c.toNat) (size front + 1) =
      size (front ++ c :: (stringSplit c rest).1) := by
  have hslash : c ≠ '\\' := by
    rcases h with rfl | rfl <;> decide
  have hsize : size (front ++ [c]) = size front + 1 := by
    rw [size_append, size_cons, size_nil, utf8Size_of_lt (lt_of_isQuote h)]
  have hline : front ++ c :: rest = (front ++ [c]) ++ rest := by simp
  rw [hline, ← hsize, stringEnd_eq (lt_of_isQuote h) hslash, List.append_assoc,
    List.singleton_append]

/-- **A round of the loop.** -/
lemma highlightFrom_cons (front : List Char) (c : Char) (rest out : List Char) :
    highlightFrom style (front ++ c :: rest) (size front) out =
      if c = '#' then some (out ++ style.dim (c :: rest))
      else if c = '"' ∨ c = '\'' then
        highlightFrom style (front ++ c :: rest) (size (front ++ c :: (stringSplit c rest).1))
          (out ++ style.yellow (c :: (stringSplit c rest).1))
      else if beginsKeyword (c :: rest) then
        highlightFrom style (front ++ c :: rest)
          (size (front ++ (c :: rest).takeWhile (! endsKeyword ·)))
          (out ++ style.blue ((c :: rest).takeWhile (! endsKeyword ·)))
      else if c.toNat < 128 then
        highlightFrom style (front ++ c :: rest) (size (front ++ [c])) (out ++ [c])
      else none := by
  obtain ⟨hlt, hbyte⟩ := getElem_encode front rest c
  have hhash : (Utf8.encode (front ++ c :: rest))[size front] = '#'.toUInt8 ↔ c = '#' :=
    hbyte '#' (by decide)
  have hdouble : (Utf8.encode (front ++ c :: rest))[size front] = '"'.toUInt8 ↔ c = '"' :=
    hbyte '"' (by decide)
  have hsingle : (Utf8.encode (front ++ c :: rest))[size front] = '\''.toUInt8 ↔ c = '\'' :=
    hbyte '\'' (by decide)
  -- the cuts are between characters
  have hslice : ∀ part after : List Char, c :: rest = part ++ after →
      slice (front ++ c :: rest) (size front) (size (front ++ part)) = some part := by
    intro part after heq
    rw [heq]
    exact slice_append rfl (size_append front part).symm
  rw [highlightFrom]
  simp only [hhash, hdouble, hsingle]
  rw [dif_pos hlt]
  by_cases hcomment : c = '#'
  · -- the comment goes to the end of the line
    rw [if_pos hcomment, if_pos hcomment, sliceFrom_append rfl]
    rfl
  · rw [if_neg hcomment, if_neg hcomment]
    by_cases hquote : c = '"' ∨ c = '\''
    · -- a string, up to its quote or the end of the line
      have hstop : stringEnd (Utf8.encode (front ++ c :: rest))
          (Utf8.encode (front ++ c :: rest))[size front] (size front + 1) =
            size (front ++ c :: (stringSplit c rest).1) := by
        rw [(hbyte c (lt_of_isQuote hquote)).mpr rfl, stringEnd_string hquote]
      have hsplit : c :: rest = c :: (stringSplit c rest).1 ++ (stringSplit c rest).2 := by
        rw [List.cons_append, stringSplit_append]
      rw [if_pos hquote, if_pos hquote, hstop, hslice _ _ hsplit]
    · rw [if_neg hquote, if_neg hquote, sliceFrom_append rfl]
      dsimp only
      by_cases hkeyword : beginsKeyword (c :: rest)
      · -- a keyword
        rw [dif_pos hkeyword, if_pos hkeyword, kwEnd_eq,
          hslice _ _ List.takeWhile_append_dropWhile.symm]
      · -- a character by itself, which is taken for one byte
        rw [dif_neg hkeyword, if_neg hkeyword, slice_of_append rfl, sliceTo_one]
        by_cases hascii : c.toNat < 128
        · rw [if_pos hascii, if_pos hascii, size_append, size_cons, size_nil,
            utf8Size_of_lt hascii]
        · rw [if_neg hascii, if_neg hascii]

/-- **The loop** shows the parts of what is left, and panics at a character by itself that is past
ASCII. -/
lemma highlightFrom_eq (front rest out : List Char) :
    highlightFrom style (front ++ rest) (size front) out =
      if (lex rest).all Lexeme.oneByte then some (out ++ (lex rest).flatMap (Lexeme.shown style))
      else none := by
  induction rest using lex.induct generalizing front out with
  | case1 =>
    rw [highlightFrom_nil, lex, if_pos List.all_nil, List.flatMap_nil, List.append_nil]
  | case2 rest =>
    rw [highlightFrom_cons, if_pos rfl, lex, if_pos rfl]
    simp [Lexeme.oneByte, Lexeme.shown]
  | case3 c rest hcomment hquote ih =>
    -- a string
    have hline : front ++ c :: rest =
        (front ++ c :: (stringSplit c rest).1) ++ (stringSplit c rest).2 := by
      rw [List.append_assoc, List.cons_append, stringSplit_append]
    rw [highlightFrom_cons, if_neg hcomment, if_pos hquote, hline, ih, lex, if_neg hcomment,
      if_pos hquote, List.all_cons, List.flatMap_cons, List.append_assoc]
    rfl
  | case4 c rest hcomment hquote hkeyword ih =>
    -- a keyword
    have hline : front ++ c :: rest = (front ++ (c :: rest).takeWhile (! endsKeyword ·)) ++
        (c :: rest).dropWhile (! endsKeyword ·) := by
      rw [List.append_assoc, List.takeWhile_append_dropWhile]
    rw [highlightFrom_cons, if_neg hcomment, if_neg hquote, if_pos hkeyword, hline, ih, lex,
      if_neg hcomment, if_neg hquote, if_pos hkeyword, List.all_cons, List.flatMap_cons,
      List.append_assoc]
    rfl
  | case5 c rest hcomment hquote hkeyword ih =>
    -- a character by itself
    have hline : front ++ c :: rest = (front ++ [c]) ++ rest := by simp
    rw [highlightFrom_cons, if_neg hcomment, if_neg hquote, if_neg hkeyword, hline, ih, lex,
      if_neg hcomment, if_neg hquote, if_neg hkeyword, List.all_cons, List.flatMap_cons,
      List.append_assoc]
    by_cases hascii : c.toNat < 128
    · rw [if_pos hascii, Lexeme.oneByte, decide_eq_true hascii, Bool.true_and]
      rfl
    · rw [if_neg hascii, Lexeme.oneByte, decide_eq_false hascii, Bool.false_and]
      rfl

/-! ### The line back -/

lemma flatMap_text_lex (line : List Char) : (lex line).flatMap Lexeme.text = line := by
  induction line using lex.induct with
  | case1 => rw [lex, List.flatMap_nil]
  | case2 rest =>
    rw [lex, if_pos rfl, List.flatMap_singleton]
    rfl
  | case3 c rest hcomment hquote ih =>
    rw [lex, if_neg hcomment, if_pos hquote, List.flatMap_cons, ih, Lexeme.text, List.cons_append,
      stringSplit_append]
  | case4 c rest hcomment hquote hkeyword ih =>
    rw [lex, if_neg hcomment, if_neg hquote, if_pos hkeyword, List.flatMap_cons, ih, Lexeme.text,
      List.takeWhile_append_dropWhile]
  | case5 c rest hcomment hquote hkeyword ih =>
    rw [lex, if_neg hcomment, if_neg hquote, if_neg hkeyword, List.flatMap_cons, ih]
    rfl

lemma strip_append {text : List Char} (h : '\x1b' ∉ text) (rest : List Char) :
    strip (text ++ rest) = text ++ strip rest := by
  induction text with
  | nil => rfl
  | cons c text ih =>
    rw [List.mem_cons, not_or] at h
    obtain ⟨hc, htext⟩ := h
    rw [List.cons_append, strip, if_neg (Ne.symm hc), ih htext, List.cons_append]

/-- An escape sequence ends with the first `m`. -/
lemma strip_escape {code : List Char} (h : 'm' ∉ code) (rest : List Char) :
    strip ('\x1b' :: (code ++ 'm' :: rest)) = strip rest := by
  have hcode : ∀ c ∈ code, decide (c ≠ 'm') = true := by
    intro c hc
    exact decide_eq_true fun heq => h (heq ▸ hc)
  rw [strip, if_pos rfl, List.dropWhile_append_of_pos hcode, List.dropWhile_cons_of_neg (by decide),
    List.drop_one, List.tail_cons]

/-- What is in a colour comes out without it. -/
lemma strip_wrap {text code : List Char} (htext : '\x1b' ∉ text) (hcode : 'm' ∉ code)
    (rest : List Char) :
    strip (TerminalStyle.wrap ⟨true⟩ text code ++ rest) = text ++ strip rest := by
  have hstart : 'm' ∉ '[' :: code := by
    rw [List.mem_cons, not_or]
    exact ⟨by decide, hcode⟩
  have hwrap : TerminalStyle.wrap ⟨true⟩ text code ++ rest =
      '\x1b' :: (('[' :: code) ++ 'm' :: (text ++ '\x1b' :: (['[', '0'] ++ 'm' :: rest))) := by
    simp [TerminalStyle.wrap]
  rw [hwrap, strip_escape hstart, strip_append htext, strip_escape (by decide)]

lemma strip_flatMap_shown {lexemes : List Lexeme}
    (h : ∀ lexeme ∈ lexemes, '\x1b' ∉ lexeme.text) :
    strip (lexemes.flatMap (Lexeme.shown ⟨true⟩)) = lexemes.flatMap Lexeme.text := by
  induction lexemes with
  | nil => rw [List.flatMap_nil, List.flatMap_nil, strip]
  | cons lexeme lexemes ih =>
    obtain ⟨hlexeme, hlexemes⟩ := List.forall_mem_cons.mp h
    rw [List.flatMap_cons, List.flatMap_cons, ← ih hlexemes]
    cases lexeme with
    | plain c => exact strip_append hlexeme _
    | _ => exact strip_wrap hlexeme (by decide) _

/-- Parts that are shown give back the line they are of. -/
lemma givesBack_of_lexemes {line : List Char} (lexemes : List Lexeme)
    (h : lexemes.flatMap Lexeme.text = line) :
    GivesBack line (lexemes.flatMap (Lexeme.shown ⟨true⟩)) where
  inserted := ⟨lexemes, h, rfl⟩
  stripped hescape := by
    rw [strip_flatMap_shown, h]
    intro lexeme hlexeme hmem
    rw [← h] at hescape
    exact hescape (List.mem_flatMap.mpr ⟨lexeme, hlexeme, hmem⟩)

lemma givesBack_comment (line : List Char) : GivesBack line (TerminalStyle.dim ⟨true⟩ line) := by
  have hback := givesBack_of_lexemes [.comment line] (List.flatMap_singleton _ _)
  rwa [List.flatMap_singleton] at hback

lemma all_oneByte_iff (line : List Char) : (lex line).all Lexeme.oneByte ↔
    ∀ c, Lexeme.plain c ∈ lex line → c.toNat < 128 := by
  rw [List.all_eq_true]
  constructor
  · intro h c hc
    exact of_decide_eq_true (h _ hc)
  · intro h lexeme hlexeme
    cases lexeme with
    | plain c => exact decide_eq_true (h c hlexeme)
    | _ => rfl

section Line

variable {line : List Char}

lemma highlightSourceLine_of_isComment (h : isComment line) :
    highlightSourceLine line ⟨true⟩ = some (TerminalStyle.dim ⟨true⟩ line) := by
  unfold highlightSourceLine
  rw [if_neg (by decide)]
  split_ifs with hslashes
  · rfl
  · have hhash : ['#'].isPrefixOf (line.dropWhile isWhitespace) := by
      rw [isComment, Bool.or_eq_true] at h
      exact h.resolve_left hslashes
    unfold highlightPythonLine
    rw [if_neg (by decide), if_pos hhash]

lemma highlightSourceLine_of_not_isComment (h : ¬ isComment line) :
    highlightSourceLine line ⟨true⟩ = if (lex line).all Lexeme.oneByte then
      some ((lex line).flatMap (Lexeme.shown ⟨true⟩)) else none := by
  have hloop : highlightFrom ⟨true⟩ ([] ++ line) (size []) [] =
      if (lex line).all Lexeme.oneByte then some ([] ++ (lex line).flatMap (Lexeme.shown ⟨true⟩))
      else none := highlightFrom_eq [] line []
  rw [isComment, Bool.or_eq_true, not_or] at h
  unfold highlightSourceLine
  rw [if_neg (by decide), if_neg h.1]
  unfold highlightPythonLine
  rw [if_neg (by decide), if_neg h.2]
  exact hloop

end Line

/-- **Highlighting gives the line back** where it is all comment, or has only ASCII between its
comment, strings and keywords. -/
theorem highlight_gives_back_iff (line : List Char) :
    (∃ out, highlightSourceLine line ⟨true⟩ = some out ∧ GivesBack line out) ↔
      isComment line ∨ ∀ c, Lexeme.plain c ∈ lex line → c.toNat < 128 := by
  rw [← all_oneByte_iff]
  by_cases hcomment : isComment line
  · refine iff_of_true ⟨_, highlightSourceLine_of_isComment hcomment, givesBack_comment line⟩ ?_
    exact .inl hcomment
  · rw [highlightSourceLine_of_not_isComment hcomment, or_iff_right hcomment]
    split_ifs with hascii
    · exact iff_of_true ⟨_, rfl, givesBack_of_lexemes _ (flatMap_text_lex line)⟩ hascii
    · refine iff_of_false ?_ hascii
      rintro ⟨_, hout, -⟩
      cases hout

/-- A letter past ASCII that is in no string. -/
theorem accent_panics :
    ¬ ∃ out, highlightSourceLine ['é'] ⟨true⟩ = some out ∧ GivesBack ['é'] out := by
  rintro ⟨out, hout, -⟩
  have hcomment : ¬ isComment ['é'] := by decide
  have hlex : (lex ['é']).all Lexeme.oneByte = false := by
    rw [lex, if_neg (by decide), if_neg (by decide), if_neg (by decide)]
    rfl
  rw [highlightSourceLine_of_not_isComment hcomment, hlex] at hout
  cases hout

end DappyCore.SourceView
