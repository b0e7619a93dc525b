import DappyCore.Lib.Text
import DappyCore.Transport

/-!
A source line in colours for the terminal. The line is gone over by bytes and sliced at the places
that come of it; a slice that begins or ends within a character panics, which is `none` here.
-/

namespace DappyCore.SourceView

open Lib Lib.Text Transport

/-! ### Terminal style -/

structure TerminalStyle where
  enabled : Bool

namespace TerminalStyle

def wrap (style : TerminalStyle) (text code : List Char) : List Char :=
  if style.enabled then "\x1b[".toList ++ (code ++ ('m' :: (text ++ "\x1b[0m".toList)))
  else text

def dim (style : TerminalStyle) (text : List Char) : List Char := style.wrap text ['2']

def yellow (style : TerminalStyle) (text : List Char) : List Char := style.wrap text ['3', '3']

def blue (style : TerminalStyle) (text : List Char) : List Char := style.wrap text ['3', '4']

end TerminalStyle

/-! ### Strings -/

/-- Where a string ends, from `idx` on. What follows a backslash is a byte that does not count. -/
def stringEnd (bytes : List UInt8) (quote : UInt8) (idx : ℕ) : ℕ :=
  if h : idx < bytes.length then
    if bytes[idx] = '\\'.toUInt8 then stringEnd bytes quote (min (idx + 2) bytes.length)
    else if bytes[idx] = quote then idx + 1
    else stringEnd bytes quote (idx + 1)
  else idx
termination_by bytes.length - idx

lemma le_stringEnd (bytes : List UInt8) (quote : UInt8) (idx : ℕ) :
    idx ≤ stringEnd bytes quote idx := by
  fun_induction stringEnd bytes quote idx with
  | case1 idx h hslash ih => omega
  | case2 idx h hslash hquote => omega
  | case3 idx h hslash hquote ih => omega
  | case4 idx h => omega

/-! ### Keywords -/

def keywords : List String :=
  ["def ", "class ", "return ", "import ", "from ", "if ", "for ", "while ", "elif ", "else:",
    "try:", "except"]

def beginsKeyword (text : List Char) : Bool := keywords.any (·.toList.isPrefixOf text)

def endsKeyword (c : Char) : Bool := isWhitespace c || c = ':'

/-- Where a keyword ends that begins at `idx`, where this is the rest of the line. -/
def kwEnd (line rest : List Char) (idx : ℕ) : ℕ :=
  match position endsKeyword rest with
  | some offset => idx + offset
  | none => size line

/-- No keyword begins with a character that ends one. -/
lemma head_of_beginsKeyword {text : List Char} (h : beginsKeyword text) :
    ∃ c rest, text = c :: rest ∧ endsKeyword c = false := by
  have hall : ∀ keyword ∈ keywords, keyword.toList.head?.any (! endsKeyword ·) := by decide
  obtain ⟨keyword, hmem, hbegins⟩ := List.any_eq_true.mp h
  obtain ⟨c, hhead, hc⟩ := (Option.any_eq_true _ _).mp (hall keyword hmem)
  obtain ⟨letters, hletters⟩ := List.head?_eq_some_iff.mp hhead
  obtain ⟨rest, rfl⟩ := List.isPrefixOf_iff_prefix.mp hbegins
  refine ⟨c, letters ++ rest, ?_, by simpa using hc⟩
  rw [hletters, List.cons_append]

lemma lt_kwEnd {line rest : List Char} {idx : ℕ} (hidx : idx < size line)
    (h : beginsKeyword rest) : idx < kwEnd line rest idx := by
  obtain ⟨c, rest, rfl, hc⟩ := head_of_beginsKeyword h
  unfold kwEnd
  cases hposition : position endsKeyword (c :: rest) with
  | none => exact hidx
  | some offset =>
    rw [position, if_neg (by simp [hc]), Option.map_eq_some_iff] at hposition
    obtain ⟨n, -, rfl⟩ := hposition
    have hpos := c.utf8Size_pos
    dsimp only
    omega

/-! ### Highlighting -/

/-- The loop of `highlight_python_line`, with what is put out so far. -/
def highlightFrom (style : TerminalStyle) (line : List Char) (idx : ℕ) (out : List Char) :
    Option (List Char) :=
  let bytes := Utf8.encode line
  if h : idx < bytes.length then
    if bytes[idx] = '#'.toUInt8 then (sliceFrom line idx).map (out ++ style.dim ·)
    else if bytes[idx] = '"'.toUInt8 ∨ bytes[idx] = '\''.toUInt8 then
      let stop := stringEnd bytes bytes[idx] (idx + 1)
      match slice line idx stop with
      | none => none
      | some text => highlightFrom style line stop (out ++ style.yellow text)
    else
      match sliceFrom line idx with
      | none => none
      | some rest =>
        if hkeyword : beginsKeyword rest then
          match slice line idx (kwEnd line rest idx) with
          | none => none
          | some text => highlightFrom style line (kwEnd line rest idx) (out ++ style.blue text)
        else
          match slice line idx (idx + 1) with
          | none => none
          | some text => highlightFrom style line (idx + 1) (out ++ text)
  else some out
termination_by (Utf8.encode line).length - idx
decreasing_by
  all_goals have hidx : idx < (Utf8.encode line).length := h
  · have hle := le_stringEnd (Utf8.encode line) (Utf8.encode line)[idx] (idx + 1)
    omega
  · have hlt := lt_kwEnd (length_encode line ▸ h) hkeyword
    omega
  · omega

def highlightPythonLine (line : List Char) (style : TerminalStyle) : Option (List Char) :=
  if ¬ style.enabled then some line
  else if ['#'].isPrefixOf (line.dropWhile isWhitespace) then some (style.dim line)
  else highlightFrom style line 0 []

def highlightSourceLine (line : List Char) (style : TerminalStyle) : Option (List Char) :=
  if ¬ style.enabled then some line
  else if "//".toList.isPrefixOf (line.dropWhile isWhitespace) then some (style.dim line)
  else highlightPythonLine line style

end DappyCore.SourceView
