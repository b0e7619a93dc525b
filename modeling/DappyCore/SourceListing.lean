import DappyCore.FunctionResolve
import DappyCore.Highlight
import DappyCore.StopPolicy

/-!
A source listing for the terminal: the lines about the current one, with their numbers, a mark at
the current line, and colours that go without a trace where they are taken away.
-/

namespace DappyCore.SourceView

open Lib FunctionResolve Transport

namespace TerminalStyle

def green (style : TerminalStyle) (text : List Char) : List Char := style.wrap text ['3', '2']

def cyan (style : TerminalStyle) (text : List Char) : List Char := style.wrap text ['3', '6']

end TerminalStyle

/-! ### Listing -/

/-- `{line_no:>width$}`. -/
def lineNumber (width lineNo : ℕ) : List Char :=
  (Nat.toDigits 10 lineNo).leftpad width ' '

/-- One line of a listing. -/
def listingRow (style : TerminalStyle) (current width lineNo : ℕ) (text : List Char) : List Char :=
  let marker := if lineNo = current then style.green ['>'] else [' ']
  "  ".toList ++ (marker ++ ([' '] ++ (style.dim (lineNumber width lineNo) ++
    (" | ".toList ++ (text ++ ['\n'])))))

/-- The lines of these numbers, one after another. A line that panics ends it. -/
def listingRows (style : TerminalStyle) (lines : List (List Char)) (current width : ℕ) :
    List ℕ → Option (List Char)
  | [] => some []
  | lineNo :: rest => do
    let text ← highlightSourceLine (lines.getD (lineNo - 1) []) style
    let shown ← listingRows style lines current width rest
    return listingRow style current width lineNo text ++ shown

/-- The current line, as far as there is such a line. -/
def currentLine (line : ℤ) (count : ℕ) : ℕ := (max 1 (min line count)).toNat

/-- `current + context_lines`, which panics where no `usize` holds it. -/
def contextEnd (current contextLines : ℕ) : Option ℕ :=
  if current + contextLines ≤ usizeMax then some (current + contextLines) else none

/-- `start..=end`. -/
def listedNumbers (current contextLines last : ℕ) : List ℕ :=
  let first := max (current - contextLines) 1
  List.range' first (last + 1 - first)

def formatSourceSnippetStyled (line : ℤ) (source : List Char) (contextLines : ℕ)
    (style : TerminalStyle) : Option (List Char) :=
  let lines := FunctionResolve.lines source
  if lines = [] then some "(empty source file)\n".toList
  else do
    let current := currentLine line lines.length
    let last := min (← contextEnd current contextLines) lines.length
    let width := max (Nat.toDigits 10 last).length 3
    listingRows style lines current width (listedNumbers current contextLines last)

def formatSourceSnippet (line : ℤ) (source : List Char) (contextLines : ℕ) : Option (List Char) :=
  formatSourceSnippetStyled line source contextLines ⟨false⟩

/-- A frame's place, as far as it is shown. -/
structure FrameLocation where
  path : List Char
  line : ℤ
  name : Option (List Char)

def FrameLocation.header (location : FrameLocation) : List Char :=
  let headerName := (location.name.filter (· ≠ [])).getD ['?']
  let file := (Paths.fileName location.path).getD location.path
  "  ".toList ++ (file ++ (':' :: ((toString location.line).toList ++
    (" in ".toList ++ headerName))))

def formatSourceShowStyled (location : FrameLocation) (source : Option (List Char))
    (contextLines : ℕ) (style : Option TerminalStyle) : Option (List Char) :=
  let style := style.getD ⟨false⟩
  let body := match source with
    | some text => formatSourceSnippetStyled location.line text contextLines style
    | none => some (style.dim "  (source file not found)\n".toList ++
        ("  path: ".toList ++ (location.path ++ ('\n' :: (
          "  hint: run `show` from the script directory, ".toList ++
          "or launch with a path like ./main.py\n".toList)))))
  body.map fun shown => "Source:\n".toList ++ (style.cyan location.header ++ ('\n' :: shown))

def formatSourceShow (location : FrameLocation) (source : Option (List Char))
    (contextLines : ℕ) : Option (List Char) :=
  formatSourceShowStyled location source contextLines none

/-- The line of this number, from one on. -/
def lineAt (source : List Char) (lineNo : ℕ) : List Char :=
  (FunctionResolve.lines source).getD (lineNo - 1) []

/-- The numbers of the lines that are listed about `line`. -/
def listed (line : ℤ) (source : List Char) (contextLines : ℕ) : List ℕ :=
  let count := (FunctionResolve.lines source).length
  let current := currentLine line count
  listedNumbers current contextLines (min (current + contextLines) count)

/-- A line that can be highlighted. -/
def Displayable (line : List Char) : Prop :=
  isComment line ∨ ∀ c, Lexeme.plain c ∈ lex line → c.toNat < 128

/-! ### Which lines -/

lemma currentLine_bounds (line : ℤ) {count : ℕ} (h : 0 < count) :
    1 ≤ currentLine line count ∧ currentLine line count ≤ count := by
  unfold currentLine
  omega

lemma mem_listedNumbers {current contextLines count n : ℕ} :
    n ∈ listedNumbers current contextLines (min (current + contextLines) count) ↔
      1 ≤ n ∧ n ≤ count ∧ n ≤ current + contextLines ∧ current ≤ n + contextLines := by
  simp only [listedNumbers, List.mem_range'_1]
  omega

lemma pairwise_listedNumbers (current contextLines last : ℕ) :
    (listedNumbers current contextLines last).Pairwise (· < ·) := List.pairwise_lt_range'

/-! ### Colours -/

/-- What it is without the escape sequences, whatever follows. -/
def Strips (out text : List Char) : Prop := ∀ rest, strip (out ++ rest) = text ++ strip rest

lemma Strips.append {out text out' text' : List Char} (h : Strips out text)
    (h' : Strips out' text') : Strips (out ++ out') (text ++ text') := fun rest => by
  rw [List.append_assoc, h, h', List.append_assoc]

lemma Strips.self {text : List Char} (h : '\x1b' ∉ text) : Strips text text :=
  fun rest => strip_append h rest

lemma Strips.wrap {text code : List Char} (h : '\x1b' ∉ text) (hcode : 'm' ∉ code) :
    Strips (TerminalStyle.wrap ⟨true⟩ text code) text := fun rest => strip_wrap h hcode rest

lemma Strips.flatMap {α : Type*} {xs : List α} {f g : α → List Char}
    (h : ∀ x ∈ xs, Strips (f x) (g x)) : Strips (xs.flatMap f) (xs.flatMap g) := by
  induction xs with
  | nil => exact fun _ => rfl
  | cons x xs ih =>
    obtain ⟨hx, hxs⟩ := List.forall_mem_cons.mp h
    rw [List.flatMap_cons, List.flatMap_cons]
    exact hx.append (ih hxs)

lemma Strips.shown {lexeme : Lexeme} (h : '\x1b' ∉ lexeme.text) :
    Strips (lexeme.shown ⟨true⟩) lexeme.text := by
  cases lexeme with
  | plain c => exact Strips.self h
  | _ => exact Strips.wrap h (by decide)

lemma isSome_highlightSourceLine (line : List Char) :
    (highlightSourceLine line ⟨true⟩).isSome ↔ Displayable line := by
  unfold Displayable
  rw [← all_oneByte_iff]
  by_cases hcomment : isComment line
  · rw [highlightSourceLine_of_isComment hcomment]
    exact iff_of_true rfl (.inl hcomment)
  · rw [highlightSourceLine_of_not_isComment hcomment, or_iff_right hcomment]
    split_ifs with hascii
    · exact iff_of_true rfl hascii
    · exact iff_of_false Bool.false_ne_true hascii

lemma displayable_of_ascii {line : List Char} (h : ∀ c ∈ line, c.toNat < 128) :
    Displayable line := by
  refine .inr fun c hc => h c ?_
  rw [← flatMap_text_lex line]
  exact List.mem_flatMap.mpr ⟨_, hc, List.mem_singleton_self c⟩

lemma strips_highlightSourceLine {line out : List Char} (hescape : '\x1b' ∉ line)
    (h : highlightSourceLine line ⟨true⟩ = some out) : Strips out line := by
  by_cases hcomment : isComment line
  · rw [highlightSourceLine_of_isComment hcomment] at h
    cases h
    exact Strips.wrap hescape (by decide)
  · rw [highlightSourceLine_of_not_isComment hcomment] at h
    split_ifs at h
    cases h
    have hparts : Strips ((lex line).flatMap (Lexeme.shown ⟨true⟩))
        ((lex line).flatMap Lexeme.text) := by
      refine Strips.flatMap fun lexeme hlexeme => Strips.shown fun hmem => hescape ?_
      rw [← flatMap_text_lex line]
      exact List.mem_flatMap.mpr ⟨lexeme, hlexeme, hmem⟩
    rwa [flatMap_text_lex] at hparts

lemma escape_notMem_lineNumber (width lineNo : ℕ) : '\x1b' ∉ lineNumber width lineNo := by
  intro hmem
  rw [lineNumber, List.leftpad, List.mem_append] at hmem
  rcases hmem with hpad | hdigit
  · exact absurd (List.eq_of_mem_replicate hpad) (by decide)
  · exact absurd (Nat.isDigit_of_mem_toDigits (by decide) (by decide) hdigit) (by decide)

/-! ### Rows -/

section Rows

variable {lines : List (List Char)} {current width : ℕ} {numbers : List ℕ}

lemma strips_listingRow (current width lineNo : ℕ) {shown text : List Char}
    (h : Strips shown text) : Strips (listingRow ⟨true⟩ current width lineNo shown)
      (listingRow ⟨false⟩ current width lineNo text) := by
  have hmarker : Strips
      (if lineNo = current then TerminalStyle.green ⟨true⟩ ['>'] else [' '])
      (if lineNo = current then TerminalStyle.green ⟨false⟩ ['>'] else [' ']) := by
    split_ifs
    · exact Strips.wrap (by decide) (by decide)
    · exact Strips.self (by decide)
  have hnumber : Strips (TerminalStyle.dim ⟨true⟩ (lineNumber width lineNo))
      (TerminalStyle.dim ⟨false⟩ (lineNumber width lineNo)) :=
    Strips.wrap (escape_notMem_lineNumber width lineNo) (by decide)
  have hend : Strips ['\n'] ['\n'] := Strips.self (by decide)
  have hbar : Strips " | ".toList " | ".toList := Strips.self (by decide)
  have hspace : Strips [' '] [' '] := Strips.self (by decide)
  have hmargin : Strips "  ".toList "  ".toList := Strips.self (by decide)
  exact hmargin.append (hmarker.append (hspace.append (hnumber.append (hbar.append
    (h.append hend)))))

lemma listingRows_plain : listingRows ⟨false⟩ lines current width numbers =
    some (numbers.flatMap fun n =>
      listingRow ⟨false⟩ current width n (lines.getD (n - 1) [])) := by
  induction numbers with
  | nil => rfl
  | cons n numbers ih =>
    have hline : highlightSourceLine (lines.getD (n - 1) []) ⟨false⟩ =
        some (lines.getD (n - 1) []) := rfl
    rw [listingRows, hline, ih]
    rfl

lemma isSome_listingRows : (listingRows ⟨true⟩ lines current width numbers).isSome ↔
    ∀ n ∈ numbers, Displayable (lines.getD (n - 1) []) := by
  induction numbers with
  | nil => exact iff_of_true rfl (by simp)
  | cons n numbers ih =>
    rw [List.forall_mem_cons, ← ih, ← isSome_highlightSourceLine, listingRows]
    cases highlightSourceLine (lines.getD (n - 1) []) ⟨true⟩ with
    | none => simp
    | some text => cases listingRows ⟨true⟩ lines current width numbers <;> simp

/-- Row after row, what is under the colours is the plain listing. -/
lemma strips_listingRows {out : List Char}
    (hescape : ∀ n ∈ numbers, '\x1b' ∉ lines.getD (n - 1) [])
    (h : listingRows ⟨true⟩ lines current width numbers = some out) :
    Strips out (numbers.flatMap fun n =>
      listingRow ⟨false⟩ current width n (lines.getD (n - 1) [])) := by
  induction numbers generalizing out with
  | nil =>
    cases h
    exact fun _ => rfl
  | cons n numbers ih =>
    obtain ⟨hn, hnumbers⟩ := List.forall_mem_cons.mp hescape
    rw [listingRows, Option.bind_eq_bind, Option.bind_eq_some_iff] at h
    obtain ⟨text, htext, h⟩ := h
    rw [Option.bind_eq_some_iff] at h
    obtain ⟨shown, hshown, h⟩ := h
    cases h
    rw [List.flatMap_cons]
    exact (strips_listingRow current width n (strips_highlightSourceLine hn htext)).append
      (ih hnumbers hshown)

end Rows

/-! ### The listing -/

section Listing

variable {location : FrameLocation} {line : ℤ} {source : List Char} {contextLines : ℕ}

lemma listed_of_empty (h : FunctionResolve.lines source = []) :
    listed line source contextLines = [] := by
  have hcount : (FunctionResolve.lines source).length = 0 := List.length_eq_zero_iff.mpr h
  refine List.eq_nil_iff_forall_not_mem.mpr fun n hn => ?_
  obtain ⟨hpos, hle, -⟩ := mem_listedNumbers.mp hn
  omega

/-- What is listed of a source: a row for each line about the current one, in order. -/
structure Lists (line : ℤ) (source : List Char) (contextLines : ℕ) (plain : List Char) :
    Prop where
  ordered : (listed line source contextLines).Pairwise (· < ·)
  near : ∀ n, n ∈ listed line source contextLines ↔
    1 ≤ n ∧ n ≤ (FunctionResolve.lines source).length ∧
      n ≤ currentLine line (FunctionResolve.lines source).length + contextLines ∧
      currentLine line (FunctionResolve.lines source).length ≤ n + contextLines
  marked : FunctionResolve.lines source ≠ [] →
    currentLine line (FunctionResolve.lines source).length ∈ listed line source contextLines
  rows : FunctionResolve.lines source ≠ [] → ∃ width,
    plain = (listed line source contextLines).flatMap fun n =>
      listingRow ⟨false⟩ (currentLine line (FunctionResolve.lines source).length) width n
        (lineAt source n)

/-- The current line and the context fit in a `usize`. -/
def Fits (line : ℤ) (source : List Char) (contextLines : ℕ) : Prop :=
  currentLine line (FunctionResolve.lines source).length + contextLines ≤ usizeMax

lemma mem_listed_currentLine (h : FunctionResolve.lines source ≠ []) :
    currentLine line (FunctionResolve.lines source).length ∈ listed line source contextLines := by
  obtain ⟨hpos, hle⟩ := currentLine_bounds line (List.length_pos_iff.mpr h)
  exact mem_listedNumbers.mpr ⟨hpos, hle, Nat.le_add_right _ _, Nat.le_add_right _ _⟩

/-- A snippet, plain and in colour. -/
lemma exists_snippet (hfits : Fits line source contextLines) : ∃ plain,
    formatSourceSnippet line source contextLines = some plain ∧
    Lists line source contextLines plain ∧
    ((formatSourceSnippetStyled line source contextLines ⟨true⟩).isSome ↔
      ∀ n ∈ listed line source contextLines, Displayable (lineAt source n)) ∧
    ∀ out, formatSourceSnippetStyled line source contextLines ⟨true⟩ = some out →
      (∀ n ∈ listed line source contextLines, '\x1b' ∉ lineAt source n) → Strips out plain := by
  unfold formatSourceSnippet formatSourceSnippetStyled
  by_cases hlines : FunctionResolve.lines source = []
  · simp only [if_pos hlines, listed_of_empty hlines]
    refine ⟨_, rfl, ⟨pairwise_listedNumbers _ _ _, fun n => mem_listedNumbers,
      fun hne => absurd hlines hne, fun hne => absurd hlines hne⟩, iff_of_true rfl (by simp), ?_⟩
    rintro out hout -
    cases hout
    exact Strips.self (by decide)
  · have hend : contextEnd (currentLine line (FunctionResolve.lines source).length) contextLines =
        some (currentLine line (FunctionResolve.lines source).length + contextLines) :=
      if_pos hfits
    simp only [if_neg hlines, hend, Option.bind_eq_bind, Option.bind_some]
    exact ⟨_, listingRows_plain, ⟨pairwise_listedNumbers _ _ _, fun n => mem_listedNumbers,
      fun _ => mem_listed_currentLine hlines, fun _ => ⟨_, rfl⟩⟩, isSome_listingRows,
      fun out hout hescape => strips_listingRows hescape hout⟩

lemma strips_header (h : '\x1b' ∉ location.header) {shown text : List Char}
    (hshown : Strips shown text) : Strips
      ("Source:\n".toList ++ (TerminalStyle.cyan ⟨true⟩ location.header ++ ('\n' :: shown)))
      ("Source:\n".toList ++ (TerminalStyle.cyan ⟨false⟩ location.header ++ ('\n' :: text))) := by
  have htitle : Strips "Source:\n".toList "Source:\n".toList := Strips.self (by decide)
  have hheader : Strips (TerminalStyle.cyan ⟨true⟩ location.header)
      (TerminalStyle.cyan ⟨false⟩ location.header) := Strips.wrap h (by decide)
  have hend : Strips ['\n'] ['\n'] := Strips.self (by decide)
  exact htitle.append (hheader.append (hend.append hshown))

end Listing

/-- **Colours are put in and nothing else**: a source is shown plain in any case, line by line
about the current one, and in colour where each line that is listed can be had in colour; then,
with the colours taken away, it is what is shown plain. -/
theorem colours_keep_listing (location : FrameLocation) (source : List Char) (contextLines : ℕ)
    (hfits : Fits location.line source contextLines) :
    ∃ plain, formatSourceShow location (some source) contextLines =
        some ("Source:\n".toList ++ (location.header ++ ('\n' :: plain))) ∧
      Lists location.line source contextLines plain ∧
      ((formatSourceShowStyled location (some source) contextLines (some ⟨true⟩)).isSome ↔
        ∀ n ∈ listed location.line source contextLines, Displayable (lineAt source n)) ∧
      ∀ out, formatSourceShowStyled location (some source) contextLines (some ⟨true⟩) = some out →
        '\x1b' ∉ location.header →
        (∀ n ∈ listed location.line source contextLines, '\x1b' ∉ lineAt source n) →
        some (strip out) = formatSourceShow location (some source) contextLines := by
  obtain ⟨plain, hplain, hlists, hisSome, hstrips⟩ :=
    exists_snippet hfits
  have hshow : formatSourceShow location (some source) contextLines =
      some ("Source:\n".toList ++ (location.header ++ ('\n' :: plain))) := by
    have hbody : formatSourceSnippetStyled location.line source contextLines ⟨false⟩ = some plain :=
      hplain
    simp only [formatSourceShow, formatSourceShowStyled, Option.getD_none, hbody, Option.map_some]
    rfl
  refine ⟨plain, hshow, hlists, ?_, ?_⟩
  · rw [← hisSome, formatSourceShowStyled, Option.isSome_map]
    rfl
  · -- the heading and the rows come back, each with its colours taken away
    intro out hout hheader hescape
    obtain ⟨shown, hshown, rfl⟩ := Option.map_eq_some_iff.mp hout
    have hwhole := strips_header hheader (hstrips shown hshown hescape) []
    rw [List.append_nil, strip, List.append_nil] at hwhole
    rw [hshow]
    exact congrArg some hwhole

section Example

/-- A frame past the end of its file, whose second line is the comment `# é`. -/
def mainLocation : FrameLocation := ⟨"/w/main.py".toList, 9, some "main".toList⟩

def mainSource : List Char := "x = 1\n# é\n".toList

theorem colours_keep_listing_main : ∃ plain out,
    formatSourceShow mainLocation (some mainSource) 2 =
      some ("Source:\n".toList ++ (mainLocation.header ++ ('\n' :: plain))) ∧
    Lists 9 mainSource 2 plain ∧
    formatSourceShowStyled mainLocation (some mainSource) 2 (some ⟨true⟩) = some out ∧
    some (strip out) = formatSourceShow mainLocation (some mainSource) 2 := by
  have hlisted : listed 9 mainSource 2 = [1, 2] := by decide
  have hfirst : lineAt mainSource 1 = "x = 1".toList := by decide
  have hsecond : isComment (lineAt mainSource 2) := by decide
  obtain ⟨plain, hplain, hlists, hshown, hstrips⟩ :=
    colours_keep_listing mainLocation mainSource 2 (by unfold Fits; decide)
  have hdisplay : ∀ n ∈ listed 9 mainSource 2, Displayable (lineAt mainSource n) := by
    rw [hlisted]
    refine List.forall_mem_cons.mpr ⟨displayable_of_ascii ?_, ?_⟩
    · rw [hfirst]
      simp
    · exact List.forall_mem_singleton.mpr (.inl hsecond)
  obtain ⟨out, hout⟩ := Option.isSome_iff_exists.mp (hshown.mpr hdisplay)
  have hescape : ∀ n ∈ listed 9 mainSource 2, '\x1b' ∉ lineAt mainSource n := by
    rw [hlisted]
    decide
  exact ⟨plain, out, hplain, hlists, hout, hstrips out hout (by decide) hescape⟩

end Example

end DappyCore.SourceView
