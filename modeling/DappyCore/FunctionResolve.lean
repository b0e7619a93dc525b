import DappyCore.Lib.FirstMatch
import DappyCore.Lib.Text
import DappyCore.Loader

/-!
Where a function is defined: the first line of a text that looks like its definition, and the first
source file of some directories that has one. What cannot be listed or read ends the search.
-/

namespace DappyCore.FunctionResolve

open Lib.Text Lib.FirstMatch Transport Loader

/-! ### Lines -/

/-- A line without the carriage return before its line feed. -/
def stripReturn (line : List Char) : List Char :=
  if line.getLast? = some '\r' then line.dropLast else line

/-- `str::lines`. -/
def lines (text : List Char) : List (List Char) :=
  let parts := text.splitOn '\n'
  parts.dropLast.map stripReturn ++ (parts.getLast?.filter (· ≠ [])).toList

def pythonDefName (line : List Char) : Option (List Char) :=
  let afterAsync := ("async ".toList.isPrefixOf? line).getD line
  let rest := ("def ".toList.isPrefixOf? afterAsync).getD line
  some (rest.takeWhile fun c => ¬ (c = '(' ∨ isWhitespace c)) |>.filter (· ≠ [])

/-- The slice begins where an occurrence ends, so it is one. -/
def rustFnName (line : List Char) : Option (List Char) := do
  let marker ← find "fn ".toList line
  let rest ← sliceFrom line (marker + 3)
  some (rest.takeWhile fun c => ¬ (c = '(' ∨ c = '<' ∨ isWhitespace c)) |>.filter (· ≠ [])

def lineMatchesFunctionDefinition (line name : List Char) : Bool :=
  let trimmed := line.dropWhile isWhitespace
  if "def ".toList.isPrefixOf trimmed || "async def ".toList.isPrefixOf trimmed then
    pythonDefName trimmed = some name
  else if "fn ".toList.isPrefixOf trimmed || (find " fn ".toList trimmed).isSome then
    rustFnName trimmed = some name
  else false

/-- Find the 1-based line number of a top-level function/method definition in source text. -/
def resolveFunctionLine (content name : List Char) : Option ℤ :=
  ((lines content).findIdx? (lineMatchesFunctionDefinition · name)).map
    fun index : ℕ => (index : ℤ) + 1

/-! ### Files -/

variable (disk : Disk) (name : List Char)

def isSourceFile (path : String) : Bool :=
  (extension path).any fun ext => ext ∈ ["py", "rs", "js", "ts", "go"]

/-- What a part of the search comes to: the whole of it returns (`error`), or goes on. -/
abbrev Search := Except (Option (String × ℤ)) Unit

def searchFile (path : String) : Search :=
  if ¬ isSourceFile path then .ok ()
  else
    match disk.readToString path with
    | .error _ => .error none
    | .ok content =>
      match resolveFunctionLine content.toList name with
      | some line => .error (some (path, line))
      | none => .ok ()

/-- Entries that cannot be listed are passed over. -/
def searchDir (dir : String) : Search :=
  if ¬ disk.isDir dir then .ok ()
  else
    match disk.readDir dir with
    | .error _ => .error none
    | .ok entries => forM (entries.filterMap (·.toOption)) (searchFile disk name)

/-- Search `dirs` for `name` in common source extensions. -/
def findFunctionInDirs (dirs : List String) : Option (String × ℤ) :=
  match forM dirs (searchDir disk name) with
  | .ok () => none
  | .error result => result

/-! ### Visits -/

/-- What the search comes upon: a directory that cannot be listed, or what comes of reading a source
file. -/
inductive Visit
  | unlisted (dir : String)
  | file (path : String) (content : Except String String)

namespace Visit

def unreadable : Visit → Bool
  | unlisted _ => true
  | file _ (.error _) => true
  | file _ (.ok _) => false

def defines (name : List Char) : Visit → Bool
  | file _ (.ok content) => (lines content.toList).any (lineMatchesFunctionDefinition · name)
  | _ => false

/-- What the search returns if it ends here. -/
def answer (name : List Char) : Visit → Option (String × ℤ)
  | file path (.ok content) =>
    (resolveFunctionLine content.toList name).map fun line => (path, line)
  | _ => none

end Visit

/-- What there is to come upon in a directory. -/
def visitsIn (dir : String) : List Visit :=
  if ¬ disk.isDir dir then []
  else
    match disk.readDir dir with
    | .error _ => [.unlisted dir]
    | .ok entries => ((entries.filterMap (·.toOption)).filter isSourceFile).map fun path =>
        .file path (disk.readToString path)

def visits (dirs : List String) : List Visit := dirs.flatMap (visitsIn disk)

variable {disk name}

lemma isSome_resolveFunctionLine {content : List Char} : (resolveFunctionLine content name).isSome =
    (lines content).any (lineMatchesFunctionDefinition · name) := by
  rw [resolveFunctionLine, Option.isSome_map, List.findIdx?_isSome]

/-- Where a list of visits ends the search. -/
def stop (name : List Char) (l : List Visit) : Search :=
  match l.find? fun v => v.defines name || v.unreadable with
  | some v => .error (v.answer name)
  | none => .ok ()

lemma stop_append (l l' : List Visit) :
    stop name (l ++ l') = (do stop name l; stop name l') := by
  unfold stop
  rw [List.find?_append]
  cases l.find? fun v => v.defines name || v.unreadable with
  | none => rfl
  | some v => rfl

lemma searchFile_eq (path : String) : searchFile disk name path =
    stop name (if isSourceFile path then [.file path (disk.readToString path)] else []) := by
  unfold searchFile
  by_cases hsource : isSourceFile path
  · rw [if_neg (not_not.mpr hsource), if_pos hsource]
    cases hread : disk.readToString path with
    | error e => rfl
    | ok content =>
      have hsome : (resolveFunctionLine content.toList name).isSome =
        (lines content.toList).any (lineMatchesFunctionDefinition · name) :=
          isSome_resolveFunctionLine
      cases hresolve : resolveFunctionLine content.toList name with
      | none =>
        rw [hresolve] at hsome
        simp [stop, Visit.defines, Visit.unreadable, ← hsome, hresolve]
      | some line =>
        rw [hresolve] at hsome
        simp [stop, Visit.defines, Visit.unreadable, Visit.answer, ← hsome, hresolve]
  · rw [if_pos hsource, if_neg hsource]
    rfl

lemma forM_searchFile (paths : List String) : forM paths (searchFile disk name) = stop name
    ((paths.filter isSourceFile).map fun path => .file path (disk.readToString path)) := by
  induction paths with
  | nil => rfl
  | cons path paths ih =>
    rw [List.forM_cons, searchFile_eq, ih, ← stop_append, List.filter_cons]
    split_ifs with h
    · rfl
    · rfl

lemma searchDir_eq (dir : String) : searchDir disk name dir = stop name (visitsIn disk dir) := by
  unfold searchDir visitsIn
  split_ifs with hdir
  · cases disk.readDir dir with
    | error e => rfl
    | ok entries => exact forM_searchFile _
  · rfl

/-- **The search ends** at the first visit that defines the function or cannot be read. -/
theorem findFunctionInDirs_eq (dirs : List String) : findFunctionInDirs disk name dirs =
    ((visits disk dirs).find? fun v => v.defines name || v.unreadable).bind (·.answer name) := by
  have hsearch : forM dirs (searchDir disk name) = stop name (visits disk dirs) := by
    induction dirs with
    | nil => rfl
    | cons dir dirs ih =>
      rw [List.forM_cons, searchDir_eq, ih, ← stop_append]
      rfl
  rw [findFunctionInDirs, hsearch, stop]
  cases (visits disk dirs).find? fun v => v.defines name || v.unreadable with
  | none => rfl
  | some v => rfl

/-! ### The law -/

/-- A function that is defined where it can be read is found, and it is where it is found. -/
structure Finds (disk : Disk) (name : List Char) (dirs : List String) : Prop where
  complete : ∀ dir ∈ dirs, disk.isDir dir → ∀ entries, disk.readDir dir = .ok entries →
    ∀ path, .ok path ∈ entries → isSourceFile path →
      ∀ content, disk.readToString path = .ok content →
        (∃ line ∈ lines content.toList, lineMatchesFunctionDefinition line name) →
          (findFunctionInDirs disk name dirs).isSome
  sound : ∀ path line, findFunctionInDirs disk name dirs = some (path, line) →
    ∃ content, disk.readToString path = .ok content ∧
      resolveFunctionLine content.toList name = some line

/-- Where there is a definition, nothing that is come upon before the first is unreadable. -/
def Unhindered (disk : Disk) (name : List Char) (dirs : List String) : Prop :=
  (∃ v ∈ visits disk dirs, v.defines name) →
    ∀ v ∈ (visits disk dirs).takeWhile fun v => !v.defines name, v.unreadable = false

variable {dirs : List String} {v : Visit}

lemma mem_listed_iff {entries : List (Except String String)} {path : String} :
    path ∈ entries.filterMap (·.toOption) ↔ .ok path ∈ entries := by
  rw [List.mem_filterMap]
  constructor
  · rintro ⟨e | path', hmem, heq⟩
    · cases heq
    · obtain rfl := Option.some.inj heq
      exact hmem
  · intro hmem
    exact ⟨_, hmem, rfl⟩

lemma file_mem_visits_iff {path : String} {read : Except String String} :
    .file path read ∈ visits disk dirs ↔ ∃ dir ∈ dirs, disk.isDir dir ∧
      ∃ entries, disk.readDir dir = .ok entries ∧ .ok path ∈ entries ∧ isSourceFile path ∧
        disk.readToString path = read := by
  rw [visits, List.mem_flatMap]
  refine exists_congr fun dir => and_congr_right fun _ => ?_
  unfold visitsIn
  split_ifs with hdir
  · rw [and_iff_right hdir]
    cases hread : disk.readDir dir with
    | error e => simp
    | ok entries =>
      simp only [List.mem_map, List.mem_filter, mem_listed_iff, Visit.file.injEq]
      constructor
      · rintro ⟨_, ⟨hmem, hsource⟩, rfl, hcontent⟩
        exact ⟨entries, rfl, hmem, hsource, hcontent⟩
      · rintro ⟨_, hentries, hmem, hsource, hcontent⟩
        cases hentries
        exact ⟨path, ⟨hmem, hsource⟩, rfl, hcontent⟩
  · simp [hdir]

lemma isSome_answer : (v.answer name).isSome = v.defines name := by
  rcases v with dir | ⟨path, e | content⟩
  · rfl
  · rfl
  · rw [Visit.answer, Option.isSome_map, isSome_resolveFunctionLine, Visit.defines]

lemma exists_defines_iff : (∃ v ∈ visits disk dirs, v.defines name) ↔
    ∃ dir ∈ dirs, disk.isDir dir ∧ ∃ entries, disk.readDir dir = .ok entries ∧
      ∃ path, .ok path ∈ entries ∧ isSourceFile path ∧
        ∃ content, disk.readToString path = .ok content ∧
          ∃ line ∈ lines content.toList, lineMatchesFunctionDefinition line name := by
  constructor
  · rintro ⟨_ | ⟨path, e | content⟩, hmem, hdefines⟩
    · cases hdefines
    · cases hdefines
    · obtain ⟨dir, hdir, his, entries, hentries, hpath, hsource, hread⟩ :=
        file_mem_visits_iff.mp hmem
      exact ⟨dir, hdir, his, entries, hentries, path, hpath, hsource, content, hread,
        List.any_eq_true.mp hdefines⟩
  · rintro ⟨dir, hdir, his, entries, hentries, path, hpath, hsource, content, hread, hline⟩
    exact ⟨.file path (.ok content),
      file_mem_visits_iff.mpr ⟨dir, hdir, his, entries, hentries, hpath, hsource, hread⟩,
      List.any_eq_true.mpr hline⟩

/-- What is found was read. -/
lemma sound_findFunctionInDirs {path : String} {line : ℤ}
    (h : findFunctionInDirs disk name dirs = some (path, line)) :
    ∃ content, disk.readToString path = .ok content ∧
      resolveFunctionLine content.toList name = some line := by
  rw [findFunctionInDirs_eq, Option.bind_eq_some_iff] at h
  obtain ⟨_ | ⟨path', e | content⟩, hfind, hanswer⟩ := h
  · cases hanswer
  · cases hanswer
  · obtain ⟨line', hline, heq⟩ := Option.map_eq_some_iff.mp hanswer
    obtain ⟨rfl, rfl⟩ := Prod.mk.inj heq
    obtain ⟨-, -, -, -, -, -, -, hread⟩ := file_mem_visits_iff.mp (List.mem_of_find?_eq_some hfind)
    exact ⟨content, hread, hline⟩

/-- **One unreadable entry hides a function** exactly where it comes before the first definition. -/
theorem finds_iff (disk : Disk) (name : List Char) (dirs : List String) :
    Finds disk name dirs ↔ Unhindered disk name dirs := by
  have hfound : findFunctionInDirs disk name dirs =
      ((visits disk dirs).find? fun v => v.defines name || v.unreadable).bind (·.answer name) :=
    findFunctionInDirs_eq dirs
  constructor
  · -- the search comes upon the definition before any file that it cannot read
    intro h hdefined
    obtain ⟨dir, hdir, his, entries, hentries, path, hpath, hsource, content, hread, hline⟩ :=
      exists_defines_iff.mp hdefined
    have hsome := h.complete dir hdir his entries hentries path hpath hsource content hread hline
    obtain ⟨answer, hanswer⟩ := Option.isSome_iff_exists.mp hsome
    rw [hfound, Option.bind_eq_some_iff] at hanswer
    obtain ⟨v, hv, hline⟩ := hanswer
    have hdefines : v.defines name = true := by
      rw [← isSome_answer, hline]
      rfl
    exact (find?_or_eq_some_iff (find?_of_or hv hdefines)).mp hv
  · -- what is found first is a definition
    intro h
    refine ⟨fun dir hdir his entries hentries path hpath hsource content hread hline => ?_,
      fun path line => sound_findFunctionInDirs⟩
    have hdefined := exists_defines_iff.mpr
      ⟨dir, hdir, his, entries, hentries, path, hpath, hsource, content, hread, hline⟩
    obtain ⟨v, hv⟩ := Option.isSome_iff_exists.mp (List.find?_isSome.mpr hdefined)
    rw [hfound, (find?_or_eq_some_iff hv).mpr (h hdefined), Option.bind_some, isSome_answer]
    exact List.find?_some hv

/-- A folder with a text that is not UTF-8, and a definition in the next file. -/
def mixedDisk : Disk where
  isDir := (· = "src")
  isFile := (· ≠ "src")
  readDir _ := .ok [.ok "src/a.py", .ok "src/b.py"]
  readToString path :=
    if path = "src/b.py" then .ok "def run():\n" else .error "stream did not contain valid UTF-8"

theorem unreadable_file_hides : ¬ Finds mixedDisk "run".toList ["src"] := by
  intro h
  have hsome := h.complete "src" (by decide) (by decide) _ rfl "src/b.py" (by decide) (by decide)
    "def run():\n" (by decide) (by decide)
  exact absurd hsome (by decide)

end DappyCore.FunctionResolve
