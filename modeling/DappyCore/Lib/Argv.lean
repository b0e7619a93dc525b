import Mathlib.Data.List.Dedup
import Mathlib.Data.List.MinMax
import Mathlib.Data.List.Nodup
import Mathlib.Data.List.TakeWhile

/-!
Argument vectors: options by name, each with the values that follow it, and what a reader of such
vectors makes of them. A value that follows its option is not hyphenated; one attached to it with
`=` may be.
-/

namespace DappyCore.Lib.Argv

/-- What follows an option. -/
inductive Arity
  | flag
  | one (allowsEmpty : Bool)
  | many
  deriving DecidableEq

/-- The options in the order given, and the values of each. -/
abbrev Line := List (String × List String)

/-- A token that begins with a dash and is more than that dash. -/
def hyphenated (token : String) : Bool := token.toList.head? = some '-' && token != "-"

/-- A value that its option can have. -/
def Arity.allows : Arity → String → Bool
  | flag, _ => false
  | one allowsEmpty, value => allowsEmpty || value ≠ ""
  | many, _ => true

/-- The vector that a line is written as. -/
def tokens (line : Line) : List String := line.flatMap fun option => option.1 :: option.2

/-- An option that the vector can carry: its values are as many as it takes, none is hyphenated,
and none is empty that may not be. -/
def readable (table : String → Option Arity) (option : String × List String) : Bool :=
  match table option.1, option.2 with
  | some .flag, [] => true
  | some (.one allowsEmpty), [value] => !hyphenated value && (Arity.one allowsEmpty).allows value
  | some .many, value :: values => (value :: values).all (!hyphenated ·)
  | _, _ => false

/-- It takes one value at most. -/
def Single (table : String → Option Arity) (option : String × List String) : Prop :=
  table option.1 = some .flag ∧ option.2 = [] ∨
    ∃ allowsEmpty value, table option.1 = some (.one allowsEmpty) ∧ option.2 = [value]

/-- Its name is hyphenated, and does not end the options. -/
def Named (option : String × List String) : Prop := hyphenated option.1 ∧ option.1 ≠ "--"

/-- All values of an option. -/
def collected (name : String) (line : Line) : List String :=
  (line.filter (·.1 = name)).flatMap (·.2)

/-! ### Readers -/

/-- A reader of vectors: the options in the order given, and one entry for each of them. -/
structure Reader where
  occurrences : List String → Option Line
  settle : Line → Option Line

def Reader.read (reader : Reader) (vector : List String) : Option Line :=
  (reader.occurrences vector).bind reader.settle

/-- What a reader of vectors is documented to make of the options that it is declared with. -/
structure Reads (table : String → Option Arity) (reader : Reader) : Prop where
  nil : reader.occurrences [] = some []
  /-- A flag, or an option and its value. A value that it cannot have is an error. -/
  single : ∀ option rest, Single table option →
    reader.occurrences (option.1 :: (option.2 ++ rest)) =
      if readable table option then (reader.occurrences rest).map (option :: ·) else none
  /-- Many values run up to the next hyphenated token. -/
  many : ∀ name values rest, table name = some .many → readable table (name, values) →
    (∀ token ∈ rest.head?, hyphenated token) →
      reader.occurrences (name :: (values ++ rest)) =
        (reader.occurrences rest).map ((name, values) :: ·)
  /-- A hyphenated token is no value of an option before it. -/
  split : ∀ a n b line, hyphenated n → reader.occurrences (a ++ n :: b) = some line →
    ∃ la lb, reader.occurrences a = some la ∧ reader.occurrences (n :: b) = some lb ∧
      line = la ++ lb
  /-- A hyphenated value is attached to its option. -/
  attached : ∀ vector line option value, reader.occurrences vector = some line → option ∈ line →
    value ∈ option.2 → hyphenated value →
      ∃ name, name ++ "=" ++ value ∈ vector ∧ hyphenated (name ++ "=" ++ value)
  /-- Options that are there once each stay as they are. -/
  once : ∀ line, (line.map (·.1)).Nodup → reader.settle line = some line
  /-- An option that is there again is an error, or has the values of all its places. -/
  again : ∀ line line', reader.settle line = some line' → ∀ name,
    line'.lookup name = if name ∈ line.map (·.1) then some (collected name line) else none

variable {table : String → Option Arity} {reader : Reader} {name : String} {rest : List String}
  {line : Line}

/-! ### Writing and reading -/

/-- **Options with one value at most** are read back as they were written, or not at all. -/
theorem Reads.singles (hreads : Reads table reader) (h : ∀ option ∈ line, Single table option) :
    reader.occurrences (tokens line ++ rest) =
      if line.all (readable table) then (reader.occurrences rest).map (line ++ ·) else none := by
  induction line with
  | nil => simp [tokens]
  | cons option line ih =>
    obtain ⟨hoption, hline⟩ := List.forall_mem_cons.mp h
    have htokens : tokens (option :: line) ++ rest =
        option.1 :: (option.2 ++ (tokens line ++ rest)) := by simp [tokens]
    rw [htokens, hreads.single option _ hoption, List.all_cons]
    cases readable table option with
    | false => rfl
    | true =>
      rw [if_pos rfl, Bool.true_and, ih hline]
      split_ifs
      · rw [Option.map_map]
        rfl
      · rfl

lemma hyphenated_of_head (hnames : ∀ option ∈ line, Named option) :
    ∀ token ∈ (tokens line).head?, hyphenated token := by
  cases line with
  | nil => exact fun token h => absurd h (Option.not_mem_none _)
  | cons option line =>
    rintro token (h : some option.1 = some token)
    rw [← Option.some.inj h]
    exact (hnames option List.mem_cons_self).1

lemma Reads.occurrences (hreads : Reads table reader) (hnames : ∀ option ∈ line, Named option)
    (h : line.all (readable table)) : reader.occurrences (tokens line) = some line := by
  induction line with
  | nil => exact hreads.nil
  | cons option line ih =>
    obtain ⟨-, hlater⟩ := List.forall_mem_cons.mp hnames
    rw [List.all_cons, Bool.and_eq_true] at h
    have hrest := ih hlater h.2
    have htokens : tokens (option :: line) =
        option.1 :: (option.2 ++ tokens line) := by simp [tokens]
    rw [htokens]
    have hsingle : Single table option →
        reader.occurrences (option.1 :: (option.2 ++ tokens line)) = some (option :: line) := by
      intro hsingle
      rw [hreads.single option _ hsingle, if_pos h.1, hrest]
      rfl
    obtain ⟨name, values⟩ := option
    cases harity : table name with
    | none => simp [readable, harity] at h
    | some arity =>
      cases arity with
      | flag =>
        cases values with
        | nil => exact hsingle (.inl ⟨harity, rfl⟩)
        | cons value values => simp [readable, harity] at h
      | one allowsEmpty =>
        match values with
        | [] => simp [readable, harity] at h
        | [value] => exact hsingle (.inr ⟨allowsEmpty, value, harity, rfl⟩)
        | _ :: _ :: _ => simp [readable, harity] at h
      | many =>
        have hmany := hreads.many name values _ harity h.1 (hyphenated_of_head hlater)
        rw [hrest] at hmany
        exact hmany

/-- **What the vector can carry** is read back as it was written. -/
theorem Reads.read_tokens (hreads : Reads table reader) (hnames : ∀ option ∈ line, Named option)
    (honce : (line.map (·.1)).Nodup) (h : line.all (readable table)) :
    reader.read (tokens line) = some line := by
  rw [Reader.read, hreads.occurrences hnames h, Option.bind_some, hreads.once line honce]

/-! ### What is collected -/

lemma collected_cons (option : String × List String) (line : Line) :
    collected name (option :: line) =
      if option.1 = name then option.2 ++ collected name line else collected name line := by
  unfold collected
  rw [List.filter_cons]
  simp only [decide_eq_true_eq]
  split_ifs <;> rfl

lemma collected_append (la lb : Line) :
    collected name (la ++ lb) = collected name la ++ collected name lb := by
  rw [collected, List.filter_append, List.flatMap_append, collected, collected]

lemma exists_of_mem_collected {value : String} (h : value ∈ collected name line) :
    ∃ option ∈ line, value ∈ option.2 := by
  obtain ⟨option, hoption, hvalue⟩ := List.mem_flatMap.mp h
  exact ⟨option, (List.mem_filter.mp hoption).1, hvalue⟩

/-- **A hyphenated value** is not collected in its place: the values of an option are not what
followed it. The longest of them would have to be attached to a longer one. -/
theorem Reads.collected_ne (hreads : Reads table reader) (hname : '=' ∉ name.toList)
    {values : List String} (hread : reader.occurrences (name :: values) = some line)
    (hhyphenated : values.any hyphenated) : collected name line ≠ values := by
  intro hcollected
  obtain ⟨longest, hlongest⟩ : ∃ longest,
      longest ∈ (values.filter hyphenated).argmax fun value => value.toList.length := by
    obtain ⟨value, hvalue, hh⟩ := List.any_eq_true.mp hhyphenated
    refine Option.ne_none_iff_exists'.mp fun hnone => ?_
    have hmem : value ∈ values.filter hyphenated := List.mem_filter.mpr ⟨hvalue, hh⟩
    rw [List.argmax_eq_none.mp hnone] at hmem
    cases hmem
  obtain ⟨hmem, hh⟩ := List.mem_filter.mp (List.argmax_mem hlongest)
  rw [← hcollected] at hmem
  obtain ⟨option, hoption, hvalue⟩ := exists_of_mem_collected hmem
  obtain ⟨owner, htoken, hattached⟩ := hreads.attached _ _ _ _ hread hoption hvalue hh
  rcases List.mem_cons.mp htoken with heq | htoken
  · exact hname (heq ▸ by simp)
  · have hle := List.le_of_mem_argmax (List.mem_filter.mpr ⟨htoken, hattached⟩) hlongest
    simp only [String.toList_append, List.length_append] at hle
    have hsign : "=".toList.length = 1 := rfl
    omega

lemma collected_of_notMem (h : name ∉ line.map (·.1)) : collected name line = [] := by
  induction line with
  | nil => rfl
  | cons option line ih =>
    rw [List.map_cons, List.mem_cons, not_or] at h
    rw [collected_cons, if_neg (Ne.symm h.1), ih h.2]

lemma collected_of_single (h : table name = some .many)
    (hline : ∀ option ∈ line, Single table option) : collected name line = [] := by
  refine collected_of_notMem fun hmem => ?_
  obtain ⟨option, hoption, rfl⟩ := List.mem_map.mp hmem
  rcases hline option hoption with ⟨hflag, -⟩ | ⟨_, _, hone, -⟩
  · rw [hflag] at h
    cases h
  · rw [hone] at h
    cases h

lemma Reads.readable_of_collected (hreads : Reads table reader) (hname : table name = some .many)
    (hsign : '=' ∉ name.toList) {before after : Line} {values : List String}
    (hbefore : ∀ option ∈ before, Single table option)
    (hafter : ∀ option ∈ after, Single table option) (hnames : ∀ option ∈ after, Named option)
    (hvalues : values ≠ [])
    (hread : reader.occurrences (tokens (before ++ (name, values) :: after)) = some line)
    (hcollected : collected name line = values) :
    (before ++ (name, values) :: after).all (readable table) := by
  have htokens : tokens (before ++ (name, values) :: after) =
      tokens before ++ name :: (values ++ tokens after) := by simp [tokens]
  -- the options after it are read by themselves
  have hreadAfter : reader.occurrences (tokens after) =
      if after.all (readable table) then some after else none := by
    have hall : reader.occurrences (tokens after ++ []) = _ := hreads.singles hafter
    rw [List.append_nil] at hall
    rw [hall, hreads.nil, Option.map_some, List.append_nil]
  rw [htokens, hreads.singles hbefore] at hread
  split_ifs at hread with hreadable
  obtain ⟨line, hline, rfl⟩ := Option.map_eq_some_iff.mp hread
  rw [collected_append, collected_of_single hname hbefore, List.nil_append] at hcollected
  rw [List.all_append, hreadable, List.all_cons, Bool.true_and, Bool.and_eq_true]
  by_cases hhyphenated : values.any hyphenated
  · -- a hyphenated value would be missing from what is collected
    exfalso
    cases after with
    | nil =>
      rw [tokens, List.flatMap_nil, List.append_nil] at hline
      exact hreads.collected_ne hsign hline hhyphenated hcollected
    | cons option after =>
      have hcut : name :: (values ++ tokens (option :: after)) =
          (name :: values) ++ option.1 :: (option.2 ++ tokens after) := by simp [tokens]
      rw [hcut] at hline
      obtain ⟨la, lb, hla, hlb, rfl⟩ :=
        hreads.split _ _ _ _ (hnames _ List.mem_cons_self).1 hline
      have hnil : collected name lb = [] := by
        have htail : option.1 :: (option.2 ++ tokens after) =
            tokens (option :: after) := by simp [tokens]
        rw [htail, hreadAfter] at hlb
        split_ifs at hlb
        rw [← Option.some.inj hlb]
        exact collected_of_single hname hafter
      rw [collected_append, hnil, List.append_nil] at hcollected
      exact hreads.collected_ne hsign hla hhyphenated hcollected
  · -- with plain values all is read as it was written
    have hmany : readable table (name, values) := by
      obtain ⟨value, values, rfl⟩ := List.exists_cons_of_ne_nil hvalues
      simp only [readable, hname]
      rw [List.all_eq_not_any_not]
      simpa using hhyphenated
    rw [hreads.many name values _ hname hmany (hyphenated_of_head hnames)] at hline
    obtain ⟨lb, hlb, -⟩ := Option.map_eq_some_iff.mp hline
    rw [hreadAfter] at hlb
    split_ifs at hlb with hall
    exact ⟨hmany, hall⟩

/-- **An option that is read back** with all its values, among options that take one at most, is
read from a vector that can carry all of them. -/
theorem Reads.readable_of_lookup (hreads : Reads table reader) (hname : table name = some .many)
    (hsign : '=' ∉ name.toList) {before after : Line} {values : List String}
    (hbefore : ∀ option ∈ before, Single table option)
    (hafter : ∀ option ∈ after, Single table option) (hnames : ∀ option ∈ after, Named option)
    (hvalues : values ≠ [])
    (hread : reader.read (tokens (before ++ (name, values) :: after)) = some line)
    (hlookup : line.lookup name = some values) :
    (before ++ (name, values) :: after).all (readable table) := by
  obtain ⟨occurrences, hoccurs, hsettle⟩ := Option.bind_eq_some_iff.mp hread
  rw [hreads.again occurrences line hsettle] at hlookup
  split_ifs at hlookup
  exact hreads.readable_of_collected hname hsign hbefore hafter hnames hvalues hoccurs
    (Option.some.inj hlookup)

/-! ### A reader -/

/-- One entry for each option. What takes many values may be given again; another may not. -/
def settle (table : String → Option Arity) (line : Line) : Option Line :=
  if ((line.map (·.1)).filter fun name => table name ≠ some .many).Nodup then
    some ((line.map (·.1)).dedup.map fun name => (name, collected name line))
  else none

lemma lookup_settle {line' : Line} (h : settle table line = some line') (name : String) :
    line'.lookup name =
      if name ∈ line.map (·.1) then some (collected name line) else none := by
  unfold settle at h
  split_ifs at h with hnodup
  cases h
  simp only [← List.mem_dedup (l := line.map (·.1))]
  generalize (line.map (·.1)).dedup = names
  induction names with
  | nil => rfl
  | cons n names ih =>
    rw [List.map_cons, List.lookup_cons, ih]
    by_cases heq : name = n
    · subst heq
      simp
    · have hne : (name == n) = false := beq_false_of_ne heq
      simp [hne, heq]

lemma collected_of_mem (h : (line.map (·.1)).Nodup) {option : String × List String}
    (hmem : option ∈ line) : collected option.1 line = option.2 := by
  induction line with
  | nil => cases hmem
  | cons first line ih =>
    rw [List.map_cons, List.nodup_cons] at h
    rw [collected_cons]
    rcases List.mem_cons.mp hmem with rfl | hmem
    · rw [if_pos rfl, collected_of_notMem h.1, List.append_nil]
    · have hne : first.1 ≠ option.1 := by
        intro heq
        exact h.1 (heq ▸ List.mem_map_of_mem hmem)
      rw [if_neg hne, ih h.2 hmem]

/-- Options that are there once each are settled as they are. -/
lemma settle_of_nodup (h : (line.map (·.1)).Nodup) : settle table line = some line := by
  have hentries : (line.map (·.1)).map (fun name => (name, collected name line)) = line := by
    rw [List.map_map]
    conv_rhs => rw [← List.map_id line]
    refine List.map_congr_left fun option hmem => ?_
    exact Prod.ext rfl (collected_of_mem h hmem)
  unfold settle
  rw [if_pos (h.filter _), h.dedup, hentries]

/-- `name=value`. -/
def attached (token : String) : Option (String × String) :=
  match token.toList.dropWhile (· ≠ '=') with
  | [] => none
  | _ :: value => some (String.ofList (token.toList.takeWhile (· ≠ '=')), String.ofList value)

/-- The occurrence of an option that begins with a token, and what is left after it. -/
def occurrence (table : String → Option Arity) (token : String) (rest : List String) :
    Option ((String × List String) × List String) :=
  match table token with
  | some .flag => some ((token, []), rest)
  | some (.one allowsEmpty) =>
    match rest with
    | [] => none
    | value :: rest =>
      if hyphenated value || !(Arity.one allowsEmpty).allows value then none
      else some ((token, [value]), rest)
  | some .many =>
    if rest.takeWhile (!hyphenated ·) = [] then none
    else some ((token, rest.takeWhile (!hyphenated ·)), rest.dropWhile (!hyphenated ·))
  | none =>
    (attached token).bind fun (name, value) =>
      if (table name).any (·.allows value) then some ((name, [value]), rest) else none

section Occurrence

variable {token : String} {rest' : List String} {option : String × List String}

/-- The ways an option can occur. -/
lemma occurrence_cases (h : occurrence table token rest = some (option, rest')) :
    (option = (token, []) ∧ rest' = rest) ∨
    (∃ value, rest = value :: rest' ∧ option = (token, [value]) ∧ hyphenated value = false) ∨
    (option = (token, rest.takeWhile (!hyphenated ·)) ∧ rest' = rest.dropWhile (!hyphenated ·)) ∨
    ∃ name value, attached token = some (name, value) ∧ (table name).isSome ∧
      option = (name, [value]) ∧ rest' = rest := by
  unfold occurrence at h
  split at h
  · cases h
    exact .inl ⟨rfl, rfl⟩
  · cases rest with
    | nil => cases h
    | cons value rest =>
      dsimp only at h
      split_ifs at h with hrefused
      cases h
      rw [Bool.or_eq_true, not_or, Bool.not_eq_true] at hrefused
      exact .inr (.inl ⟨value, rfl, rfl, hrefused.1⟩)
  · split_ifs at h
    cases h
    exact .inr (.inr (.inl ⟨rfl, rfl⟩))
  · obtain ⟨⟨name, value⟩, hattached, h⟩ := Option.bind_eq_some_iff.mp h
    dsimp only at h
    split_ifs at h with hallows
    cases h
    refine .inr (.inr (.inr ⟨name, value, hattached, ?_, rfl, rfl⟩))
    cases harity : table name with
    | none => simp [harity] at hallows
    | some arity => rfl

lemma suffix_of_occurrence (h : occurrence table token rest = some (option, rest')) :
    rest' <:+ rest := by
  rcases occurrence_cases h with ⟨-, rfl⟩ | ⟨value, rfl, -⟩ | ⟨-, rfl⟩ | ⟨_, _, -, -, -, rfl⟩
  · exact List.suffix_rfl
  · exact List.suffix_cons _ _
  · exact List.dropWhile_suffix _
  · exact List.suffix_rfl

end Occurrence

/-- The options of a vector, one occurrence after the other. There are no positional arguments. -/
def scan (table : String → Option Arity) : List String → Option Line
  | [] => some []
  | token :: rest =>
    if token = "--" then if rest = [] then some [] else none
    else
      match _h : occurrence table token rest with
      | none => none
      | some (option, rest') => (scan table rest').map (option :: ·)
  termination_by tokens => tokens.length
  decreasing_by exact Nat.lt_succ_of_le (suffix_of_occurrence _h).length_le

@[simp] lemma scan_nil : scan table [] = some [] := by rw [scan]

lemma scan_cons : scan table (name :: rest) =
    if name = "--" then if rest = [] then some [] else none
    else (occurrence table name rest).bind fun (option, rest') =>
      (scan table rest').map (option :: ·) := by
  rw [scan]
  split_ifs
  · rfl
  · rfl
  · split
    · next h => rw [h]; rfl
    · next h => rw [h]; rfl

lemma occurrence_single {option : String × List String} (h : Single table option) :
    occurrence table option.1 (option.2 ++ rest) =
      if readable table option then some (option, rest) else none := by
  obtain ⟨name, values⟩ := option
  obtain ⟨hflag, rfl⟩ | ⟨allowsEmpty, value, hone, rfl⟩ := h
  · simp [occurrence, readable, hflag]
  · dsimp only at hone
    cases hd : hyphenated value <;> cases ha : (Arity.one allowsEmpty).allows value <;>
      simp [occurrence, readable, hone, hd, ha]

lemma occurrence_values (h : table name = some .many) {values : List String}
    (hvalues : readable table (name, values)) (hrest : ∀ token ∈ rest.head?, hyphenated token) :
    occurrence table name (values ++ rest) = some ((name, values), rest) := by
  cases values with
  | nil => simp [readable, h] at hvalues
  | cons value values =>
    have hall : ∀ v ∈ value :: values, (!hyphenated v) = true := by
      simp only [readable, h] at hvalues
      exact List.all_eq_true.mp hvalues
    have hstop : rest.takeWhile (!hyphenated ·) = [] ∧ rest.dropWhile (!hyphenated ·) = rest := by
      cases rest with
      | nil => exact ⟨rfl, rfl⟩
      | cons token rest =>
        have hd : hyphenated token = true := hrest token rfl
        simp [hd]
    simp only [occurrence, h]
    rw [List.takeWhile_append_of_pos hall, List.dropWhile_append_of_pos hall, hstop.1, hstop.2,
      List.append_nil, if_neg (List.cons_ne_nil _ _)]

lemma takeWhile_append_hyphenated (a b : List String) {n : String} (hn : hyphenated n = true) :
    (a ++ n :: b).takeWhile (!hyphenated ·) = a.takeWhile (!hyphenated ·) := by
  induction a with
  | nil => simp [hn]
  | cons x a ih =>
    rw [List.cons_append, List.takeWhile_cons, List.takeWhile_cons, ih]

lemma dropWhile_append_hyphenated (a b : List String) {n : String} (hn : hyphenated n = true) :
    (a ++ n :: b).dropWhile (!hyphenated ·) = a.dropWhile (!hyphenated ·) ++ n :: b := by
  induction a with
  | nil => simp [hn]
  | cons x a ih =>
    rw [List.cons_append, List.dropWhile_cons, List.dropWhile_cons, ih]
    split_ifs <;> rfl

/-- An occurrence ends before a token that starts with a dash. -/
lemma occurrence_append_hyphenated {token : String} (a b : List String) {n : String}
    (hn : hyphenated n = true) : occurrence table token (a ++ n :: b) =
      (occurrence table token a).map fun (option, rest') => (option, rest' ++ n :: b) := by
  unfold occurrence
  split
  · rfl
  · cases a with
    | nil => simp [hn]
    | cons value a =>
      dsimp only [List.cons_append]
      split_ifs <;> rfl
  · rw [takeWhile_append_hyphenated a b hn, dropWhile_append_hyphenated a b hn]
    split_ifs <;> rfl
  · rw [Option.map_bind]
    congr 1
    funext ⟨name, value⟩
    dsimp only [Function.comp_apply]
    split_ifs <;> rfl

/-- **A token that starts with a dash** is no value of an option before it. -/
theorem scan_append_hyphenated {a b : List String} {n : String} (hn : hyphenated n = true)
    (h : scan table (a ++ n :: b) = some line) :
    ∃ la lb, scan table a = some la ∧ scan table (n :: b) = some lb ∧ line = la ++ lb := by
  induction hlen : a.length using Nat.strongRecOn generalizing a line with
  | ind len ih =>
    cases a with
    | nil => exact ⟨[], line, scan_nil, h, rfl⟩
    | cons token a =>
      rw [List.cons_append, scan_cons] at h
      split_ifs at h with hstop hempty
      · exact absurd hempty (List.append_ne_nil_of_right_ne_nil _ (List.cons_ne_nil _ _))
      · rw [occurrence_append_hyphenated a b hn, Option.bind_map] at h
        obtain ⟨⟨option, rest'⟩, hoccurs, h⟩ := Option.bind_eq_some_iff.mp h
        obtain ⟨line, hline, rfl⟩ := Option.map_eq_some_iff.mp h
        have hlt : rest'.length < len := by
          rw [← hlen]
          exact Nat.lt_succ_of_le (suffix_of_occurrence hoccurs).length_le
        obtain ⟨la, lb, hla, hlb, rfl⟩ := ih rest'.length hlt hline rfl
        refine ⟨option :: la, lb, ?_, hlb, rfl⟩
        rw [scan_cons, if_neg hstop, hoccurs, Option.bind_some]
        exact Option.map_eq_some_iff.mpr ⟨la, hla, rfl⟩

lemma eq_of_attached {token value : String} (h : attached token = some (name, value)) :
    token = name ++ "=" ++ value := by
  unfold attached at h
  split at h
  · cases h
  · next c chars hdrop =>
    cases h
    have hhead := List.head?_dropWhile_not (fun c : Char => decide (c ≠ '=')) token.toList
    rw [hdrop] at hhead
    have hc : c = '=' := by simpa using hhead
    refine String.toList_inj.mp ?_
    simp only [String.toList_append, String.toList_ofList]
    conv_lhs => rw [← List.takeWhile_append_dropWhile (p := (· ≠ '=')) (l := token.toList)]
    rw [hdrop, hc]
    simp

lemma hyphenated_attached {value : String} (h : hyphenated name) :
    hyphenated (name ++ "=" ++ value) := by
  obtain ⟨hdash, -⟩ := Bool.and_eq_true_iff.mp h
  have hhead : (name ++ "=" ++ value).toList.head? = some '-' := by
    simp only [String.toList_append, List.append_assoc, List.head?_append]
    rw [of_decide_eq_true hdash]
    rfl
  have hmore : name ++ "=" ++ value ≠ "-" := by
    intro heq
    have hsign : '=' ∈ (name ++ "=" ++ value).toList := by simp
    rw [heq] at hsign
    exact absurd hsign (by decide)
  exact Bool.and_eq_true_iff.mpr ⟨decide_eq_true hhead, bne_iff_ne.mpr hmore⟩

lemma attached_of_scan (hnames : ∀ name, (table name).isSome → hyphenated name)
    {vector : List String} {option : String × List String} {value : String}
    (h : scan table vector = some line) (hoption : option ∈ line) (hvalue : value ∈ option.2)
    (hhyphenated : hyphenated value) :
    ∃ name, name ++ "=" ++ value ∈ vector ∧ hyphenated (name ++ "=" ++ value) := by
  induction hlen : vector.length using Nat.strongRecOn generalizing vector line with
  | ind len ih =>
    cases vector with
    | nil =>
      rw [scan_nil] at h
      cases h
      cases hoption
    | cons token rest =>
      rw [scan_cons] at h
      split_ifs at h with hstop hempty
      · cases h
        cases hoption
      · obtain ⟨⟨first, rest'⟩, hoccurs, h⟩ := Option.bind_eq_some_iff.mp h
        obtain ⟨line, hline, rfl⟩ := Option.map_eq_some_iff.mp h
        have hshorter : rest'.length < len := by
          rw [← hlen]
          exact Nat.lt_succ_of_le (suffix_of_occurrence hoccurs).length_le
        rcases List.mem_cons.mp hoption with rfl | hoption
        · -- the option that was scanned first: its value is plain unless it is attached
          rcases occurrence_cases hoccurs with ⟨rfl, -⟩ | ⟨value', -, rfl, hplain⟩ | ⟨rfl, -⟩ |
            ⟨owner, value', hattached, hsome, rfl, -⟩
          · cases hvalue
          · obtain rfl := List.mem_singleton.mp hvalue
            rw [hplain] at hhyphenated
            cases hhyphenated
          · have hplain := List.mem_takeWhile_imp hvalue
            rw [hhyphenated] at hplain
            cases hplain
          · obtain rfl := List.mem_singleton.mp hvalue
            refine ⟨owner, ?_, hyphenated_attached (hnames owner hsome)⟩
            rw [← eq_of_attached hattached]
            exact List.mem_cons_self
        · -- an option that was scanned later
          obtain ⟨owner, hmem, hh⟩ := ih rest'.length hshorter hline hoption rfl
          exact ⟨owner, List.mem_cons_of_mem _ ((suffix_of_occurrence hoccurs).subset hmem), hh⟩

lemma ne_of_isSome (hstop : table "--" = none) (h : (table name).isSome) : name ≠ "--" := by
  rintro rfl
  rw [hstop] at h
  cases h

lemma scan_single (hstop : table "--" = none) {option : String × List String}
    (h : Single table option) : scan table (option.1 :: (option.2 ++ rest)) =
      if readable table option then (scan table rest).map (option :: ·) else none := by
  have hsome : (table option.1).isSome := by
    rcases h with ⟨hflag, -⟩ | ⟨_, _, hone, -⟩
    · rw [hflag]; rfl
    · rw [hone]; rfl
  rw [scan_cons, if_neg (ne_of_isSome hstop hsome), occurrence_single h]
  split_ifs <;> rfl

lemma scan_values (hstop : table "--" = none) (h : table name = some .many) {values : List String}
    (hvalues : readable table (name, values)) (hrest : ∀ token ∈ rest.head?, hyphenated token) :
    scan table (name :: (values ++ rest)) = (scan table rest).map ((name, values) :: ·) := by
  have hsome : (table name).isSome := by rw [h]; rfl
  rw [scan_cons, if_neg (ne_of_isSome hstop hsome), occurrence_values h hvalues hrest]
  rfl

def scanner (table : String → Option Arity) : Reader := ⟨scan table, settle table⟩

/-- **The reader** does what is documented of one. -/
theorem reads_scanner (hstop : table "--" = none)
    (hnames : ∀ name, (table name).isSome → hyphenated name) : Reads table (scanner table) where
  nil := scan_nil
  single _ _ h := scan_single hstop h
  many _ _ _ h hvalues hrest := scan_values hstop h hvalues hrest
  split _ _ _ _ hn h := scan_append_hyphenated hn h
  attached _ _ _ _ h hoption hvalue hh := attached_of_scan hnames h hoption hvalue hh
  once _ h := settle_of_nodup h
  again _ _ h name := lookup_settle h name

end DappyCore.Lib.Argv
