import DappyCore.ChildSession

/-!
Dotted paths into the arguments of a `startDebugging` request. The dots become slashes and the
text is read as a JSON pointer, in which a slash divides and a tilde escapes.
-/

namespace DappyCore.ChildSession

open Lib.Effect Json Transport Plugin

/-! ### Segment by segment -/

/-- A decimal index without leading zeros, as far as a `usize` goes. -/
def decimalIndex (seg : List Char) : Option ℕ :=
  if seg = [] ∨ ¬ seg.all Char.isDigit ∨ (seg.head? = some '0' ∧ seg ≠ ['0']) then none
  else some (Nat.ofDigitChars 10 seg 0) |>.filter (· ≤ usizeMax)

/-- The member of exactly this name, or the element of this index. -/
def member (value : Value) (seg : List Char) : Option Value :=
  match value with
  | .object fields => lookupField (String.ofList seg) fields
  | .array items => (decimalIndex seg).bind fun index => items[index]?
  | _ => none

/-- From the root down, one segment at a time. -/
def descend (context : Value) (segs : List (List Char)) : Option Value :=
  segs.foldlM member context

/-- A segment that is not empty and has no dot. -/
def IsKey (seg : List Char) : Prop := seg ≠ [] ∧ '.' ∉ seg

/-- The path of the segments. -/
def dotted (segs : List (List Char)) : List Char := ['.'].intercalate segs

/-- The placeholder of a path. -/
def placeholderOf (path : List Char) : String :=
  String.ofList (['$', '\x7b'] ++ path ++ ['\x7d'])

/-- A rule that only asks for a path. -/
def asksFor (path : List Char) : ChildSessionRule where
  when := { request := none, «exists» := [String.ofList path], parentBackend := [] }
  childBackend := .inheritParentStdio
  debugRequest := ⟨"launch", .null⟩

/-- The test of a rule finds the path, and its placeholder stands for what is there, as one
descends along the segments. -/
structure LooksUp (context : Value) (segs : List (List Char)) : Prop where
  tested : ∀ args parent,
    ruleMatches (asksFor (dotted segs)) args context parent = (descend context segs).isSome
  expanded : (resolveTemplateValue (placeholderOf (dotted segs)) context).toOption =
    descend context segs

/-! ### As the text is read -/

/-- An escape of a JSON pointer. -/
def HasEscape (seg : List Char) : Prop := ['~', '0'] <:+: seg ∨ ['~', '1'] <:+: seg

/-- No segment has a slash or an escape. -/
def Plain (segs : List (List Char)) : Prop := ∀ seg ∈ segs, '/' ∉ seg ∧ ¬ HasEscape seg

/-- The keys that the path is read as: segments fall apart at a slash, and lose their escapes. -/
def keysRead (segs : List (List Char)) : List (List Char) :=
  segs.flatMap fun seg => (seg.splitOnP (· = '/')).map unescape

/-- The whole configuration, or the whole request. -/
def Whole (segs : List (List Char)) : Prop :=
  segs = ["configuration".toList] ∨ segs = ["request".toList]

/-- One of these two is asked for and is not there; `null` stands for it. -/
def Defaulted (context : Value) (segs : List (List Char)) : Prop :=
  Whole segs ∧ descend context segs = none

lemma parseIndex_eq (seg : List Char) : parseIndex seg = decimalIndex seg := by
  unfold parseIndex decimalIndex
  cases seg with
  | nil => rfl
  | cons c rest =>
    by_cases hplus : c = '+'
    · subst hplus
      simp [show Char.isDigit '+' = false from rfl]
    · have hdigits : digitsOf (c :: rest) = c :: rest := by
        unfold digitsOf
        split
        · next h => exact absurd (List.cons.inj h).1 hplus
        · rfl
      unfold parseUsize
      rw [hdigits]
      by_cases hzero : c = '0'
      · subst hzero
        cases rest with
        | nil => simp
        | cons d rest => simp
      · simp [hplus, hzero]

lemma pointerStep_eq (value : Value) (seg : List Char) :
    pointerStep value seg = member value seg := by
  unfold pointerStep member
  cases value with
  | array items => simp only [parseIndex_eq]
  | _ => rfl

lemma foldlM_pointerStep (context : Value) (keys : List (List Char)) :
    keys.foldlM pointerStep context = descend context keys := by
  have hstep : pointerStep = member := funext fun value => funext (pointerStep_eq value)
  rw [hstep, descend]

/-! ### Splitting -/

/-- Where a dot or a slash divides, a key falls apart at its slashes only. -/
lemma splitOnP_key {seg : List Char} (h : '.' ∉ seg) :
    (seg.splitOnP fun c => c = '.' ∨ c = '/') = seg.splitOnP (· = '/') := by
  induction seg with
  | nil => rfl
  | cons c rest ih =>
    obtain ⟨hc, hrest⟩ := List.ne_and_not_mem_of_not_mem_cons h
    rw [List.splitOnP_cons_eq_if_modifyHead, List.splitOnP_cons_eq_if_modifyHead, ih hrest]
    simp [hc.symm]

lemma splitOnP_dotted {segs : List (List Char)} (hne : segs ≠ []) (h : ∀ seg ∈ segs, '.' ∉ seg) :
    ((dotted segs).splitOnP fun c => c = '.' ∨ c = '/') =
      segs.flatMap fun seg => seg.splitOnP (· = '/') := by
  induction segs with
  | nil => exact absurd rfl hne
  | cons seg rest ih =>
    obtain ⟨hseg, hrest⟩ := List.forall_mem_cons.mp h
    cases rest with
    | nil =>
      have hjoin : dotted [seg] = seg := by simp [dotted, List.intercalate]
      rw [hjoin, splitOnP_key hseg, List.flatMap_singleton]
    | cons seg' rest =>
      have hjoin : dotted (seg :: seg' :: rest) = seg ++ '.' :: dotted (seg' :: rest) := by
        simp [dotted, List.intercalate]
      rw [hjoin, List.splitOnP_append_cons _ _ (by simp), splitOnP_key hseg, ih (by simp) hrest]
      rfl

lemma dotted_eq_nil_iff {segs : List (List Char)} (h : ∀ seg ∈ segs, IsKey seg) :
    dotted segs = [] ↔ segs = [] := by
  cases segs with
  | nil => simp [dotted, List.intercalate]
  | cons seg rest =>
    have hne := (h seg List.mem_cons_self).1
    cases rest with
    | nil => simp [dotted, List.intercalate, hne]
    | cons seg' rest => simp [dotted, List.intercalate]

/-- A path without dots is one segment. -/
lemma dotted_eq_iff {segs : List (List Char)} {w : List Char} (h : ∀ seg ∈ segs, IsKey seg)
    (hw : IsKey w) : dotted segs = w ↔ segs = [w] := by
  constructor
  · intro he
    cases segs with
    | nil => exact absurd he.symm hw.1
    | cons seg rest =>
      cases rest with
      | nil => simpa [dotted, List.intercalate] using he
      | cons seg' rest =>
        refine absurd ?_ hw.2
        rw [← he]
        simp [dotted, List.intercalate]
  · rintro rfl
    simp [dotted, List.intercalate]

/-- **The pointer** of a path leads along the keys that it is read as. -/
theorem pointer_dotted (context : Value) {segs : List (List Char)} (h : ∀ seg ∈ segs, IsKey seg) :
    pointer context (dotted segs) = descend context (keysRead segs) := by
  unfold pointer
  by_cases hnil : segs = []
  · subst hnil
    rfl
  · rw [if_neg (mt (dotted_eq_nil_iff h).mp hnil),
      splitOnP_dotted hnil fun seg hseg => (h seg hseg).2, List.map_flatMap, foldlM_pointerStep,
      keysRead]

/-! ### Escapes -/

lemma length_unescape_le (l : List Char) : (unescape l).length ≤ l.length := by
  induction l using unescape.induct with
  | case1 rest ih => simp only [unescape, List.length_cons]; omega
  | case2 rest ih => simp only [unescape, List.length_cons]; omega
  | case3 c rest h1 h0 ih => rw [unescape.eq_3 _ _ h1 h0]; simpa using ih
  | case4 => rfl

lemma hasEscape_cons {c : Char} {rest : List Char} (h1 : ∀ r, c = '~' → rest = '1' :: r → False)
    (h0 : ∀ r, c = '~' → rest = '0' :: r → False) :
    HasEscape (c :: rest) ↔ HasEscape rest := by
  unfold HasEscape
  rw [List.infix_cons_iff, List.infix_cons_iff]
  have hno0 : ¬ ['~', '0'] <+: c :: rest := by
    rintro ⟨r, hr⟩
    obtain ⟨hc, hrest⟩ := List.cons.inj hr
    exact h0 r hc.symm hrest.symm
  have hno1 : ¬ ['~', '1'] <+: c :: rest := by
    rintro ⟨r, hr⟩
    obtain ⟨hc, hrest⟩ := List.cons.inj hr
    exact h1 r hc.symm hrest.symm
  simp only [hno0, hno1, false_or]

lemma unescape_of_not_hasEscape {l : List Char} (h : ¬ HasEscape l) : unescape l = l := by
  induction l using unescape.induct with
  | case1 rest ih => exact absurd (.inr ⟨[], rest, rfl⟩) h
  | case2 rest ih => exact absurd (.inl ⟨[], rest, rfl⟩) h
  | case3 c rest h1 h0 ih =>
    rw [unescape.eq_3 _ _ h1 h0, ih (mt (hasEscape_cons h1 h0).mpr h)]
  | case4 => rfl

lemma length_unescape_lt {l : List Char} (h : HasEscape l) : (unescape l).length < l.length := by
  induction l using unescape.induct with
  | case1 rest ih =>
    have hle := length_unescape_le rest
    simp only [unescape, List.length_cons]
    omega
  | case2 rest ih =>
    have hle := length_unescape_le rest
    simp only [unescape, List.length_cons]
    omega
  | case3 c rest h1 h0 ih =>
    have hlt := ih ((hasEscape_cons h1 h0).mp h)
    rw [unescape.eq_3 _ _ h1 h0]
    simpa using hlt
  | case4 => rcases h with h | h <;> simp at h

/-! ### The keys -/

lemma keysRead_cons (seg : List Char) (rest : List (List Char)) :
    keysRead (seg :: rest) = (seg.splitOnP (· = '/')).map unescape ++ keysRead rest := rfl

lemma splitOnP_of_not_mem {seg : List Char} (h : '/' ∉ seg) : seg.splitOnP (· = '/') = [seg] := by
  refine List.splitOnP_eq_singleton fun c hc => decide_eq_false ?_
  rintro rfl
  exact h hc

lemma keysRead_cons_plain {seg : List Char} (h : '/' ∉ seg ∧ ¬ HasEscape seg)
    (rest : List (List Char)) : keysRead (seg :: rest) = seg :: keysRead rest := by
  rw [keysRead_cons, splitOnP_of_not_mem h.1, List.map_singleton, unescape_of_not_hasEscape h.2,
    List.singleton_append]

/-- Plain segments are read as they are. -/
lemma keysRead_of_plain {segs : List (List Char)} (h : Plain segs) : keysRead segs = segs := by
  induction segs with
  | nil => rfl
  | cons seg rest ih =>
    obtain ⟨hseg, hrest⟩ := List.forall_mem_cons.mp h
    rw [keysRead_cons_plain hseg, ih hrest]

/-- Of another, the first key is a shorter text. -/
lemma keysRead_cons_of_not_plain {seg : List Char} (h : ¬ ('/' ∉ seg ∧ ¬ HasEscape seg))
    (rest : List (List Char)) : ∃ key keys, keysRead (seg :: rest) = key :: keys ∧ key ≠ seg := by
  rw [keysRead_cons]
  by_cases hslash : '/' ∈ seg
  · obtain ⟨front, back, rfl, hfront⟩ := List.eq_append_cons_of_mem hslash
    have hsplit : (front ++ '/' :: back).splitOnP (· = '/') = front :: back.splitOnP (· = '/') := by
      rw [List.splitOnP_append_cons _ _ (by simp), splitOnP_of_not_mem hfront,
        List.singleton_append]
    refine ⟨unescape front, _, by rw [hsplit, List.map_cons, List.cons_append], fun he => ?_⟩
    have hle := length_unescape_le front
    have hlen := congrArg List.length he
    simp only [List.length_append, List.length_cons] at hlen
    omega
  · have hescape : HasEscape seg := by
      by_contra hno
      exact h ⟨hslash, hno⟩
    refine ⟨unescape seg, keysRead rest, by rw [splitOnP_of_not_mem hslash]; rfl, fun he => ?_⟩
    have hlt := length_unescape_lt hescape
    rw [he] at hlt
    omega

/-- A context that has what the segments lead to, and nothing else. -/
def chain : List (List Char) → Value
  | [] => .bool true
  | seg :: rest => .object [(String.ofList seg, chain rest)]

lemma descend_cons (context : Value) (seg : List Char) (rest : List (List Char)) :
    descend context (seg :: rest) = (member context seg).bind fun v => descend v rest := rfl

lemma member_chain (seg key : List Char) (rest : List (List Char)) :
    member (chain (seg :: rest)) key = if seg = key then some (chain rest) else none := by
  simp only [member, chain, lookupField, String.ofList_inj]

lemma descend_chain (segs : List (List Char)) : descend (chain segs) segs = some (.bool true) := by
  induction segs with
  | nil => rfl
  | cons seg rest ih => rw [descend_cons, member_chain, if_pos rfl, Option.bind_some, ih]

lemma descend_chain_keysRead {segs : List (List Char)} (h : ¬ Plain segs) :
    descend (chain segs) (keysRead segs) = none := by
  induction segs with
  | nil => exact absurd (by simp [Plain]) h
  | cons seg rest ih =>
    by_cases hseg : '/' ∉ seg ∧ ¬ HasEscape seg
    · have hrest : ¬ Plain rest := fun hrest => h (List.forall_mem_cons.mpr ⟨hseg, hrest⟩)
      rw [keysRead_cons_plain hseg, descend_cons, member_chain, if_pos rfl, Option.bind_some,
        ih hrest]
    · obtain ⟨key, keys, hkeys, hne⟩ := keysRead_cons_of_not_plain hseg rest
      rw [hkeys, descend_cons, member_chain, if_neg hne.symm]
      rfl

/-! ### The test and the placeholder -/

lemma ruleMatches_asksFor (path : List Char) (args : StartDebuggingArgs) (context : Value)
    (parent : ParentSessionContext) :
    ruleMatches (asksFor path) args context parent = (pointer context path).isSome := by
  simp [ruleMatches, asksFor]

lemma placeholder_placeholderOf (path : List Char) :
    placeholder (placeholderOf path) = some path := by
  simp [placeholder, placeholderOf, List.isPrefixOf?]

lemma toOption_resolveTemplateValue {text : String} {path : List Char}
    (hp : placeholder text = some path) (context : Value) :
    (resolveTemplateValue text context).toOption =
      if path = "configuration".toList then some ((context.get "configuration").getD .null)
      else if path = "request".toList then some ((context.get "request").getD .null)
      else pointer context path := by
  -- the two names are compared as strings, the path as characters
  have hconf : String.ofList path = "configuration" ↔ path = "configuration".toList := by
    rw [← String.toList_inj, String.toList_ofList]
  have hreq : String.ofList path = "request" ↔ path = "request".toList := by
    rw [← String.toList_inj, String.toList_ofList]
  unfold resolveTemplateValue
  simp only [hp]
  by_cases h1 : path = "configuration".toList
  · rw [if_pos h1, hconf.mpr h1]
    rfl
  · rw [if_neg h1]
    by_cases h2 : path = "request".toList
    · rw [if_pos h2, hreq.mpr h2]
      rfl
    · rw [if_neg h2]
      split
      · next h => exact absurd (hconf.mp h) h1
      · next h => exact absurd (hreq.mp h) h2
      · cases pointer context path <;> rfl

lemma get_eq_member (context : Value) {name : String} (h : decimalIndex name.toList = none) :
    context.get name = member context name.toList := by
  cases context with
  | object fields => simp [Value.get, member]
  | array items => simp [Value.get, member, h]
  | _ => rfl

/-- For one of the two names at the root, `null` stands for what is not there. -/
lemma expanded_whole_iff (context : Value) {name : String} (h : decimalIndex name.toList = none) :
    some ((context.get name).getD .null) = descend context [name.toList] ↔
      descend context [name.toList] ≠ none := by
  have hdescend : descend context [name.toList] = context.get name := by
    rw [get_eq_member context h, descend_cons]
    cases member context name.toList <;> rfl
  rw [hdescend]
  cases context.get name <;> simp

lemma expanded_iff (context : Value) {segs : List (List Char)} (h : ∀ seg ∈ segs, IsKey seg) :
    (resolveTemplateValue (placeholderOf (dotted segs)) context).toOption = descend context segs ↔
      (¬ Whole segs → descend context (keysRead segs) = descend context segs) ∧
        ¬ Defaulted context segs := by
  rw [toOption_resolveTemplateValue (placeholder_placeholderOf _), pointer_dotted context h]
  have hconf : dotted segs = "configuration".toList ↔ segs = ["configuration".toList] :=
    dotted_eq_iff h ⟨by decide, by decide⟩
  have hreq : dotted segs = "request".toList ↔ segs = ["request".toList] :=
    dotted_eq_iff h ⟨by decide, by decide⟩
  by_cases h1 : segs = ["configuration".toList]
  · rw [if_pos (hconf.mpr h1), h1, expanded_whole_iff context (by decide)]
    simp [Whole, Defaulted]
  · rw [if_neg (mt hconf.mp h1)]
    by_cases h2 : segs = ["request".toList]
    · rw [if_pos (hreq.mpr h2), h2, expanded_whole_iff context (by decide)]
      simp [Whole, Defaulted]
    · have hw : ¬ Whole segs := fun hw => hw.elim h1 h2
      rw [if_neg (mt hreq.mp h2)]
      simp [Defaulted, hw]

lemma plain_of_whole {segs : List (List Char)} (h : Whole segs) : Plain segs := by
  have hkey : ∀ w, w = "configuration".toList ∨ w = "request".toList →
      '/' ∉ w ∧ ¬ HasEscape w := by
    have htilde : ∀ w : List Char, '~' ∉ w → ¬ HasEscape w := fun w hw he =>
      he.elim (fun hi => hw (hi.subset (by simp))) fun hi => hw (hi.subset (by simp))
    rintro w (rfl | rfl) <;> exact ⟨by decide, htilde _ (by decide)⟩
  rcases h with rfl | rfl
  · exact List.forall_mem_singleton.mpr (hkey _ (.inl rfl))
  · exact List.forall_mem_singleton.mpr (hkey _ (.inr rfl))

/-- **In one context** a path is looked up segment by segment exactly where the keys that it is
read as lead where the segments do, and `null` does not stand for what is not there. -/
theorem looksUp_iff (context : Value) {segs : List (List Char)} (h : ∀ seg ∈ segs, IsKey seg) :
    LooksUp context segs ↔
      descend context (keysRead segs) = descend context segs ∧ ¬ Defaulted context segs := by
  constructor
  · rintro ⟨-, hexpanded⟩
    obtain ⟨hsame, hdefault⟩ := (expanded_iff context h).mp hexpanded
    refine ⟨?_, hdefault⟩
    by_cases hw : Whole segs
    · rw [keysRead_of_plain (plain_of_whole hw)]
    · exact hsame hw
  · rintro ⟨hsame, hdefault⟩
    refine ⟨fun args parent => ?_, (expanded_iff context h).mpr ⟨fun _ => hsame, hdefault⟩⟩
    rw [ruleMatches_asksFor, pointer_dotted context h, hsame]

/-- **Dotted paths are looked up segment by segment** in a context exactly where the keys that the
text is read as lead to the same, and no default is taken; and in every context exactly where no
segment has a slash or an escape and the path is not one of the two that have a default. -/
theorem dotted_path_iff {segs : List (List Char)} (h : ∀ seg ∈ segs, IsKey seg) :
    (∀ context, LooksUp context segs ↔
        descend context (keysRead segs) = descend context segs ∧ ¬ Defaulted context segs) ∧
      ((∀ context, LooksUp context segs) ↔ Plain segs ∧ ¬ Whole segs) := by
  refine ⟨fun context => looksUp_iff context h, fun hall => ⟨?_, fun hw => ?_⟩, ?_⟩
  · by_contra hplain
    have hchain := ((looksUp_iff _ h).mp (hall (chain segs))).1
    rw [descend_chain_keysRead hplain, descend_chain] at hchain
    cases hchain
  · have hnull := ((looksUp_iff _ h).mp (hall .null)).2
    exact hnull ⟨hw, by rcases hw with rfl | rfl <;> rfl⟩
  · rintro ⟨hplain, hw⟩ context
    exact (looksUp_iff context h).mpr ⟨by rw [keysRead_of_plain hplain], fun hd => hw hd.1⟩

section Example

/-- The port that the configuration has for a file. -/
def portOfFile : List (List Char) := ["configuration".toList, "src/main".toList, "port".toList]

def fileConfiguration : StartDebuggingArgs :=
  ⟨"attach", .object [("src/main", .object [("port", .int 5678)])]⟩

lemma isKey_portOfFile : ∀ seg ∈ portOfFile, IsKey seg := by
  intro seg hseg
  simp only [portOfFile, List.mem_cons, List.not_mem_nil, or_false] at hseg
  rcases hseg with rfl | rfl | rfl <;> exact ⟨by decide, by decide⟩

theorem dotted_path_iff_file :
    (∀ context, LooksUp context portOfFile ↔
        descend context (keysRead portOfFile) = descend context portOfFile ∧
          ¬ Defaulted context portOfFile) ∧
      ((∀ context, LooksUp context portOfFile) ↔ Plain portOfFile ∧ ¬ Whole portOfFile) :=
  dotted_path_iff isKey_portOfFile

/-- The port is there, and is not found. -/
theorem slash_divides_a_segment :
    (∀ seg ∈ portOfFile, IsKey seg) ∧
      (descend fileConfiguration.toValue portOfFile).isSome ∧
      ¬ LooksUp fileConfiguration.toValue portOfFile := by
  refine ⟨isKey_portOfFile, by decide, fun h => ?_⟩
  have htested := h.tested fileConfiguration ⟨.stdio, [], none⟩
  exact absurd htested (by decide)

end Example

end DappyCore.ChildSession
