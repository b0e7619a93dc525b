import DappyCore.Json
import DappyCore.Lib.Text
import Mathlib.Data.List.Forall2

/-!
Shortening a `variables` response. The limit on a value is one of characters by its name, and of
bytes where it is applied.
-/

namespace DappyCore.Bounds

open Lib.Text Json

/-! ### The code -/

def ellipsis (front : List Char) : Value := .string (String.ofList (front ++ ['…']))

/-- The entry with a shorter value, marked. -/
def cutEntry (entry : Value) (front : List Char) : Value :=
  (entry.set "value" (ellipsis front)).set "truncated" (.bool true)

/-- Slicing the value may panic. -/
def truncateVariableEntry (maxValueChars : ℕ) (entry : Value) : Option Value :=
  match (entry.get "value").bind Value.asStr with
  | some value =>
    if maxValueChars < size value.toList then
      (sliceTo value.toList maxValueChars).map (cutEntry entry)
    else some entry
  | none => some entry

def variablesOf (body : Value) : List Value := ((body.get "variables").bind Value.asArray).getD []

/-- Truncate a DAP `variables` response for agent-friendly output. -/
def truncateVariablesResponse (body : Value) (maxVariables maxValueChars : ℕ) : Option Value := do
  let «variables» := variablesOf body
  let total := «variables».length
  let limited ← («variables».take maxVariables).mapM (truncateVariableEntry maxValueChars)
  return ((body.set "variables" (.array limited)).set "variableCount" (.int total)).set "truncated"
    (.bool (maxVariables < total))

/-! ### What is to come out -/

/-- The value is cut to a prefix within the limit, and says so. -/
structure Shortened (limit : ℕ) (value : List Char) (entry kept : Value) : Prop where
  cut : ∃ front, front <+: value ∧ front.length ≤ limit ∧ kept.get "value" = some (ellipsis front)
  marked : kept.get "truncated" = some (.bool true)
  others : ∀ key, key ≠ "value" → key ≠ "truncated" → kept.get key = entry.get key

/-- An entry whose value is within the limit, in characters, is as it was; another is shortened. -/
def Faithful (limit : ℕ) (entry kept : Value) : Prop :=
  match (entry.get "value").bind Value.asStr with
  | some value =>
    if value.toList.length ≤ limit then ∀ key, kept.get key = entry.get key
    else Shortened limit value.toList entry kept
  | none => kept = entry

structure Truncated (body : Value) (maxVariables maxValueChars : ℕ) (out : Value) : Prop where
  entries : ∃ kept, out.get "variables" = some (.array kept) ∧
    kept.length = min maxVariables (variablesOf body).length ∧
    List.Forall₂ (Faithful maxValueChars) ((variablesOf body).take maxVariables) kept
  count : out.get "variableCount" = some (.int (variablesOf body).length)
  marked : out.get "truncated" = some (.bool (maxVariables < (variablesOf body).length))
  others : ∀ key, key ≠ "variables" → key ≠ "variableCount" → key ≠ "truncated" →
    out.get key = body.get key

/-! ### One entry -/

/-- The bytes of the value are within the limit, or the limit is a place in it: then it has more
characters than the limit, or is cut to what it was already, and marked so. -/
def Cuttable (limit : ℕ) (entry : Value) (value : List Char) : Prop :=
  size value ≤ limit ∨ ∃ front, front <+: value ∧ size front = limit ∧
    (limit < value.length ∨ value = front ++ ['…'] ∧ entry.get "truncated" = some (.bool true))

variable {limit : ℕ} {entry kept : Value} {value : String}

lemma isObject_of_bind (h : (entry.get "value").bind Value.asStr = some value) :
    entry.IsObject := by
  obtain ⟨v, hv, -⟩ := Option.bind_eq_some_iff.mp h
  exact Value.isObject_of_get hv

lemma get_of_bind (h : (entry.get "value").bind Value.asStr = some value) :
    entry.get "value" = some (.string value) := by
  obtain ⟨v, hv, hstr⟩ := Option.bind_eq_some_iff.mp h
  cases v with
  | string s => rw [hv, ← Option.some.inj hstr]
  | _ => cases hstr

section Cut

variable {front : List Char}

lemma get_value_cutEntry (h : entry.IsObject) :
    (cutEntry entry front).get "value" = some (ellipsis front) := by
  rw [cutEntry, Value.get_set_of_ne (by decide), Value.get_set_self h]

lemma get_truncated_cutEntry (h : entry.IsObject) :
    (cutEntry entry front).get "truncated" = some (.bool true) :=
  Value.get_set_self (h.set _ _) _ _

lemma get_cutEntry_of_ne {key : String} (hv : key ≠ "value") (ht : key ≠ "truncated") :
    (cutEntry entry front).get key = entry.get key := by
  rw [cutEntry, Value.get_set_of_ne ht.symm, Value.get_set_of_ne hv.symm]

lemma ellipsis_eq_iff : ellipsis front = .string value ↔ value.toList = front ++ ['…'] := by
  rw [ellipsis, Value.string.injEq]
  constructor
  · rintro rfl
    rw [String.toList_ofList]
  · intro h
    rw [← h, String.ofList_toList]

/-- A cut leaves an entry as it was where it had been made before. -/
lemma get_cutEntry_iff (h : (entry.get "value").bind Value.asStr = some value) :
    (∀ key, (cutEntry entry front).get key = entry.get key) ↔
      value.toList = front ++ ['…'] ∧ entry.get "truncated" = some (.bool true) := by
  have hobj := isObject_of_bind h
  constructor
  · intro hsame
    have hvalue := hsame "value"
    have hmarked := hsame "truncated"
    rw [get_value_cutEntry hobj, get_of_bind h, Option.some_inj] at hvalue
    rw [get_truncated_cutEntry hobj] at hmarked
    exact ⟨ellipsis_eq_iff.mp hvalue, hmarked.symm⟩
  · rintro ⟨hvalue, hmarked⟩ key
    by_cases hv : key = "value"
    · rw [hv, get_value_cutEntry hobj, get_of_bind h, ellipsis_eq_iff.mpr hvalue]
    · by_cases ht : key = "truncated"
      · rw [ht, get_truncated_cutEntry hobj, hmarked]
      · exact get_cutEntry_of_ne hv ht

end Cut

/-- **One entry** comes out as it should exactly where its value can be cut. -/
lemma truncateVariableEntry_iff :
    (∃ kept, truncateVariableEntry limit entry = some kept ∧ Faithful limit entry kept) ↔
      ∀ value, (entry.get "value").bind Value.asStr = some value →
        Cuttable limit entry value.toList := by
  unfold truncateVariableEntry Faithful
  cases h : (entry.get "value").bind Value.asStr with
  | none => simp
  | some value =>
    simp only [Option.some_inj, forall_eq']
    have hlen := length_le_size value.toList
    by_cases hsize : size value.toList ≤ limit
    · rw [if_neg (by omega)]
      refine iff_of_true ⟨entry, rfl, ?_⟩ (.inl hsize)
      rw [if_pos (by omega)]
      exact fun _ => rfl
    · rw [if_pos (by omega), Cuttable, or_iff_right hsize]
      constructor
      · rintro ⟨kept, hkept, hfaithful⟩
        obtain ⟨front, hfront, rfl⟩ := Option.map_eq_some_iff.mp hkept
        obtain ⟨hpre, rfl⟩ := sliceTo_eq_some_iff.mp hfront
        refine ⟨front, hpre, rfl, ?_⟩
        split_ifs at hfaithful with hle
        · exact .inr ((get_cutEntry_iff h).mp hfaithful)
        · exact .inl (by omega)
      · rintro ⟨front, hpre, rfl, hcut⟩
        refine ⟨_, Option.map_eq_some_iff.mpr
          ⟨front, sliceTo_eq_some_iff.mpr ⟨hpre, rfl⟩, rfl⟩, ?_⟩
        split_ifs with hle
        · exact (get_cutEntry_iff h).mpr (hcut.resolve_left (by omega))
        · have hobj := isObject_of_bind h
          exact ⟨⟨front, hpre, length_le_size front, get_value_cutEntry hobj⟩,
            get_truncated_cutEntry hobj, fun key => get_cutEntry_of_ne⟩

/-! ### The law -/

lemma exists_mapM_iff {α β : Type} {f : α → Option β} {R : α → β → Prop} {l : List α} :
    (∃ out, l.mapM f = some out ∧ List.Forall₂ R l out) ↔ ∀ a ∈ l, ∃ b, f a = some b ∧ R a b := by
  induction l with
  | nil => simp
  | cons a l ih =>
    rw [List.forall_mem_cons, ← ih]
    constructor
    · rintro ⟨out, hout, hrel⟩
      cases ha : f a with
      | none => simp [List.mapM_cons, ha] at hout
      | some b =>
        cases hl : l.mapM f with
        | none => simp [List.mapM_cons, ha, hl] at hout
        | some bs =>
          obtain rfl : b :: bs = out := by simpa [List.mapM_cons, ha, hl] using hout
          obtain ⟨hab, hbs⟩ := List.forall₂_cons.mp hrel
          exact ⟨⟨b, rfl, hab⟩, bs, rfl, hbs⟩
    · rintro ⟨⟨b, hb, hab⟩, bs, hbs, hrel⟩
      exact ⟨b :: bs, by simp [List.mapM_cons, hb, hbs], .cons hab hrel⟩

/-- The response with these entries in it. -/
def responseWith (fields : Fields) (maxVariables : ℕ) (limited : List Value) : Value :=
  (((Value.object fields).set "variables" (.array limited)).set "variableCount"
    (.int (variablesOf (.object fields)).length)).set "truncated"
      (.bool (maxVariables < (variablesOf (.object fields)).length))

section Response

variable {fields : Fields} {maxVariables : ℕ} {limited : List Value}

lemma get_variables_responseWith :
    (responseWith fields maxVariables limited).get "variables" = some (.array limited) := by
  have hobj : (Value.object fields).IsObject := ⟨fields, rfl⟩
  rw [responseWith, Value.get_set_of_ne (by decide), Value.get_set_of_ne (by decide),
    Value.get_set_self hobj]

lemma truncated_responseWith (h : List.Forall₂ (Faithful limit)
    ((variablesOf (.object fields)).take maxVariables) limited) :
    Truncated (.object fields) maxVariables limit (responseWith fields maxVariables limited) := by
  have hobj : (Value.object fields).IsObject := ⟨fields, rfl⟩
  refine ⟨⟨limited, get_variables_responseWith, ?_, h⟩, ?_, ?_, fun key hv hc ht => ?_⟩
  · rw [← h.length_eq, List.length_take]
  · rw [responseWith, Value.get_set_of_ne (by decide), Value.get_set_self (hobj.set _ _)]
  · rw [responseWith, Value.get_set_self ((hobj.set _ _).set _ _)]
  · rw [responseWith, Value.get_set_of_ne ht.symm, Value.get_set_of_ne hc.symm,
      Value.get_set_of_ne hv.symm]

end Response

/-- **Truncation is total and faithful** exactly where each value that is kept can be cut. -/
theorem truncates_iff (fields : Fields) (maxVariables maxValueChars : ℕ) :
    (∃ out, truncateVariablesResponse (.object fields) maxVariables maxValueChars = some out ∧
      Truncated (.object fields) maxVariables maxValueChars out) ↔
    ∀ entry ∈ (variablesOf (.object fields)).take maxVariables,
      ∀ value, (entry.get "value").bind Value.asStr = some value →
        Cuttable maxValueChars entry value.toList := by
  simp only [← truncateVariableEntry_iff, ← exists_mapM_iff]
  have hresponse : truncateVariablesResponse (.object fields) maxVariables maxValueChars =
      (((variablesOf (.object fields)).take maxVariables).mapM
        (truncateVariableEntry maxValueChars)).map (responseWith fields maxVariables) := by
    unfold truncateVariablesResponse
    dsimp only
    cases ((variablesOf (.object fields)).take maxVariables).mapM
      (truncateVariableEntry maxValueChars) <;> rfl
  rw [hresponse]
  constructor
  · rintro ⟨out, hout, htruncated⟩
    obtain ⟨limited, hlimited, rfl⟩ := Option.map_eq_some_iff.mp hout
    obtain ⟨kept, hkept, -, hrel⟩ := htruncated.entries
    rw [get_variables_responseWith, Option.some_inj, Value.array.injEq] at hkept
    exact ⟨limited, hlimited, hkept ▸ hrel⟩
  · rintro ⟨limited, hlimited, hrel⟩
    exact ⟨_, Option.map_eq_some_iff.mpr ⟨limited, hlimited, rfl⟩, truncated_responseWith hrel⟩

/-- One variable, of the value `é`. -/
def accented : Fields := [("variables", .array [.object [("value", .string "é")]])]

theorem limit_within_a_character : ¬ ∃ out,
    truncateVariablesResponse (.object accented) 1 1 = some out ∧
      Truncated (.object accented) 1 1 out := by
  rintro ⟨out, hout, -⟩
  have hnone : (truncateVariablesResponse (.object accented) 1 1).isNone := by decide
  rw [hout] at hnone
  cases hnone

end DappyCore.Bounds
