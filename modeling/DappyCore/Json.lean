import Mathlib.Data.Int.Notation
import Mathlib.Data.Nat.Notation
import Mathlib.Data.List.Basic

/-!
JSON values as `serde_json` holds them, and the accessors the code uses.

An object keeps its fields in a `BTreeMap`: sorted by key, one value each. An integer is
either one an `i64` holds, or one only a `u64` holds.
-/

namespace DappyCore.Json

inductive Number
  | int (n : ℤ)
  | big (n : ℕ)
  | float (bits : UInt64)
  deriving DecidableEq

inductive Value
  | null
  | bool (b : Bool)
  | number (n : Number)
  | string (s : String)
  | array (items : List Value)
  | object (fields : List (String × Value))

abbrev Fields := List (String × Value)

/-- `Map::get`. -/
def lookupField (key : String) : Fields → Option Value
  | [] => none
  | (k, v) :: rest => if k = key then some v else lookupField key rest

/-- `Map::insert`: replaces the value of the key, or adds it in its place. -/
def insertField (key : String) (value : Value) : Fields → Fields
  | [] => [(key, value)]
  | (k, v) :: rest =>
    if k = key then (key, value) :: rest
    else if key < k then (key, value) :: (k, v) :: rest
    else (k, v) :: insertField key value rest

/-- `Map::remove`. -/
def removeField (key : String) : Fields → Fields
  | [] => []
  | (k, v) :: rest => if k = key then removeField key rest else (k, v) :: removeField key rest

lemma lookup_insertField (key k' : String) (value : Value) (fields : Fields) :
    lookupField k' (insertField key value fields) =
      if key = k' then some value else lookupField k' fields := by
  induction fields with
  | nil => simp [insertField, lookupField]
  | cons f rest ih =>
    obtain ⟨k, v⟩ := f
    by_cases h : k = key
    · subst h
      simp only [insertField, lookupField, if_true]
      split_ifs <;> rfl
    · by_cases hlt : key < k
      · simp [insertField, lookupField, h, hlt]
      · simp only [insertField, lookupField, h, hlt, if_false, ih]
        by_cases hk : k = k'
        · have hne : key ≠ k' := fun e => h (hk.trans e.symm)
          simp [hk, hne]
        · simp [hk]

lemma lookup_removeField (key k' : String) (fields : Fields) :
    lookupField k' (removeField key fields) =
      if key = k' then none else lookupField k' fields := by
  induction fields with
  | nil => simp [removeField, lookupField]
  | cons f rest ih =>
    obtain ⟨k, v⟩ := f
    by_cases h : k = key
    · subst h
      simp only [removeField, lookupField, if_true, ih]
      split_ifs <;> rfl
    · simp only [removeField, lookupField, h, if_false, ih]
      by_cases hk : k = k'
      · have hne : key ≠ k' := fun e => h (hk.trans e.symm)
        simp [hk, hne]
      · simp [hk]

lemma lookup_foldl_insertField (fields acc : Fields) (hnd : (fields.map (·.1)).Nodup)
    (key : String) :
    lookupField key (fields.foldl (fun acc f => insertField f.1 f.2 acc) acc) =
      (lookupField key fields).or (lookupField key acc) := by
  induction fields generalizing acc with
  | nil => rfl
  | cons f rest ih =>
    obtain ⟨k, v⟩ := f
    obtain ⟨hk, hrest⟩ := List.nodup_cons.mp hnd
    rw [List.foldl_cons, ih _ hrest, lookup_insertField]
    by_cases e : k = key
    · subst e
      have hnone : lookupField k rest = none := by
        clear ih hnd hrest
        induction rest with
        | nil => rfl
        | cons f rest ih =>
          rw [List.map_cons, List.mem_cons, not_or] at hk
          rw [lookupField, if_neg (Ne.symm hk.1), ih hk.2]
      simp [lookupField, hnone]
    · simp [lookupField, e]

namespace Value

/-- The JSON integer an `i64` becomes. -/
abbrev int (n : ℤ) : Value := .number (.int n)

/-- `json!({ .. })`: the fields inserted in turn. -/
def obj (fields : Fields) : Value :=
  .object (fields.foldl (fun acc f => insertField f.1 f.2 acc) [])

/-- `json!(x)` for an optional `x`. -/
def ofOption : Option Value → Value
  | some v => v
  | none => .null

/-- `Value::get` with a string index. -/
def get (v : Value) (key : String) : Option Value :=
  match v with
  | .object fields => lookupField key fields
  | _ => none

def asObject : Value → Option Fields
  | .object fields => some fields
  | _ => none

def asArray : Value → Option (List Value)
  | .array items => some items
  | _ => none

def asStr : Value → Option String
  | .string s => some s
  | _ => none

def asBool : Value → Option Bool
  | .bool b => some b
  | _ => none

/-- `Value::as_i64`: neither a float nor an integer above `i64::MAX`. -/
def asI64 : Value → Option ℤ
  | .number (.int n) => some n
  | _ => none

/-- `obj.insert(key, value)` on a value that is an object; nothing on another. -/
def set (v : Value) (key : String) (value : Value) : Value :=
  match v with
  | .object fields => .object (insertField key value fields)
  | v => v

/-- `obj.remove(key)` on a value that is an object; nothing on another. -/
def unset (v : Value) (key : String) : Value :=
  match v with
  | .object fields => .object (removeField key fields)
  | v => v

def IsObject (v : Value) : Prop := ∃ fields, v = .object fields

lemma isObject_of_get {v w : Value} {key : String} (h : v.get key = some w) : v.IsObject := by
  cases v with
  | object fields => exact ⟨fields, rfl⟩
  | _ => simp [get] at h

lemma get_obj {fields : Fields} (hnd : (fields.map (·.1)).Nodup) (key : String) :
    (obj fields).get key = lookupField key fields := by
  rw [obj, get, lookup_foldl_insertField _ _ hnd]
  simp [lookupField]

lemma IsObject.set {v : Value} (h : v.IsObject) (key : String) (w : Value) :
    (v.set key w).IsObject := by
  obtain ⟨fields, rfl⟩ := h
  exact ⟨_, rfl⟩

lemma IsObject.unset {v : Value} (h : v.IsObject) (key : String) : (v.unset key).IsObject := by
  obtain ⟨fields, rfl⟩ := h
  exact ⟨_, rfl⟩

@[simp] lemma get_set_self {v : Value} (h : v.IsObject) (key : String) (w : Value) :
    (v.set key w).get key = some w := by
  obtain ⟨fields, rfl⟩ := h
  simp [Value.set, get, lookup_insertField]

lemma get_set_of_ne {key k' : String} (hne : key ≠ k') (v w : Value) :
    (v.set key w).get k' = v.get k' := by
  cases v <;> simp [Value.set, get, lookup_insertField, hne]

@[simp] lemma get_unset_self (v : Value) (key : String) : (v.unset key).get key = none := by
  cases v <;> simp [Value.unset, get, lookup_removeField]

lemma get_unset_of_ne {key k' : String} (hne : key ≠ k') (v : Value) :
    (v.unset key).get k' = v.get k' := by
  cases v <;> simp [Value.unset, get, lookup_removeField, hne]

end Value

end DappyCore.Json
