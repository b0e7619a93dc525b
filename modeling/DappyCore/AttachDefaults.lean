import DappyCore.MuxBridge

/-!
The defaults of a target, filled into the arguments of an `attach` or `launch`: once by
`run_headless` and once more where the bridge forwards the request.
-/

namespace DappyCore.AttachDefaults

open Json Protocol MuxBridge

/-! ### Filling in fields -/

/-- One turn of the loop over the defaults: `entry(key).or_insert(value)`. -/
def fillField (acc : Fields) (f : String × Value) : Fields :=
  if (lookupField f.1 acc).isSome then acc else insertField f.1 f.2 acc

lemma mergeDefaultAttachArguments_object (fields defaults : Fields) :
    mergeDefaultAttachArguments (.object fields) (.object defaults) =
      .object (defaults.foldl fillField fields) := rfl

lemma lookup_fillField (key : String) (acc : Fields) (f : String × Value) :
    lookupField key (fillField acc f) =
      (lookupField key acc).or (if f.1 = key then some f.2 else none) := by
  unfold fillField
  by_cases h : (lookupField f.1 acc).isSome
  · rw [if_pos h]
    by_cases hk : f.1 = key
    · obtain ⟨v, hv⟩ := Option.isSome_iff_exists.mp h
      rw [← hk, hv]
      rfl
    · rw [if_neg hk, Option.or_none]
  · rw [if_neg h, lookup_insertField]
    by_cases hk : f.1 = key
    · rw [Option.not_isSome_iff_eq_none] at h
      rw [if_pos hk, if_pos hk, ← hk, h]
      rfl
    · rw [if_neg hk, if_neg hk, Option.or_none]

/-- What is filled in is the union, and a key that is there keeps its value. -/
lemma lookup_foldl_fillField (key : String) (defaults fields : Fields) :
    lookupField key (defaults.foldl fillField fields) =
      (lookupField key fields).or (lookupField key defaults) := by
  induction defaults generalizing fields with
  | nil => simp [lookupField]
  | cons f rest ih =>
    obtain ⟨k, v⟩ := f
    rw [List.foldl_cons, ih, lookup_fillField, Option.or_assoc]
    by_cases hk : k = key
    · simp [lookupField, hk]
    · simp [lookupField, hk]

lemma isSome_lookup_of_mem {f : String × Value} {fields : Fields} (h : f ∈ fields) :
    (lookupField f.1 fields).isSome := by
  induction fields with
  | nil => simp at h
  | cons g rest ih =>
    obtain ⟨k, v⟩ := g
    by_cases hk : k = f.1
    · simp [lookupField, hk]
    · have hne : f ≠ (k, v) := fun e => hk (congrArg Prod.fst e).symm
      rw [lookupField, if_neg hk]
      exact ih ((List.mem_cons.mp h).resolve_left hne)

/-- Nothing is left to fill in where every default has a value. -/
lemma foldl_fillField_of_isSome {defaults fields : Fields}
    (h : ∀ f ∈ defaults, (lookupField f.1 fields).isSome) :
    defaults.foldl fillField fields = fields := by
  induction defaults with
  | nil => rfl
  | cons f rest ih =>
    have hf : fillField fields f = fields := if_pos (h f List.mem_cons_self)
    rw [List.foldl_cons, hf]
    exact ih fun g hg => h g (List.mem_cons_of_mem f hg)

/-! ### Merging -/

/-- What a merge with the defaults of a target leaves: every default has a value. -/
lemma mergeDefaultAttachArguments_filled (client : Value) (defaults : Fields) :
    ∃ fields, mergeDefaultAttachArguments client (.object defaults) = .object fields ∧
      ∀ f ∈ defaults, (lookupField f.1 fields).isSome := by
  cases client with
  | object fields =>
    refine ⟨_, mergeDefaultAttachArguments_object fields defaults, fun f hf => ?_⟩
    rw [lookup_foldl_fillField, Option.isSome_or, isSome_lookup_of_mem hf, Bool.or_true]
  | null => exact ⟨defaults, rfl, fun f hf => isSome_lookup_of_mem hf⟩
  | _ =>
    refine ⟨_, rfl, fun f hf => ?_⟩
    rw [lookup_insertField]
    split_ifs
    · rfl
    · exact isSome_lookup_of_mem hf

/-- A second merge with the same defaults changes nothing. -/
lemma merge_merge (client defaults : Value) :
    mergeDefaultAttachArguments (mergeDefaultAttachArguments client defaults) defaults =
      mergeDefaultAttachArguments client defaults := by
  cases defaults with
  | object defaults =>
    obtain ⟨fields, hm, hf⟩ := mergeDefaultAttachArguments_filled client defaults
    rw [hm, mergeDefaultAttachArguments_object, foldl_fillField_of_isSome hf]
  | _ => rfl

/-- `u` has the keys of both, and those of `client` with their values there. -/
def IsUnion (client defaults u : Fields) : Prop :=
  ∀ key, lookupField key u = (lookupField key client).or (lookupField key defaults)

/-- The requests that start debugging. -/
def StartsDebugging : Message → Prop
  | .request request => request.command = "attach" ∨ request.command = "launch"
  | _ => False

/-- The message with other arguments, where it is a request. -/
def withArguments (arguments : Option Value) : Message → Message
  | .request request => .request { request with arguments }
  | message => message

/-- The arguments of a request. -/
def argumentsOf : Message → Option Value
  | .request request => request.arguments
  | _ => none

lemma mergeDebugRequestArguments_of_not {message : Message} (h : ¬ StartsDebugging message)
    (defaults : Value) : mergeDebugRequestArguments message defaults = message := by
  cases message with
  | request request => exact if_neg h
  | response response => rfl
  | event event => rfl

lemma mergeDebugRequestArguments_of_starts {message : Message} (h : StartsDebugging message)
    (defaults : Value) :
    mergeDebugRequestArguments message defaults =
      withArguments (some (mergeDefaultAttachArguments ((argumentsOf message).getD (.obj []))
        defaults)) message := by
  cases message with
  | request request => exact if_pos h
  | response response => exact h.elim
  | event event => exact h.elim

/-- What a merge does to a message: nothing, or it replaces the arguments. -/
lemma mergeDebugRequestArguments_eq (message : Message) (defaults : Value) :
    ∃ arguments, mergeDebugRequestArguments message defaults = withArguments arguments message := by
  by_cases h : StartsDebugging message
  · exact ⟨_, mergeDebugRequestArguments_of_starts h defaults⟩
  · rw [mergeDebugRequestArguments_of_not h]
    exact ⟨argumentsOf message, by cases message <;> rfl⟩

/-- The bridge leaves arguments alone that `run_headless` has merged already. -/
lemma mergeDebugRequestArguments_merged (message : Message) (client defaults : Value) :
    mergeDebugRequestArguments
        (withArguments (some (mergeDefaultAttachArguments client defaults)) message) defaults =
      withArguments (some (mergeDefaultAttachArguments client defaults)) message := by
  cases message with
  | request request =>
    by_cases h : request.command = "attach" ∨ request.command = "launch"
    · have hs : StartsDebugging (withArguments
          (some (mergeDefaultAttachArguments client defaults)) (.request request)) := h
      rw [mergeDebugRequestArguments_of_starts hs]
      exact congrArg (fun args => withArguments (some args) (.request request))
        (merge_merge client defaults)
    · exact if_neg h
  | response response => rfl
  | event event => rfl

/-- **Defaults merge safely.** A second merge changes nothing, neither on the value nor on a
request whose arguments were merged before it was sent; two objects become their union, in which
the client's values stay; and on its way to the adapter no other message is changed, and nothing
of these but the arguments. -/
theorem defaults_merge_safely (client defaults : Value) :
    mergeDefaultAttachArguments (mergeDefaultAttachArguments client defaults) defaults =
        mergeDefaultAttachArguments client defaults ∧
      (∀ c d, client = .object c → defaults = .object d →
        ∃ u, mergeDefaultAttachArguments client defaults = .object u ∧ IsUnion c d u) ∧
      ∀ message,
        (¬ StartsDebugging message → mergeDebugRequestArguments message defaults = message) ∧
        (∃ arguments,
          mergeDebugRequestArguments message defaults = withArguments arguments message) ∧
        mergeDebugRequestArguments
            (withArguments (some (mergeDefaultAttachArguments client defaults)) message) defaults =
          withArguments (some (mergeDefaultAttachArguments client defaults)) message := by
  refine ⟨merge_merge client defaults, ?_, fun message => ⟨?_, ?_, ?_⟩⟩
  · rintro c d rfl rfl
    exact ⟨_, mergeDefaultAttachArguments_object c d, fun key => lookup_foldl_fillField key d c⟩
  · exact fun h => mergeDebugRequestArguments_of_not h defaults
  · exact mergeDebugRequestArguments_eq message defaults
  · exact mergeDebugRequestArguments_merged message client defaults

end DappyCore.AttachDefaults
