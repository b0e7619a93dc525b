import DappyCore.Json

/-!
The typed DAP messages, and their JSON form as the serde attributes of the types give it.
-/

namespace DappyCore.Protocol

open Json

structure Request where
  seq : ℤ
  command : String
  arguments : Option Value

structure Response where
  seq : ℤ
  requestSeq : ℤ
  success : Bool
  command : Option String
  message : Option String
  body : Option Value

structure Event where
  seq : ℤ
  event : String
  body : Option Value

/-- Top-level DAP message envelope (request, response, or event). -/
inductive Message
  | request (request : Request)
  | response (response : Response)
  | event (event : Event)

/-- A field that is left out when there is nothing in it. -/
def optField (key : String) (value : Option Value) : Fields := (value.map fun v => (key, v)).toList

namespace Message

/-- `serde_json::to_value`. -/
def toValue : Message → Value
  | .request r => .obj [("type", .string "request"), ("seq", .int r.seq),
      ("command", .string r.command), ("arguments", .ofOption r.arguments)]
  | .response r => .obj ([("type", .string "response"), ("seq", .int r.seq),
      ("request_seq", .int r.requestSeq), ("success", .bool r.success)] ++
      optField "command" (r.command.map .string) ++ optField "message" (r.message.map .string) ++
      optField "body" r.body)
  | .event e => .obj ([("type", .string "event"), ("seq", .int e.seq),
      ("event", .string e.event)] ++ optField "body" e.body)

end Message

/-- An `Option<Value>` field: absent and `null` are both `None`. -/
def optValue (value : Value) (key : String) : Option Value :=
  match value.get key with
  | some .null => none
  | v => v

/-- An `Option<String>` field; anything but a string or `null` is an error. -/
def optString (value : Value) (key : String) : Option (Option String) :=
  match value.get key with
  | none | some .null => some none
  | some (.string s) => some (some s)
  | some _ => none

/-- A field with an alias; both at once are an error. -/
def aliased (value : Value) (key key' : String) : Option Value :=
  match value.get key, value.get key' with
  | some v, none => some v
  | none, v => v
  | some _, some _ => none

namespace Message

/-- `serde_json::from_value` on an object. -/
def ofValue (value : Value) : Option Message :=
  match (value.get "type").bind Value.asStr with
  | some "request" => do
    let seq ← (value.get "seq").bind Value.asI64
    let command ← (value.get "command").bind Value.asStr
    return .request { seq, command, arguments := optValue value "arguments" }
  | some "response" => do
    let seq ← (value.get "seq").bind Value.asI64
    let requestSeq ← (aliased value "request_seq" "requestSeq").bind Value.asI64
    let success ← (value.get "success").bind Value.asBool
    let command ← optString value "command"
    let message ← optString value "message"
    return .response { seq, requestSeq, success, command, message, body := optValue value "body" }
  | some "event" => do
    let seq ← (value.get "seq").bind Value.asI64
    let event ← (value.get "event").bind Value.asStr
    return .event { seq, event, body := optValue value "body" }
  | _ => none

/-- No optional field holds `Some(null)`. -/
def NoSomeNull : Message → Prop
  | .request r => r.arguments ≠ some .null
  | .response r => r.body ≠ some .null
  | .event e => e.body ≠ some .null

/-- `Some(null)` comes back as `None`. -/
def optNormal (value : Option Value) : Option Value :=
  match value with
  | some .null => none
  | v => v

/-- The message with `None` for each `Some(null)`. -/
def normal : Message → Message
  | .request r => .request { r with arguments := optNormal r.arguments }
  | .response r => .response { r with body := optNormal r.body }
  | .event e => .event { e with body := optNormal e.body }

lemma optValue_eq (v : Value) (key : String) : optValue v key = optNormal (v.get key) := rfl

/-- **Every message comes back** from its JSON form, but for `Some(null)`. -/
theorem ofValue_toValue (m : Message) : ofValue m.toValue = some m.normal := by
  match m with
  | .request ⟨n, name, args⟩ =>
    cases args <;>
      simp [ofValue, toValue, normal, optValue_eq, optNormal, Value.obj, Value.get,
        lookup_insertField, Value.ofOption, Value.asStr, Value.asI64]
  | .response ⟨n, rn, ok, name, text, payload⟩ =>
    cases name <;> cases text <;> cases payload <;>
      simp [ofValue, toValue, normal, optField, optValue_eq, optString, aliased, Value.obj,
        Value.get, lookup_insertField, lookupField, Value.asStr, Value.asI64, Value.asBool]
  | .event ⟨n, name, payload⟩ =>
    cases payload <;>
      simp [ofValue, toValue, normal, optField, optValue_eq, Value.obj, Value.get,
        lookup_insertField, lookupField, Value.asStr, Value.asI64]

end Message

end DappyCore.Protocol
