import DappyCore.Json

/-!
The accessors of the multiplexer on DAP envelopes: kind, sequence numbers, names, and the
request a `cancel` refers to.
-/

namespace DappyCore.MuxMessage

open Json

inductive MessageKind | request | response | event | unknown
  deriving DecidableEq

def messageKind (value : Value) : MessageKind :=
  match (value.get "type").bind Value.asStr with
  | some "request" => .request
  | some "response" => .response
  | some "event" => .event
  | _ => .unknown

def seq (value : Value) : Option ℤ := (value.get "seq").bind Value.asI64

def setSeq (value : Value) (seq : ℤ) : Value := value.set "seq" (.int seq)

def requestSeq (value : Value) : Option ℤ :=
  ((value.get "requestSeq").or (value.get "request_seq")).bind Value.asI64

def setRequestSeq (value : Value) (requestSeq : ℤ) : Value :=
  (value.unset "requestSeq").set "request_seq" (.int requestSeq)

def command (value : Value) : Option String := (value.get "command").bind Value.asStr

def eventName (value : Value) : Option String := (value.get "event").bind Value.asStr

def cancelRequestId (value : Value) : Option ℤ :=
  if command value ≠ some "cancel" then none
  else
    (((value.get "arguments").bind Value.asObject).bind (lookupField "requestId")).bind
      Value.asI64

/-- Also returns whether the id was written. -/
def setCancelRequestId (value : Value) (requestId : ℤ) : Value × Bool :=
  if command value ≠ some "cancel" then (value, false)
  else
    match (value.get "arguments").bind Value.asObject with
    | none => (value, false)
    | some args =>
      (value.set "arguments" (.object (insertField "requestId" (.int requestId) args)), true)

def request (seqNo : ℤ) (command : String) (arguments : Option Value) : Value :=
  .obj [("type", .string "request"), ("seq", .int seqNo), ("command", .string command),
    ("arguments", arguments.getD (.obj []))]

def response (seq requestSeq : ℤ) (success : Bool) (body : Option Value) : Value :=
  .obj [("type", .string "response"), ("seq", .int seq), ("request_seq", .int requestSeq),
    ("success", .bool success), ("body", .ofOption body)]

def event (seq : ℤ) (name : String) (body : Option Value) : Value :=
  .obj [("type", .string "event"), ("seq", .int seq), ("event", .string name),
    ("body", body.getD (.obj []))]

/-- The same message but for its numbering. -/
def Renumbered (v w : Value) : Prop :=
  ∀ key, key ≠ "seq" → key ≠ "request_seq" → key ≠ "requestSeq" → w.get key = v.get key

/-! ### What the setters change -/

lemma isObject_of_kind {v : Value} (h : messageKind v ≠ .unknown) : v.IsObject := by
  cases hg : v.get "type" with
  | none => simp [messageKind, hg] at h
  | some w => exact Value.isObject_of_get hg

lemma get_setSeq_of_ne {key : String} (h : key ≠ "seq") (v : Value) (n : ℤ) :
    (setSeq v n).get key = v.get key :=
  Value.get_set_of_ne h.symm v _

lemma seq_setSeq {v : Value} (h : v.IsObject) (n : ℤ) : seq (setSeq v n) = some n := by
  simp [seq, setSeq, h, Value.asI64]

lemma get_setRequestSeq_of_ne {key : String} (h : key ≠ "request_seq") (h' : key ≠ "requestSeq")
    (v : Value) (n : ℤ) : (setRequestSeq v n).get key = v.get key := by
  rw [setRequestSeq, Value.get_set_of_ne h.symm, Value.get_unset_of_ne h'.symm]

lemma requestSeq_setRequestSeq {v : Value} (h : v.IsObject) (n : ℤ) :
    requestSeq (setRequestSeq v n) = some n := by
  have hu : (v.unset "requestSeq").IsObject := h.unset _
  have hr : (setRequestSeq v n).get "requestSeq" = none := by
    rw [setRequestSeq, Value.get_set_of_ne (by decide), Value.get_unset_self]
  have hn : (setRequestSeq v n).get "request_seq" = some (.int n) := Value.get_set_self hu _ _
  simp [requestSeq, hr, hn, Value.asI64]

lemma requestSeq_setSeq (v : Value) (n : ℤ) : requestSeq (setSeq v n) = requestSeq v := by
  rw [requestSeq, requestSeq, get_setSeq_of_ne (by decide), get_setSeq_of_ne (by decide)]

lemma command_setSeq (v : Value) (n : ℤ) : command (setSeq v n) = command v := by
  rw [command, command, get_setSeq_of_ne (by decide)]

lemma get_setCancelRequestId_of_ne {key : String} (h : key ≠ "arguments") (v : Value) (n : ℤ) :
    (setCancelRequestId v n).1.get key = v.get key := by
  unfold setCancelRequestId
  split
  · rfl
  · split
    · rfl
    · exact Value.get_set_of_ne h.symm _ _

lemma renumbered_setSeq (v : Value) (n : ℤ) : Renumbered v (setSeq v n) :=
  fun _ h _ _ => get_setSeq_of_ne h v n

lemma renumbered_setRequestSeq (v : Value) (n : ℤ) : Renumbered v (setRequestSeq v n) :=
  fun _ _ h h' => get_setRequestSeq_of_ne h h' v n

lemma Renumbered.trans {u v w : Value} (h : Renumbered u v) (h' : Renumbered v w) :
    Renumbered u w :=
  fun key h1 h2 h3 => (h' key h1 h2 h3).trans (h key h1 h2 h3)

end DappyCore.MuxMessage
