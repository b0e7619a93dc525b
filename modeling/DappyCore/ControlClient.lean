import DappyCore.Lib.Effect
import DappyCore.Lib.Inbox
import DappyCore.Execution
import DappyCore.Transport

/-!
The control client: one connection, read message by message, with the messages that a call
passed over kept for the calls after it.

How long the calls wait is not in the model: a pause among the arrivals is longer than the
deadline that is running, and a call without a deadline waits through it. A message carries its
place among all that arrived, which no call looks at.
-/

namespace DappyCore.Control

open Lib Lib.Effect Json Protocol Transport Execution

/-! ### Errors -/

inductive Error
  | protocol (error : ProtocolError)
  /-- A deadline has elapsed. -/
  | elapsed
  | json
  | msg (text : String)
  /-- `expected .., got ..`. -/
  | expected (what : String) (got : Message)
  | context (text : String) (cause : Error)

/-- How a call ends without a result. -/
inductive Stop
  | error (error : Error)
  /-- It waits for ever. -/
  | waiting

/-! ### Capabilities -/

/-- The JSON names of the flags, in the order of the fields. -/
def capabilityNames : List String :=
  ["supportsConfigurationDoneRequest", "supportsFunctionBreakpoints",
    "supportsConditionalBreakpoints", "supportsHitConditionalBreakpoints",
    "supportsEvaluateForHovers", "supportsStepBack", "supportsSetVariable",
    "supportsSetExpression", "supportsGotoTargetsRequest", "supportsGotoRequest",
    "supportsCompletionsRequest", "supportsBreakpointLocationsRequest",
    "supportsDataBreakpoints", "supportsDisassembleRequest", "supportsInstructionBreakpoints",
    "supportsExceptionFilterOptions", "supportsLogPoints", "supportsRestartFrame",
    "supportsReadMemoryRequest", "supportsWriteMemoryRequest"]

/-- Adapter features reported in the `initialize` response body. -/
structure AdapterCapabilities where
  flags : List (String × Bool)
  exceptionBreakpointFilters : Option (List Value)
  /-- Full initialize body for forward compatibility. -/
  raw : Option Value

namespace AdapterCapabilities

/-- Conservative defaults when capabilities are unknown (e.g. late attach). -/
def unknown : AdapterCapabilities := ⟨capabilityNames.map (·, false), none, none⟩

/-- A field of the struct: by its name in an object, by its place in an array. -/
def fieldOf (body : Value) (name : String) (place : ℕ) : Option Value :=
  match body with
  | .array items => items[place]?
  | body => body.get name

/-- A flag that is `false` when it is missing. -/
def flagOf (value : Option Value) : Option Bool :=
  match value with
  | none => some false
  | some v => v.asBool

/-- `Option<Vec<Value>>`. -/
def filtersOf (value : Option Value) : Option (Option (List Value)) :=
  match value with
  | none | some .null => some none
  | some v => v.asArray.map some

/-- What a struct of 21 fields is read from. -/
def structLike : Value → Bool
  | .object _ => true
  | .array items => items.length ≤ 21
  | _ => false

/-- `serde_json::from_value`. -/
def ofValue (body : Value) : Option AdapterCapabilities := do
  guard (structLike body)
  let flags ← capabilityNames.zipIdx.mapM fun f =>
    (flagOf (fieldOf body f.1 f.2)).map fun b => (f.1, b)
  let filters ← filtersOf (fieldOf body "exceptionBreakpointFilters" 20)
  return ⟨flags, filters, none⟩

def fromJson (value : Value) : Except Error AdapterCapabilities :=
  match ofValue value with
  | none => .error (.context "parse adapter capabilities" .json)
  | some caps => .ok { caps with raw := some value }

def fromInitializeMessage : Message → Except Error AdapterCapabilities
  | .response response =>
    match response.body with
    | none => .error (.msg "initialize response missing body")
    | some body => fromJson body
  | other => .error (.expected "initialize response" other)

end AdapterCapabilities

/-! ### The client -/

abbrev Wire := List (Arrival Message ProtocolError)

/-- A message and its place among all that arrived. -/
abbrev Received := Message × ℕ

/-- Control-plane client for a running multiplexed session. Each request is written under its
own sequence number, an `i64` in the source (`seq_fits` says when it holds them all); `accepts`
says which of them the connection takes. -/
structure ControlClient where
  inbox : Inbox Message ProtocolError
  accepts : ℤ → Except ProtocolError Unit
  written : List Message
  seq : ℤ
  capabilities : AdapterCapabilities

abbrev Client := EStateM Stop ControlClient

def bail {α : Type} (error : Error) : Client α := throw (.error error)

/-- Connect directly to an adapter stdio duplex (bypasses the multiplex proxy). -/
def fromDuplex (arrivals : Wire) (accepts : ℤ → Except ProtocolError Unit) : ControlClient :=
  ⟨⟨arrivals, 0, []⟩, accepts, [], 1, .unknown⟩

def onInbox {α : Type} (f : Inbox Message ProtocolError → α × Inbox Message ProtocolError) :
    Client α :=
  fun c => .ok (f c.inbox).1 { c with inbox := (f c.inbox).2 }

@[simp] lemma onInbox_apply {α : Type}
    (f : Inbox Message ProtocolError → α × Inbox Message ProtocolError) (c : ControlClient) :
    onInbox f c = .ok (f c.inbox).1 { c with inbox := (f c.inbox).2 } := rfl

/-! ### What is waited for -/

def responseMatchesSeq (seq : ℤ) : Message → Bool
  | .response response => response.requestSeq = seq
  | _ => false

def responseMatchesCommand (command : String) : Message → Bool
  | .response response => response.command = some command
  | _ => false

def eventNamed (name : String) : Message → Bool
  | .event event => event.event = name
  | _ => false

/-- `timeout(.., ..).await.with_context(..)?`, around a loop that bails when the channel is
closed. -/
def timedOut (timeout closed : String) : Ended ProtocolError → Stop
  | .failed error => .error (.protocol error)
  | .closed => .error (.msg closed)
  | .paused => .error (.context timeout .elapsed)

/-- A loop that bails when the channel is closed, without a deadline. -/
def unbounded (closed : String) : Ended ProtocolError → Stop
  | .failed error => .error (.protocol error)
  | .closed => .error (.msg closed)
  | .paused => .waiting

def waitOn (wait : Inbox Message ProtocolError →
    Except (Ended ProtocolError) Received × Inbox Message ProtocolError)
    (stop : Ended ProtocolError → Stop) : Client Received := do
  match ← onInbox wait with
  | .ok x => return x
  | .error e => throw (stop e)

/-- `while let Some(message) = recv_from_wire().await? { .. }`: read until a message fits. The
messages before it go to `pending`. -/
def readUntil (patient : Bool) (fits : Message → Bool) (stop : Ended ProtocolError → Stop) :
    Client Received :=
  waitOn (Inbox.seek patient fits) stop

/-- The same loop where the messages before it are dropped. -/
def skipUntil (fits : Message → Bool) (stop : Ended ProtocolError → Stop) : Client Received :=
  waitOn (Inbox.skip fits) stop

/-- `pending.iter().position(..)`, and `pending.remove(index)`. -/
def takePending (fits : Message → Bool) : Client (Option Received) := onInbox (Inbox.pick fits)

/-! ### Calls -/

/-- The client after it wrote a request. -/
def ControlClient.sent (c : ControlClient) (command : String) (arguments : Option Value) :
    ControlClient :=
  { c with
    seq := c.seq + 1
    written := c.written ++ [.request { seq := c.seq, command, arguments }] }

/-- Send a DAP request without waiting for its response. -/
def sendDapRequest (command : String) (arguments : Option Value) : Client ℤ := fun c =>
  match c.accepts c.seq with
  | .ok () => .ok c.seq (c.sent command arguments)
  | .error e => .error (.error (.protocol e)) { c with seq := c.seq + 1 }

lemma sendDapRequest_ok {c : ControlClient} (h : c.accepts c.seq = .ok ()) (command : String)
    (arguments : Option Value) :
    sendDapRequest command arguments c = .ok c.seq (c.sent command arguments) := by
  simp [sendDapRequest, h]

lemma sendDapRequest_error {c : ControlClient} {e : ProtocolError}
    (h : c.accepts c.seq = .error e) (command : String) (arguments : Option Value) :
    sendDapRequest command arguments c =
      .error (.error (.protocol e)) { c with seq := c.seq + 1 } := by
  simp [sendDapRequest, h]

/-- The sequence number of the request, and the event that was awaited. -/
def sendDapRequestAndWaitForEventInner (command : String) (arguments : Option Value)
    (eventName : String) : Client (ℤ × Received) := do
  let seq ← sendDapRequest command arguments
  let event ← readUntil false (eventNamed eventName)
    (timedOut ("timeout waiting for event " ++ eventName)
      ("channel closed before event " ++ eventName))
  return (seq, event)

def sendDapRequestAndWaitForEvent (command : String) (arguments : Option Value)
    (eventName : String) : Client ℤ := do
  let (seq, _) ← sendDapRequestAndWaitForEventInner command arguments eventName
  return seq

def waitForResponse (fits : Message → Bool) (closed : String) : Client Received := do
  match ← takePending fits with
  | some x => return x
  | none => readUntil true fits (unbounded closed)

def waitForResponseSeq (seq : ℤ) : Client Received :=
  waitForResponse (responseMatchesSeq seq)
    ("channel closed before response to seq " ++ toString seq)

def waitForResponseNamed (command : String) : Client Received :=
  waitForResponse (responseMatchesCommand command)
    ("channel closed before response to " ++ command)

/-- A request whose response does not come. -/
def unanswered (command : String) : Ended ProtocolError → Stop :=
  timedOut ("timeout waiting for " ++ command ++ " response")
    ("channel closed before response to " ++ command)

/-- `roundtrip_request` drops every other message it reads. -/
def dapRequest (command : String) (arguments : Option Value) : Client Received := do
  let seq ← sendDapRequest command arguments
  skipUntil (responseMatchesSeq seq) (unanswered command)

/-- Like `dap_request`, but preserves interleaved events/responses in `pending`. -/
def dapRequestPreserveEvents (command : String) (arguments : Option Value) :
    Client Received := do
  let seq ← sendDapRequest command arguments
  readUntil false (responseMatchesSeq seq) (unanswered command)

/-- `recv_next`: the front of `pending`, or else the next message of the connection. -/
def recvNext (patient : Bool) : Client (Except (Ended ProtocolError) Received) := do
  match ← takePending fun _ => true with
  | some x => return .ok x
  | none => onInbox (Inbox.seek patient fun _ => true)

/-- Read the next message, preferring any buffered events from prior requests. -/
def readMessage : Client (Option Received) := do
  match ← recvNext true with
  | .ok x => return some x
  | .error .closed => return none
  | .error (.failed e) => bail (.protocol e)
  | .error .paused => throw .waiting

/-- Read the next inbound message, if any, within the timeout. -/
def recvTimeout : Client (Option Received) := do
  match ← recvNext false with
  | .ok x => return some x
  | .error (.failed e) => bail (.protocol e)
  | .error .closed | .error .paused => return none

/-- `while let Some(msg) = recv_timeout(..).await? { messages.push(msg); }`. -/
def gather : Client (List Received) := do
  match ← onInbox Inbox.gather with
  | .ok messages => return messages
  | .error e => bail (.protocol e)

/-- Drain inbound messages until the timeout elapses. When it is zero, no wire reads are
performed after the buffer is empty. -/
def drain (timeout : ℕ) : Client (List Received) := do
  let messages ← onInbox Inbox.unload
  if timeout = 0 then return messages
  else
    let more ← gather
    -- the late wait: if one more message comes, then all until the next silence
    let late ← gather
    return messages ++ more ++ late

/-- Wait until an event with the given name arrives, preserving other messages. -/
def waitForEvent (name : String) (timeout : ℕ) : Client Received := do
  match ← takePending (eventNamed name) with
  | some x => return x
  | none =>
    if timeout = 0 then bail (.msg ("timeout waiting for event " ++ name))
    else
      -- what the loop puts aside is no such event, so it need not look there again
      readUntil false (eventNamed name) fun
        | .failed error => .error (.protocol error)
        | _ => .error (.msg ("timeout waiting for event " ++ name))

/-- What a replayed message says about the adapter's capabilities. -/
def absorbCapabilities (message : Message) (caps : AdapterCapabilities) : AdapterCapabilities :=
  if responseMatchesCommand "initialize" message then
    match AdapterCapabilities.fromInitializeMessage message with
    | .ok found => found
    | .error _ => caps
  else caps

/-- One message of the late-join replay. -/
def absorb (message : Received) : Client Unit := fun c =>
  .ok () { c with
    capabilities := absorbCapabilities message.1 c.capabilities
    inbox := c.inbox.putAside message }

def absorbEach : List Received → Client Unit
  | [] => return ()
  | message :: rest => do
    absorb message
    absorbEach rest

/-- Read the multiplexer's late-join replay (initialize response, events) and restore adapter
capabilities for clients that attach after session init. -/
def absorbLateJoinReplay : Client Unit := do
  absorbEach (← drain 200)

def responseBody : Message → Client Value
  | .response response => return response.body.getD .null
  | other => bail (.expected "response" other)

end DappyCore.Control
