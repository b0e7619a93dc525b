import DappyCore.ReverseRequest
import DappyCore.Observer

/-!
The bridge between the adapter and the multiplexer: a loop that reads the adapter and answers
its requests or passes its messages on, one that writes to the adapter what the multiplexer
forwards, and the multiplexer's loop between them. They take their steps in any order.
-/

namespace DappyCore.MuxBridge

open Lib Lib.Machine Json MuxMessage Protocol Transport Session SessionLoop ChildSession
  ReverseRequest

/-- Optional child-session handling for `startDebugging` reverse requests. -/
structure ChildSessionBridge where
  config : ChildSessionConfig
  remainingDepth : ℕ
  parent : ParentSessionContext

/-- What a bridge is started with; `toText` is `Value::to_string`. -/
structure Setup where
  child : Option ChildSessionBridge
  pluginContext : Bool
  attachDefaults : Option Value
  toText : Value → String

/-- `reading` and `forwarding` say which of the two loops are running, `serving` whether the
multiplexer's is. -/
structure Bridge where
  reading : Bool
  forwarding : Bool
  serving : Bool
  toAdapter : List Message
  toMux : List Value
  session : SessionLoop
  forwarded : ℕ
  activeChildren : ℕ

abbrev Write := Except ProtocolError Unit

/-- A message comes from the adapter, with what comes of the process or the child it asks for
and of the answer's write; the multiplexer takes a message; a client acts; the next message is
forwarded; the session is shut down; the multiplexer ends. -/
inductive Input
  | adapter (message : Message) (terminal : Terminal) (spawner : ChildSessionSpawner)
      (write : Write)
  | serve (order : HashMap.Order Id ClientState)
  | client (op : SessionOp)
  | dropRecv (id : Id)
  | dropEvents (id : Id)
  | forward (write : Write)
  | shutdown (write : Write)
  | muxEnds

def start : Bridge where
  reading := true
  forwarding := true
  serving := true
  toAdapter := []
  toMux := []
  session := .start
  forwarded := 0
  activeChildren := 0

/-! ### The adapter's messages -/

/-- Inject proxy capability into an adapter `initialize` response. -/
def augmentInitializeResponse : Message → Message
  | .response response =>
    if response.command = some "initialize" then
      .response { response with
        body := some ((response.body.getD (.obj [])).set "supportsDapProxyPluginInfoRequest"
          (.bool true)) }
    else .response response
  | message => message

/-- The answer to a message, and the number of active children then. -/
def answer (setup : Setup) (terminal : Terminal) (spawner : ChildSessionSpawner)
    (activeChildren : ℕ) (message : Message) : Option (Message × ℕ) :=
  match setup.child, message with
  | some child, .request request =>
    if request.command = "startDebugging" then
      some (handleStartDebugging setup.toText request child.config child.remainingDepth
        child.parent spawner activeChildren)
    else (handleReverseRequest terminal message).map fun response => (response, activeChildren)
  | _, _ => (handleReverseRequest terminal message).map fun response => (response, activeChildren)

/-- One round of `backend_to_mux`. -/
def read (setup : Setup) (b : Bridge) (message : Message) (terminal : Terminal)
    (spawner : ChildSessionSpawner) (write : Write) : Bridge :=
  match answer setup terminal spawner b.activeChildren message with
  | some (response, activeChildren) =>
    match write with
    | .ok () => { b with toAdapter := b.toAdapter ++ [response], activeChildren }
    | .error _ => { b with reading := false, activeChildren }
  | none =>
    let outbound := if setup.pluginContext then augmentInitializeResponse message else message
    if b.serving then { b with toMux := b.toMux ++ [outbound.toValue] }
    else { b with reading := false }

/-! ### The multiplexer's messages -/

/-- Fill missing attach/launch fields from target defaults; client values win on conflict. -/
def mergeDefaultAttachArguments (client defaults : Value) : Value :=
  match defaults with
  | .object defaultFields =>
    match client with
    | .object fields =>
      .object (defaultFields.foldl
        (fun acc f => if (lookupField f.1 acc).isSome then acc else insertField f.1 f.2 acc) fields)
    | .null => defaults
    | client => .object (insertField "extra" client defaultFields)
  | _ => client

/-- Merge attach defaults into a DAP request when forwarding to the adapter. -/
def mergeDebugRequestArguments (message : Message) (defaults : Value) : Message :=
  match message with
  | .request request =>
    if request.command = "attach" ∨ request.command = "launch" then
      .request { request with
        arguments :=
          some (mergeDefaultAttachArguments (request.arguments.getD (.obj [])) defaults) }
    else .request request
  | message => message

/-- The end of `mux_to_backend`, and with it of the channel it reads. -/
def stopForwarding (b : Bridge) : Bridge :=
  { b with
    forwarding := false
    session := { b.session with toUpstream := b.session.toUpstream.drop } }

/-- Send `disconnect` before tearing down the adapter pipe. -/
def requestAdapterDisconnect (b : Bridge) (write : Write) : Bridge :=
  let request : Message := .request
    { seq := 1, command := "disconnect"
      arguments := some (.obj [("terminateDebuggee", .bool true)]) }
  match write with
  | .ok () => { b with toAdapter := b.toAdapter ++ [request] }
  | .error _ => b

/-- One round of `mux_to_backend`. The channel is at its end once the multiplexer's loop is. -/
def forward (setup : Setup) (b : Bridge) (write : Write) : Bridge :=
  match b.session.toUpstream.sent[b.forwarded]? with
  | some value =>
    let b := { b with forwarded := b.forwarded + 1 }
    match Message.ofValue value, write with
    | some message, .ok () =>
      let message :=
        match setup.attachDefaults with
        | some defaults => mergeDebugRequestArguments message defaults
        | none => message
      { b with toAdapter := b.toAdapter ++ [message] }
    | _, _ => stopForwarding b
  | none => if b.serving then b else stopForwarding (requestAdapterDisconnect b write)

/-- The multiplexer's loop takes an input; it ends at the first step that fails. -/
def serve (b : Bridge) (input : Session.Input) : Bridge :=
  match b.session.step input with
  | (session, .ok ()) => { b with session }
  | (session, .error _) => { b with session, serving := false }

def step (setup : Setup) (b : Bridge) : Input → Bridge
  | .adapter message terminal spawner write =>
    if b.reading then read setup b message terminal spawner write else b
  | .serve order =>
    match b.serving, b.toMux with
    | true, value :: rest => serve { b with toMux := rest } (.upstream value order)
    | _, _ => b
  | .client op => if b.serving then serve b (.op op) else b
  | .dropRecv id => serve b (.dropRecv id)
  | .dropEvents id => serve b (.dropEvents id)
  | .forward write => if b.forwarding then forward setup b write else b
  | .shutdown write =>
    if b.forwarding then stopForwarding (requestAdapterDisconnect b write) else b
  | .muxEnds => { b with serving := false }

/-- The bridge as a machine none of whose steps fails. -/
abbrev machine (setup : Setup) (b : Bridge) (i : Input) : Machine.Result Bridge Unit :=
  (step setup b i, .ok ())

end DappyCore.MuxBridge
