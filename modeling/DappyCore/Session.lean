import DappyCore.Lib.Channel
import DappyCore.Lib.Machine
import DappyCore.Remapper
import DappyCore.Cache

/-!
The multiplexer's event loop: any number of clients in front of one upstream connection.

A step takes one upstream message or one client operation. What goes on outside the loop is
also an input: a client drops one of its receivers, the upstream writer goes away. The order
in which a loop visits the clients is part of the input, since a hash map does not promise
one.
-/

namespace DappyCore.Session

open Lib Lib.Machine Json MuxMessage Remapper Cache

/-- Default concrete client id. -/
structure Id where
  raw : ℕ
  deriving DecidableEq

inductive ClientRole | editor | control | agent | other
  deriving DecidableEq

inductive MuxError
  | clientNotFound
  | upstreamNotConnected
  | other (text : String)
  deriving DecidableEq

inductive SessionOp
  | attach (role : ClientRole)
  | clientSend (id : Id) (message : Value)
  | detach (id : Id)

/-- The sender of the client's `recv` channel goes by the client's id. -/
structure ClientState where
  role : ClientRole

/-- Of the upstream channel and of each client's `recv` channel the state keeps all that was
put on it. The sequence counters are `i64` in the source, and the ids `u64`; `counters_fit` says
which runs they are enough for. -/
structure SessionLoop where
  toUpstream : Mpsc Value
  recv : Id → Mpsc Value
  clients : HashMap Id ClientState
  secondaryPending : HashMap ℤ (Id × ℤ)
  remapper : MessageRemapper
  backendSeq : ℤ
  displaySeq : ℤ
  broadcast : Broadcast Id Value
  cache : LateJoinCache
  nextClientId : ℕ

inductive Input
  | upstream (message : Value) (order : HashMap.Order Id ClientState)
  | op (op : SessionOp)
  | dropRecv (id : Id)
  | dropEvents (id : Id)
  | dropUpstream

abbrev Outcome := Result SessionLoop MuxError

/-- Control-plane request served locally by the multiplexer (not forwarded upstream). -/
def breakpointSnapshotCommand : String := "_dapBreakpointSnapshot"

def usesSeqRemapping (role : ClientRole) : Bool := role = .editor

namespace SessionLoop

def start : SessionLoop where
  toUpstream := .opened
  recv := fun _ => .closed
  clients := ∅
  secondaryPending := ∅
  remapper := .new
  backendSeq := 0
  displaySeq := 0
  broadcast := .new
  cache := .empty
  nextClientId := 0

def publish (s : SessionLoop) (message : Value) : SessionLoop :=
  if 0 < s.broadcast.receiverCount then { s with broadcast := s.broadcast.send message } else s

/-- Put on the `recv` channel of one client. -/
def push (s : SessionLoop) (id : Id) (message : Value) : SessionLoop :=
  { s with recv := Function.update s.recv id ((s.recv id).push message) }

def deliverToClient (s : SessionLoop) (id : Id) (message : Value) : Outcome :=
  match s.clients.lookup id with
  | none => (s, .error .clientNotFound)
  | some _ =>
    if (s.recv id).alive then (s.push id message, .ok ()) else (s, .error .clientNotFound)

/-- `for (id, state) in clients { if wanted(state.role) { deliver_to_client(..)?; } }` -/
def deliverEach (wanted : ClientRole → Bool) (message : Value) :
    List (Σ _ : Id, ClientState) → SessionLoop → Outcome
  | [], s => (s, .ok ())
  | ⟨id, state⟩ :: rest, s =>
    if wanted state.role then
      match s.deliverToClient id message with
      | (t, .ok ()) => deliverEach wanted message rest t
      | (t, .error e) => (t, .error e)
    else deliverEach wanted message rest s

/-- The roles that get events on their `recv` channel. -/
def receivesEvents (role : ClientRole) : Bool := role = .editor ∨ role = .control

def broadcastToAll (s : SessionLoop) (message : Value) (order : HashMap.Order Id ClientState) :
    Outcome :=
  let display := s.displaySeq + 1
  let outbound := setSeq message display
  let s := { s with displaySeq := display }.publish outbound
  deliverEach receivesEvents outbound (order.visit s.clients) s

def deliverToRole (s : SessionLoop) (role : ClientRole) (message : Value)
    (order : HashMap.Order Id ClientState) : Outcome :=
  deliverEach (· = role) message (order.visit s.clients) s

def deliverToEditor (s : SessionLoop) (message : Value)
    (order : HashMap.Order Id ClientState) : Outcome :=
  let display := s.displaySeq + 1
  { s with displaySeq := display }.deliverToRole .editor (setSeq message display) order

def attach (s : SessionLoop) (role : ClientRole) : SessionLoop :=
  let id : Id := ⟨s.nextClientId + 1⟩
  let s := { s with
    nextClientId := s.nextClientId + 1
    recv := Function.update s.recv id .opened
    broadcast := s.broadcast.subscribe id
    clients := s.clients.insert id ⟨role⟩ }
  -- an error of these deliveries is dropped
  s.cache.replay.foldl (fun s cached => (s.deliverToClient id cached).1) s

/-- The request under its upstream sequence number, recorded as pending. -/
def assignSeq (s : SessionLoop) (id : Id) (role : ClientRole) (message : Value) :
    SessionLoop × Value :=
  let backend := s.backendSeq + 1
  if usesSeqRemapping role then
    match seq message with
    | none => (s, message)
    | some clientSeq =>
      let message := setSeq (translateCancel message s.remapper).1 backend
      ({ s with
          backendSeq := backend
          remapper := s.remapper.map ⟨clientSeq⟩ ⟨backend⟩
          cache := s.cache.observeClientRequest backend message }, message)
  else
    let clientSeq := (seq message).getD backend
    let message := setSeq message backend
    ({ s with
        backendSeq := backend
        secondaryPending := s.secondaryPending.insert backend (id, clientSeq)
        cache := s.cache.observeClientRequest backend message }, message)

def sendUpstream (s : SessionLoop) (message : Value) : Outcome :=
  if s.toUpstream.alive then ({ s with toUpstream := s.toUpstream.push message }, .ok ())
  else (s, .error .upstreamNotConnected)

def handleClientMessage (s : SessionLoop) (id : Id) (message : Value) : Outcome :=
  match s.clients.lookup id with
  | none => (s, .error .clientNotFound)
  | some state =>
    if messageKind message ≠ .request then (s, .ok ())
    else if state.role = .control ∧ command message = some breakpointSnapshotCommand then
      let clientSeq := (seq message).getD 0
      let body := s.cache.breakpointSnapshot
      let display := s.displaySeq + 1
      { s with displaySeq := display }.deliverToClient id
        (response display clientSeq true (some body))
    else
      let (s, message) := s.assignSeq id state.role message
      s.sendUpstream message

def handleOp (s : SessionLoop) : SessionOp → Outcome
  | .attach role => (s.attach role, .ok ())
  | .clientSend id message => s.handleClientMessage id message
  | .detach id => ({ s with clients := s.clients.erase id }, .ok ())

def handleResponse (s : SessionLoop) (message : Value)
    (order : HashMap.Order Id ClientState) : Outcome :=
  let s := { s with cache := s.cache.observeResponse message }
  match requestSeq message with
  | none => (s, .error (.other "response missing requestSeq"))
  | some backendRequestSeq =>
    match s.remapper.unmap ⟨backendRequestSeq⟩ with
    | (remapper, some clientSeq) =>
      { s with remapper }.deliverToEditor (setRequestSeq message clientSeq.raw) order
    | (_, none) =>
      match s.secondaryPending.lookup backendRequestSeq with
      | some (clientId, clientSeq) =>
        { s with secondaryPending := s.secondaryPending.erase backendRequestSeq }.deliverToClient
          clientId (setRequestSeq message clientSeq)
      | none => (s, .ok ())

def handleUpstreamMessage (s : SessionLoop) (message : Value)
    (order : HashMap.Order Id ClientState) : Outcome :=
  let s := s.publish message
  match messageKind message with
  | .response => s.handleResponse message order
  | .event => { s with cache := s.cache.observe message }.broadcastToAll message order
  | .request | .unknown => (s, .ok ())

def step (s : SessionLoop) : Input → Outcome
  | .upstream message order => s.handleUpstreamMessage message order
  | .op op => s.handleOp op
  | .dropRecv id => ({ s with recv := Function.update s.recv id (s.recv id).drop }, .ok ())
  | .dropEvents id => ({ s with broadcast := s.broadcast.unsubscribe id }, .ok ())
  | .dropUpstream => ({ s with toUpstream := s.toUpstream.drop }, .ok ())

end SessionLoop

end DappyCore.Session
