import DappyCore.Lib.Interleave
import DappyCore.Lib.Trace
import DappyCore.Loader
import DappyCore.Queues
import DappyCore.ReverseAnswers

/-!
The whole multiplexed proxy: the bridge to the adapter with the multiplexer's loop, and for each
client a bridge of its own, of a loop that reads the client and one that writes to it. All of them
take their steps in any order, and speak to the loop through the queue of its operations.
-/

namespace DappyCore.ClientBridge

open Lib Json MuxMessage Protocol Session SessionLoop MuxBridge

/-! ### Plugin metadata -/

/-- DAP request command for plugin metadata lookup. -/
def dapProxyPluginInfoCommand : String := "dapProxyPluginInfo"

/-- Active adapter plugin metadata; `canonicalize` is `Path::canonicalize`. -/
structure ProxyPluginContext where
  manifest : Loader.PluginManifest
  canonicalize : String → Option String

def sidecarPath (canonicalize : String → Option String) (relative sourcePath : Option String) :
    Option String := do
  let relative ← relative
  let manifestPath ← sourcePath
  let parent ← Paths.parent manifestPath
  let path := Paths.join parent relative
  return (canonicalize path).getD path

namespace ProxyPluginContext

/-- Resolved absolute path to the companion attachment YAML, if configured. -/
def attachmentPath (context : ProxyPluginContext) : Option String :=
  sidecarPath context.canonicalize context.manifest.attachment context.manifest.sourcePath

def pluginInfoBody (context : ProxyPluginContext) : Value :=
  let manifest := context.manifest
  let body : Value := .obj
    [("pluginId", .string manifest.id), ("adapterId", .string manifest.id),
      ("name", .string manifest.name), ("version", .string manifest.version),
      ("launchTypes", .array (manifest.launchTypes.map .string)),
      ("fileExtensions", .array (manifest.fileExtensions.map .string))]
  let body :=
    match manifest.attachment with
    | some spec => body.set "attachmentSpec" (.string spec)
    | none => body
  match context.attachmentPath with
  | some path => body.set "attachment" (.string path)
  | none => body

end ProxyPluginContext

/-- Answer a client-originated `dapProxyPluginInfo` request locally. -/
def handlePluginInfoRequest (request : Request) (context : ProxyPluginContext) : Message :=
  .response
    { seq := 0, requestSeq := request.seq, success := true
      command := some dapProxyPluginInfoCommand, message := none
      body := some context.pluginInfoBody }

/-- A response when the proxy handles the request without forwarding upstream. -/
def tryHandleClientRequest (context : ProxyPluginContext) : Message → Option Message
  | .request request =>
    if request.command = dapProxyPluginInfoCommand then
      some (handlePluginInfoRequest request context)
    else none
  | .response _ | .event _ => none

/-! ### The proxy -/

/-- What a multiplexed proxy is started with. -/
structure Options where
  child : Option ChildSessionBridge
  pluginContext : Option ProxyPluginContext
  attachDefaults : Option Value
  toText : Value → String

/-- What of it the bridge to the adapter is started with. -/
def Options.setup (options : Options) : Setup where
  child := options.child
  pluginContext := options.pluginContext.isSome
  attachDefaults := options.attachDefaults
  toText := options.toText

/-- The answer that the proxy has to a message of a client. -/
def Options.answer (options : Options) (message : Message) : Option Message :=
  options.pluginContext.bind fun context => tryHandleClientRequest context message

/-- Where the bridge of a client has come to. -/
inductive Stage
  | ingesting
  | ended
  | detached
  | finished
  deriving DecidableEq

/-- The bridge of one client: the messages its `ingest` loop has handled, how many its `egress`
loop has taken from the client's channel, and what the two have written to the client. -/
structure Client where
  role : ClientRole
  stage : Stage
  egressing : Bool
  read : List Message
  taken : ℕ
  written : List Message

/-- `ops` is all that was ever put on the loop's queue, of which the loop has taken `taken`. -/
structure System where
  bridge : Bridge
  ops : List SessionOp
  taken : ℕ
  clients : Id → Option Client

/-- A client asks for a place; the loop takes an operation; a client's message is read, with what
comes of the answer's write; a client hangs up, times out or cannot be read; its bridge goes on to
its end; the next message is written to it; the bridge to the adapter takes a step of its own. -/
inductive Input
  | connect (role : ClientRole)
  | takeOp
  | ingest (id : Id) (message : Message) (write : Write)
  | hangUp (id : Id)
  | finish (id : Id)
  | egress (id : Id) (write : Write)
  | backend (input : MuxBridge.Input)

def Client.new (role : ClientRole) : Client where
  role := role
  stage := .ingesting
  egressing := true
  read := []
  taken := 0
  written := []

def start : System where
  bridge := MuxBridge.start
  ops := []
  taken := 0
  clients := fun _ => none

namespace System

/-- `ops.send(..)`, which fails once the loop has ended. -/
def send (s : System) (op : SessionOp) : System × Bool :=
  if s.bridge.serving then ({ s with ops := s.ops ++ [op] }, true) else (s, false)

def setClient (s : System) (id : Id) (client : Client) : System :=
  { s with clients := Function.update s.clients id (some client) }

/-- The loop takes an operation from its queue. A client that is attached has its bridge then. -/
def takeOp (s : System) : System :=
  if s.bridge.serving then
    match s.ops[s.taken]? with
    | some op =>
      let id := s.bridge.session.nextId
      let t := { s with taken := s.taken + 1, bridge := serve s.bridge (.op op) }
      match op with
      | .attach role => t.setClient id (.new role)
      | .clientSend _ _ | .detach _ => t
    | none => s
  else s

/-- One round of a client's `ingest`. -/
def ingest (options : Options) (s : System) (id : Id) (client : Client) (message : Message)
    (write : Write) : System :=
  match options.answer message with
  | some response =>
    match write with
    | .ok () =>
      s.setClient id { client with
        read := client.read ++ [message], written := client.written ++ [response] }
    | .error _ => s.setClient id { client with stage := .ended }
  | none =>
    match s.send (.clientSend id message.toValue) with
    | (t, true) => t.setClient id { client with read := client.read ++ [message] }
    | (t, false) => t.setClient id { client with stage := .ended }

/-- After `ingest`: the client is detached, and its bridge waits for `egress`. A control client is
detached once more by the listener. -/
def finish (s : System) (id : Id) (client : Client) : System :=
  match client.stage with
  | .ended => (s.send (.detach id)).1.setClient id { client with stage := .detached }
  | .detached =>
    if client.egressing then s
    else if client.role = .control then
      (s.send (.detach id)).1.setClient id { client with stage := .finished }
    else s.setClient id { client with stage := .finished }
  | .ingesting | .finished => s

/-- The end of a client's `egress`, and with it of the channel it reads. -/
def stopEgress (s : System) (id : Id) (client : Client) : System :=
  { s with bridge := serve s.bridge (.dropRecv id) }.setClient id { client with egressing := false }

/-- One round of a client's `egress`. The channel is at its end once the loop does not hold its
sender any more. -/
def egress (s : System) (id : Id) (client : Client) (write : Write) : System :=
  match (s.bridge.session.recv id).sent[client.taken]? with
  | some value =>
    match Message.ofValue value, write with
    | some message, .ok () =>
      s.setClient id { client with
        taken := client.taken + 1, written := client.written ++ [message] }
    | _, _ => s.stopEgress id client
  | none =>
    if s.bridge.serving ∧ (s.bridge.session.clients.lookup id).isSome then s
    else s.stopEgress id client

/-- The steps of the bridge to the adapter and of the loop in which no client's bridge takes part.
A client's subscription to the events goes when its bridge does. -/
def ofBackend : MuxBridge.Input → Bool
  | .client _ | .dropRecv _ => false
  | .adapter _ _ _ _ | .serve _ | .dropEvents _ | .forward _ | .shutdown _ | .muxEnds => true

def step (options : Options) (s : System) : Input → System
  | .connect role => (s.send (.attach role)).1
  | .takeOp => s.takeOp
  | .ingest id message write =>
    match s.clients id with
    | some client =>
      if client.stage = .ingesting then s.ingest options id client message write else s
    | none => s
  | .hangUp id =>
    match s.clients id with
    | some client =>
      if client.stage = .ingesting then s.setClient id { client with stage := .ended } else s
    | none => s
  | .finish id =>
    match s.clients id with
    | some client => s.finish id client
    | none => s
  | .egress id write =>
    match s.clients id with
    | some client => if client.egressing then s.egress id client write else s
    | none => s
  | .backend input =>
    if ofBackend input then { s with bridge := MuxBridge.step options.setup s.bridge input } else s

end System

/-- Where a run ends. -/
def exec (options : Options) (inputs : List Input) : System :=
  inputs.foldl (System.step options) start

end DappyCore.ClientBridge
