import DappyCore.ChildSession
import DappyCore.Paths

/-!
Requests of the adapter that the proxy answers itself, on behalf of a client without a terminal.
-/

namespace DappyCore.ReverseRequest

open Json Protocol ChildSession Paths

/-- The process that a `runInTerminal` request asks for. -/
structure TerminalCommand where
  program : String
  args : List String
  cwd : Option String
  env : List (String × String)

/-- What can go wrong before the process runs. -/
inductive TerminalFailure | directory | logFile | duplicate | spawn

def TerminalFailure.text : TerminalFailure → String
  | directory => "failed to create runInTerminal log directory: "
  | logFile => "failed to create runInTerminal log file: "
  | duplicate => "failed to duplicate runInTerminal log file: "
  | spawn => "failed to spawn terminal process: "

/-- The system under the proxy: the directory for temporary files, and what comes of a process
that is to be run with its output in a log file, its id or what went wrong. -/
structure Terminal where
  tempDir : String
  run : TerminalCommand → String → Except (TerminalFailure × String) ℕ

def runInTerminalLogPath (terminal : Terminal) (requestSeq : ℤ) : String :=
  join (join terminal.tempDir "dap-run-in-terminal") (toString requestSeq ++ ".log")

def succeedReverseRequest (request : Request) (body : Option Value) : Message :=
  .response
    { seq := 0, requestSeq := request.seq, success := true, command := some request.command,
      message := none, body }

/-- The string entries of an object. -/
def stringFields (value : Option Value) : List (String × String) :=
  ((value.bind Value.asObject).getD []).filterMap fun f => (f.2.asStr).map fun s => (f.1, s)

/-- The process, or why there is none. -/
def terminalCommand (arguments : Value) : Except String TerminalCommand :=
  match (arguments.get "args").bind Value.asArray with
  | none | some [] => .error "runInTerminal missing args"
  | some (first :: rest) =>
    match first.asStr.getD "" with
    | "" => .error "runInTerminal args[0] must be a command"
    | program =>
      .ok { program
            args := rest.filterMap Value.asStr
            cwd := (arguments.get "cwd").bind Value.asStr
            env := stringFields (arguments.get "env") }

def handleRunInTerminal (terminal : Terminal) (request : Request) : Message :=
  match terminalCommand (request.arguments.getD .null) with
  | .error message => failReverse request message
  | .ok command =>
    let logPath := runInTerminalLogPath terminal request.seq
    match terminal.run command logPath with
    | .ok processId =>
      succeedReverseRequest request <| some <| .obj
        [("captured", .bool true), ("logPath", .string logPath), ("processId", .int processId)]
    | .error (failure, err) => failReverse request (failure.text ++ err)

/-- Handle adapter-originated reverse requests before they reach multiplex clients. -/
def handleReverseRequest (terminal : Terminal) : Message → Option Message
  | .request request =>
    match request.command with
    | "startDebugging" => some (declineReverseRequest request)
    | "runInTerminal" => some (handleRunInTerminal terminal request)
    | _ => none
  | _ => none

end DappyCore.ReverseRequest
