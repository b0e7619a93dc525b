import DappyCore.Breakpoints
import DappyCore.MuxMessage

/-!
What the multiplexer remembers for clients that attach after session init.
-/

namespace DappyCore.Cache

open Json MuxMessage Breakpoints

/-- Cached messages replayed to clients that attach after session init. -/
structure LateJoinCache where
  initialized : Option Value
  lastStopped : Option Value
  initializeBody : Option Value
  breakpoints : BreakpointTracker

namespace LateJoinCache

def empty : LateJoinCache := ⟨none, none, none, .empty⟩

def observe (c : LateJoinCache) (message : Value) : LateJoinCache :=
  if messageKind message ≠ .event then c
  else
    match eventName message with
    | some "initialized" => { c with initialized := some message }
    | some "stopped" => { c with lastStopped := some message }
    | some "breakpoint" =>
      { c with breakpoints := c.breakpoints.observeBreakpointEvent message }
    | _ => c

def observeResponse (c : LateJoinCache) (message : Value) : LateJoinCache :=
  if messageKind message ≠ .response then c
  else
    { c with
      initializeBody :=
        if command message = some "initialize" ∧ isSuccess message then message.get "body"
        else c.initializeBody
      breakpoints := c.breakpoints.observeSetBreakpointsResponse message }

def observeClientRequest (c : LateJoinCache) (backendSeq : ℤ) (message : Value) :
    LateJoinCache :=
  match command message with
  | some "setBreakpoints" =>
    { c with breakpoints := c.breakpoints.trackSetBreakpointsRequest backendSeq message }
  | some "setExceptionBreakpoints" =>
    { c with breakpoints := c.breakpoints.trackSetExceptionBreakpointsRequest message }
  | _ => c

def breakpointSnapshot (c : LateJoinCache) : Value := c.breakpoints.snapshot

def replay (c : LateJoinCache) : List Value :=
  (c.initializeBody.map fun body =>
    .obj [("type", .string "response"), ("seq", .int 0), ("request_seq", .int 0),
      ("success", .bool true), ("command", .string "initialize"), ("body", body)]).toList
    ++ c.initialized.toList ++ c.lastStopped.toList

end LateJoinCache

end DappyCore.Cache
