import Mathlib.Data.List.DropRight
import DappyCore.Lib.Utf8
import DappyCore.Protocol

/-!
The DAP framing: `write_message`, and `read_message` as a future that is polled on the bytes
that have arrived, takes them, and waits for more in the middle of a header line or of a body.
-/

namespace DappyCore.Transport

open Lib Protocol

def usizeMax : ℕ := 0xffffffffffffffff

/-- The most bytes a vector holds. -/
def isizeMax : ℕ := 0x7fffffffffffffff

/-- A `Vec<u8>`. -/
abbrev Vec := {bytes : List UInt8 // bytes.length ≤ isizeMax}

/-- `serde_json`, on messages. -/
structure Serde where
  toVec : Message → Option Vec
  fromSlice : List UInt8 → Option Message

inductive ProtocolError
  | invalidHeader (text : String)
  | json
  | io
  deriving DecidableEq

/-! ### Writing -/

def lineFeed : UInt8 := 10

def contentLengthName : List Char := "Content-Length:".toList

/-- The header for a body of this many bytes. -/
def header (length : ℕ) : List Char :=
  contentLengthName ++ ' ' :: (Nat.toDigits 10 length ++ ['\r', '\n', '\r', '\n'])

/-- A body with its header. -/
def frame (body : List UInt8) : List UInt8 := Utf8.encode (header body.length) ++ body

/-- The bytes written. -/
def writeMessage (serde : Serde) (message : Message) : Except ProtocolError (List UInt8) :=
  match serde.toVec message with
  | none => .error .json
  | some body => .ok (frame body)

/-! ### A header line -/

/-- `char::is_whitespace`: the characters with the property `White_Space`. -/
def isWhitespace (c : Char) : Bool :=
  (9 ≤ c.toNat ∧ c.toNat ≤ 13) ∨ c.toNat = 0x20 ∨ c.toNat = 0x85 ∨ c.toNat = 0xA0 ∨
    c.toNat = 0x1680 ∨ (0x2000 ≤ c.toNat ∧ c.toNat ≤ 0x200A) ∨ c.toNat = 0x2028 ∨
    c.toNat = 0x2029 ∨ c.toNat = 0x202F ∨ c.toNat = 0x205F ∨ c.toNat = 0x3000

def isLineEnd (c : Char) : Bool := c = '\r' ∨ c = '\n'

/-- `str::trim`. -/
def trim (text : List Char) : List Char := (text.dropWhile isWhitespace).rdropWhile isWhitespace

/-- The digits of a number, which may follow a `+`. -/
def digitsOf : List Char → List Char
  | '+' :: rest => rest
  | text => text

/-- `str::parse::<usize>`. -/
def parseUsize (text : List Char) : Option ℕ :=
  if digitsOf text = [] ∨ ¬ (digitsOf text).all Char.isDigit then none
  else some (Nat.ofDigitChars 10 (digitsOf text) 0) |>.filter (· ≤ usizeMax)

/-- What a header line comes to. -/
inductive HeaderLine
  | blank
  | length (length : ℕ)
  | invalid (error : ProtocolError)

/-- One round of the header loop, on what `read_line` read. -/
def headerLine (lineBuf : List UInt8) : HeaderLine :=
  match Utf8.decode lineBuf with
  | none => .invalid .io
  | some text =>
    let trimmed := text.rdropWhile isLineEnd
    if trimmed = [] then .blank
    else
      match contentLengthName.isPrefixOf? trimmed with
      | none => .invalid (.invalidHeader (String.ofList trimmed))
      | some rest =>
        match parseUsize (trim rest) with
        | none => .invalid (.invalidHeader ("bad Content-Length: " ++ String.ofList trimmed))
        | some length => .length length

/-! ### Reading -/

abbrev ReadResult := Except ProtocolError (Option Message)

/-- Where a call of `read_message` waits: in `read_line`, with what it took of the line, or in
`read_exact`, with what it took of the body. -/
inductive ReadFuture
  | header (contentLength : Option ℕ) (sawHeader : Bool) (lineBuf : List UInt8)
  | body (length : ℕ) (filled : List UInt8)
  deriving DecidableEq

/-- A call that has taken nothing. -/
def ReadFuture.start : ReadFuture := .header none false []

/-- What a poll comes to. -/
inductive Poll
  | ready (result : ReadResult) (rest : List UInt8)
  | pending (future : ReadFuture)
  | panicked

variable (serde : Serde)

def deserialize (body : List UInt8) : ReadResult :=
  match serde.fromSlice body with
  | none => .error .json
  | some message => .ok (some message)

/-- `read_exact`, and the message read. -/
def readBody (eof : Bool) (length : ℕ) (filled input : List UInt8) : Poll :=
  let taken := filled ++ input
  if length ≤ taken.length then .ready (deserialize serde (taken.take length)) (taken.drop length)
  else if eof then .ready (.error .io) []
  else .pending (.body length taken)

/-- After the blank line. A body longer than any vector is a capacity overflow. -/
def startBody (eof : Bool) (contentLength : Option ℕ) (input : List UInt8) : Poll :=
  match contentLength with
  | none => .ready (.error (.invalidHeader "missing Content-Length")) input
  | some length => if isizeMax < length then .panicked else readBody serde eof length [] input

/-- `read_line` reads nothing. -/
def endOfStream (sawHeader : Bool) : Poll :=
  if sawHeader then .ready (.error (.invalidHeader "unexpected eof")) []
  else .ready (.ok none) []

/-- The header loop. A line goes up to a line feed, the last one up to the end of the stream. -/
def readHeader (eof : Bool) :
    Option ℕ → Bool → List UInt8 → List UInt8 → Poll
  | contentLength, sawHeader, lineBuf, [] =>
    if eof then
      if lineBuf = [] then endOfStream sawHeader
      else
        match headerLine lineBuf with
        | .blank => startBody serde eof contentLength []
        | .length _ => endOfStream true
        | .invalid e => .ready (.error e) []
    else .pending (.header contentLength sawHeader lineBuf)
  | contentLength, sawHeader, lineBuf, b :: input =>
    if b = lineFeed then
      match headerLine (lineBuf ++ [b]) with
      | .blank => startBody serde eof contentLength input
      | .length length => readHeader eof (some length) true [] input
      | .invalid e => .ready (.error e) input
    else readHeader eof contentLength sawHeader (lineBuf ++ [b]) input

/-- A poll of a call on the bytes that have arrived, after which there are no more (`eof`) or
there may be. -/
def poll (eof : Bool) : ReadFuture → List UInt8 → Poll
  | .header contentLength sawHeader lineBuf, input =>
    readHeader serde eof contentLength sawHeader lineBuf input
  | .body length filled, input => readBody serde eof length filled input

/-- A call on a stream that is all there. -/
def readMessage (input : List UInt8) : Poll := poll serde true .start input

/-- What so many calls in turn return. -/
def calls : ℕ → List UInt8 → List ReadResult
  | 0, _ => []
  | n + 1, input =>
    match readMessage serde input with
    | .ready result rest => result :: calls n rest
    | _ => []

end DappyCore.Transport
