import DappyCore.Json
import DappyCore.Lib.Hex
import DappyCore.Lib.Text
import DappyCore.Transport

/-!
Memory of the debuggee as text: the hexadecimal input of `writeMemory`, and the dump of what
`readMemory` returns.
-/

namespace DappyCore.Memory

open Lib Lib.Text Json Transport

def maxWriteBytes : ℕ := 1 <<< 20

/-! ### Input -/

/-- The loop over the pairs of bytes from these offsets on. Slicing within a character panics. -/
def hexBytes (data : List Char) : List ℕ → List UInt8 → Option (Except String (List UInt8))
  | [], out => some (.ok out)
  | idx :: rest, out =>
    match slice data idx (idx + 2) with
    | none => none
    | some pair =>
      match Hex.fromStr 255 pair with
      | none => some (.error ("invalid hex byte '" ++ String.ofList pair ++ "'"))
      | some byte => hexBytes data rest (out ++ [UInt8.ofNat byte])

/-- Parse a user-provided hex string into raw bytes for writeMemory. -/
def hexStringToBytes (data : List Char) : Option (Except String (List UInt8)) :=
  let data := trim data
  if data = [] then some (.error "data must not be empty")
  else if size data % 2 ≠ 0 then some (.error "hex data must have an even number of characters")
  else
    match hexBytes data ((List.range (size data / 2)).map (2 * ·)) [] with
    | some (.ok out) =>
      if maxWriteBytes < out.length then
        some (.error ("write payload " ++ toString out.length ++ " bytes exceeds maximum of " ++
          toString maxWriteBytes ++ " bytes"))
      else some (.ok out)
    | ended => ended

/-! ### The dump -/

def parseAddress (s : List Char) : Option UInt64 :=
  match (['0', 'x'].isPrefixOf? s).or (['0', 'X'].isPrefixOf? s) with
  | some rest => (Hex.fromStr 0xffffffffffffffff rest).map UInt64.ofNat
  | none => (parseUsize s).map UInt64.ofNat

/-- `chunks(16)`. -/
def chunks (data : List UInt8) : List (List UInt8) :=
  (List.range ((data.length + 15) / 16)).map fun i => (data.drop (16 * i)).take 16

def label (baseAddr : Option UInt64) (i : ℕ) : List Char :=
  match baseAddr with
  | some base =>
    let addr := base + UInt64.ofNat (i * 16)
    "0x".toList ++ (Hex.padded 16 addr.toNat ++ ": ".toList)
  | none => "+0x".toList ++ (Hex.padded 8 (i * 16) ++ ":        ".toList)

/-- The gap in the middle of a row. -/
def gap (j : ℕ) : List Char := if j = 8 then [' '] else []

def byteColumns (chunk : List UInt8) : List Char :=
  chunk.zipIdx.flatMap fun (byte, j) => gap j ++ (Hex.padded 2 byte.toNat ++ [' '])

def paddingColumns (length : ℕ) : List Char :=
  (List.range' length (16 - length)).flatMap fun j => gap j ++ "   ".toList

/-- The character for a byte: `.` unless it is a blank or a graphic one. -/
def asciiChar (byte : UInt8) : Char :=
  if 32 ≤ byte.toNat ∧ byte.toNat ≤ 126 then Char.ofNat byte.toNat else '.'

def row (baseAddr : Option UInt64) (i : ℕ) (chunk : List UInt8) : List Char :=
  label baseAddr i ++ (byteColumns chunk ++ (paddingColumns chunk.length ++
    (' ' :: chunk.map asciiChar)))

/-- Format a readMemory response body as a hex dump with ASCII sidebar. `decode` is base64's. -/
def formatMemoryRead (decode : String → Option (List UInt8)) (body : Value) :
    Except String (List Char) :=
  let address := (((body.get "address").bind Value.asStr).getD "?").toList
  let unreadableBytes := (body.get "unreadableBytes").bind Value.asI64
  match (body.get "data").bind Value.asStr with
  | none =>
    match unreadableBytes with
    | some n =>
      .ok ("Address: ".toList ++ (address ++ ('\n' :: ((toString n).toList ++
        " byte(s) unreadable.".toList))))
    | none => .ok ("Address: ".toList ++ (address ++ "\nNo data returned.".toList))
  | some b64 =>
    match decode b64 with
    | none => .error ("decode memory data at " ++ String.ofList address)
    | some data =>
      let header := "Memory at ".toList ++ (address ++ (" (".toList ++
        ((toString data.length).toList ++ " bytes):\n".toList)))
      let unreadable := match unreadableBytes with
        | some n => '(' :: ((toString n).toList ++ " byte(s) unreadable)\n".toList)
        | none => []
      .ok (header ++ (unreadable ++ (chunks data).zipIdx.flatMap fun (chunk, i) =>
        row (parseAddress address) i chunk ++ ['\n']))

end DappyCore.Memory
