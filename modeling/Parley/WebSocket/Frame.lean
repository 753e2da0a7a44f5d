import Parley.Bytes

/-!
# WebSocket frames

A frame has an opcode, a payload of announced length, and a masking key when a client sends it.
Lengths above 125 and above 65535 take a wider field.
-/

namespace Parley.WebSocket

structure Frame where
  final : Bool := true
  reserved : Nat := 0
  opcode : Nat
  mask : Option Bytes := none
  payload : Bytes
deriving DecidableEq, Repr

namespace Frame

def continuation : Nat := 0
def text : Nat := 1
def binary : Nat := 2
def close : Nat := 8
def ping : Nat := 9
def pong : Nat := 10

def isKnown (opcode : Nat) : Bool := opcode ≤ 2 || (8 ≤ opcode && opcode ≤ 10)

def masked (key payload : Bytes) : Bytes :=
  payload.zipIdx.map fun (b, i) => b ^^^ key.getD (i % 4) 0

def lengthField (flag n : Nat) : Bytes :=
  if n < 126 then [UInt8.ofNat (flag + n)]
  else if n < 65536 then UInt8.ofNat (flag + 126) :: Bytes.ofNat 2 n
  else UInt8.ofNat (flag + 127) :: Bytes.ofNat 8 n

def encode (f : Frame) : Bytes :=
  UInt8.ofNat ((if f.final then 128 else 0) + f.reserved * 16 + f.opcode)
    :: match f.mask with
      | some key => lengthField 128 f.payload.length ++ key ++ masked key f.payload
      | none => lengthField 0 f.payload.length ++ f.payload

inductive Fault where
  | opcode (n : Nat)
  | tooLong (size : Nat)
deriving DecidableEq, Repr

def maxPayload : Nat := 16 <<< 20

def take? (n : Nat) (b : Bytes) : Option (Bytes × Bytes) :=
  if n ≤ b.length then some (b.take n, b.drop n) else none

def header? (b : Bytes) : Option (Frame × Nat × Bytes) :=
  match b with
  | first :: second :: rest => do
    let short := second.toNat % 128
    let width := if short = 126 then 2 else if short = 127 then 8 else 0
    let (length, rest) ← take? width rest
    let isMasked := 128 ≤ second.toNat
    let (key, rest) ← take? (if isMasked then 4 else 0) rest
    let frame : Frame :=
      { final := 128 ≤ first.toNat, reserved := first.toNat / 16 % 8, opcode := first.toNat % 16,
        mask := if isMasked then some key else none, payload := [] }
    return (frame, if width = 0 then short else Bytes.toNat length, rest)
  | _ => none

/-- The first frame of a stream, still masked, and what follows it; nothing before all of it has
arrived. -/
def decode (b : Bytes) : Except Fault (Option (Frame × Bytes)) :=
  match header? b with
  | none => .ok none
  | some (frame, size, rest) =>
    if !isKnown frame.opcode then .error (.opcode frame.opcode)
    else if maxPayload < size then .error (.tooLong size)
    else .ok ((take? size rest).map fun (payload, rest) => ({ frame with payload }, rest))

def content (f : Frame) : Bytes :=
  match f.mask with
  | some key => masked key f.payload
  | none => f.payload

end Frame
end Parley.WebSocket
