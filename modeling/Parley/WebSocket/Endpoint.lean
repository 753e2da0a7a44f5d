import Parley.Pump
import Parley.WebSocket.Frame

/-!
# WebSocket endpoints

One side of a WebSocket: frames in, messages out, and the other way round. A ping is answered with a
pong and a close with a close; such an answer waits until the next read or write. What breaks the
protocol ends the reading and is not answered.
-/

namespace Parley.WebSocket

inductive Role where
  | client | server
deriving DecidableEq, Repr

inductive Closing where
  | active
  | byUs
  | byPeer
  | acknowledged
  | terminated
deriving DecidableEq, Repr

structure Endpoint where
  role : Role
  closing : Closing := .active
  arrived : Bytes := []
  begun : Option (Bool × Bytes) := none
  answer : Option Frame := none
deriving DecidableEq, Repr

def maskingKey : Bytes := [0, 0, 0, 0]

def maxMessage : Nat := 64 <<< 20

def isCloseCode (n : Nat) : Bool :=
  (1000 ≤ n && n ≤ 1003) || (1007 ≤ n && n ≤ 1013) || (3000 ≤ n && n ≤ 4999)

def closeAnswer? (payload : Bytes) : Option Bytes :=
  match payload with
  | [] => some []
  | [_] => none
  | a :: b :: reason =>
    if (String.fromUTF8? ⟨reason.toArray⟩).isNone then none
    else if isCloseCode (Bytes.toNat [a, b]) then some payload
    else some (Bytes.ofNat 2 1002 ++ Bytes.ofString "Protocol violation")

namespace Endpoint

def canRead (e : Endpoint) : Bool := e.closing = .active || e.closing = .byUs

def encode (e : Endpoint) (opcode : Nat) (payload : Bytes) : Bytes :=
  let mask := if e.role = .client then some maskingKey else none
  let shown := match mask with
    | some key => Frame.masked key payload
    | none => payload
  Frame.encode { opcode, mask, payload := shown }

/-- Keeps an answer for later. A pong gives way to whatever comes after it, a close to nothing. -/
def owe (e : Endpoint) (opcode : Nat) (payload : Bytes) : Endpoint :=
  if e.answer.all (·.opcode == Frame.pong) then { e with answer := some { opcode, payload } } else e

def flush (e : Endpoint) : Bytes × Endpoint :=
  match e.answer with
  | some f => (e.encode f.opcode f.payload, { e with answer := none })
  | none => ([], e)

def write (e : Endpoint) : Message → Bytes × Endpoint
  | .data bytes =>
    let sent := e.encode Frame.binary bytes
    let (owed, e) := e.flush
    (sent ++ owed, e)
  | .close =>
    let (sent, e) := if e.closing = .active then
        (e.encode Frame.close [], { e with closing := .byUs })
      else ([], e)
    let (owed, e) := e.flush
    (sent ++ owed, e)

def complete (isText : Bool) (bytes : Bytes) : Incoming :=
  if isText && (String.fromUTF8? ⟨bytes.toArray⟩).isNone then .failure else .data bytes

def onClose (e : Endpoint) (payload : Bytes) : Incoming × Endpoint :=
  match closeAnswer? payload with
  | none => (.failure, e)
  | some answer =>
    match e.closing with
    | .active => (.close, { e with closing := .byPeer }.owe Frame.close answer)
    | .byUs => (.close, { e with closing := .acknowledged })
    | _ => (.control, e)

def onControl (e : Endpoint) (f : Frame) : Incoming × Endpoint :=
  if !f.final || 125 < f.payload.length then (.failure, e)
  else if f.opcode = Frame.close then e.onClose f.payload
  else if f.opcode = Frame.ping && e.closing = .active then (.control, e.owe Frame.pong f.payload)
  else (.control, e)

/-- Adds a frame to the message it belongs to; gives the message with its last frame. -/
def onData (e : Endpoint) (f : Frame) : Option Incoming × Endpoint :=
  let start? := match e.begun with
    | some begun => if f.opcode = Frame.continuation then some begun else none
    | none => if f.opcode = Frame.continuation then none else some (f.opcode == Frame.text, [])
  match start? with
  | none => (some .failure, e)
  | some (isText, soFar) =>
    let bytes := soFar ++ f.payload
    if maxMessage < bytes.length then (some .failure, e)
    else if f.final then (some (complete isText bytes), { e with begun := none })
    else (none, { e with begun := some (isText, bytes) })

def onFrame (e : Endpoint) (f : Frame) : Option Incoming × Endpoint :=
  if !e.canRead || f.reserved != 0 || f.mask.isSome != (e.role = .server) then (some .failure, e)
  else
    let f := { f with payload := f.content }
    if 8 ≤ f.opcode then
      let (m, e) := e.onControl f
      (some m, e)
    else e.onData f

/-- Reads frames until they make up something, at most `limit` of them. At the end of the stream
that is the end of the socket, a clean one only after a close. -/
def frames (ended : Bool) : (limit : Nat) → Endpoint → Option Incoming × Endpoint
  | 0, e => (none, e)
  | limit + 1, e =>
    match Frame.decode e.arrived with
    | .error _ => (some .failure, e)
    | .ok none =>
      if !ended then (none, e)
      else if e.closing = .byPeer || e.closing = .acknowledged then
        (some .ended, { e with closing := .terminated })
      else (some .failure, { e with closing := .terminated })
    | .ok (some (f, rest)) =>
      match { e with arrived := rest }.onFrame f with
      | (some m, e) => (some m, e)
      | (none, e) => frames ended limit e

/-- The next message, if it has arrived, with what has to be sent for that. A server is done with a
socket once a close went in both directions. -/
def read (e : Endpoint) (ended : Bool) : Option Incoming × Bytes × Endpoint :=
  let (sent, e) := e.flush
  if e.role = .server && !e.canRead then (some .ended, sent, { e with closing := .terminated })
  else
    let (m, e) := e.frames ended (e.arrived.length + 1)
    (m, sent, e)

end Endpoint
end Parley.WebSocket
