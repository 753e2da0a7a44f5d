import Parley.Simulation.Network

/-!
# Scripted peers

Streams whose other end is written and read octet by octet: to a server, or from a client to a
decoy.
-/

namespace Parley.Simulation.Script
variable {m : Type → Type} {ε : Type} [Monad m]

open Sim Network

def makeDecoy (name : String) : Sim m ε Unit :=
  modify fun w => { w with
    decoys := put name { port := w.nextPort } w.decoys, nextPort := w.nextPort + 1 }

def side? (name : String) : Sim m ε (Option (Nat × Side)) := return (← get).scripts.lookup name

def keep (name : String) (link : Nat) (side : Side) : Sim m ε Unit :=
  modify fun w => { w with scripts := put name (link, side) w.scripts }

def dial (name : String) (h : Nat) : Sim m ε Bool := do
  let w ← get
  match w.hosts[h]?.bind (·.server.running) with
  | none => return false
  | some place =>
    let origin := if place.address.isV6 then "::1" else "127.0.0.1"
    keep name (← visit h .script origin place.tls.isSome) .client
    return true

def accept (name decoy : String) : Sim m ε Bool := do
  let w ← get
  match w.decoys.lookup decoy with
  | some { port, waiting := k :: rest } =>
    modify fun w => { w with decoys := put decoy { port, waiting := rest } w.decoys }
    keep name k .server
    return true
  | _ => return false

def write (name : String) (bytes : Bytes) : Sim m ε Unit := do
  if let some (k, side) ← side? name then send k side bytes

def read (name : String) : Sim m ε (Bytes × Bool) := do
  match ← side? name with
  | some (k, side) => take k side
  | none => return ([], true)

def drop (name : String) : Sim m ε Unit := do
  if let some (k, side) ← side? name then
    hangUp k side
    modify fun w => { w with scripts := without name w.scripts }

def frames : (limit : Nat) → Bytes → List WebSocket.Frame
  | 0, _ => []
  | limit + 1, b =>
    match WebSocket.Frame.header? b with
    | none => []
    | some (f, size, rest) =>
      { f with payload := rest.take size } :: frames limit (rest.drop size)

def page (b : Bytes) : String × List (String × String) × String :=
  match (Text.Utf8.lossy b).splitOn "\r\n\r\n" with
  | [] => ("", [], "")
  | head :: rest =>
    let lines := head.splitOn "\r\n"
    let field (l : String) : String × String :=
      match l.splitOn ": " with
      | [] => ("", "")
      | name :: value => (Http.lower name, ": ".intercalate value)
    (lines.headD "", (lines.drop 1).map field, "\r\n\r\n".intercalate rest)

def agreement (key : String) : Bytes :=
  (WebSocket.Upgrade.accepted (Bytes.ofString key)).encode

def filled (text key : String) : String :=
  (Http.ascii (WebSocket.acceptance (Bytes.ofString key))).intercalate (text.splitOn "@ACCEPT@")

end Parley.Simulation.Script
