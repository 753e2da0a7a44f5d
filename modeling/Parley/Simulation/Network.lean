import Parley.Simulation.Binding
import Parley.Simulation.Run
import Parley.Tls.ServerName

/-!
# Servers and clients

The operations of servers and clients by name, on a virtual network.
-/

namespace Parley.Simulation.Network
variable {m : Type → Type} {ε : Type} [Monad m]

open Sim

/-- How long a caller waits for an answer, in milliseconds. -/
def patience : Nat := 8000

def put {α : Type} (name : String) (a : α) (l : List (String × α)) : List (String × α) :=
  if l.any (·.1 == name) then l.map fun e => if e.1 == name then (name, a) else e
  else l ++ [(name, a)]

def without {α : Type} (name : String) (l : List (String × α)) : List (String × α) :=
  l.filter (·.1 != name)

def host? (name : String) : Sim m ε (Option (Nat × Host m ε)) := do
  let w ← get
  return do
    let h ← w.servers.lookup name
    let host ← w.hosts[h]?
    return (h, host)

def closeDown (h : Nat) : Sim m ε Unit := do
  modifyServer h Server.raise
  let visits := (← get).visits
  for v in [0:visits.size] do
    if visits[v]?.any fun visit => visit.host = h && !visit.ended then endVisit v
  let w ← get
  for i in (w.hosts[h]?.map (·.server.registry.snapshot)).getD [] do
    act_ i Connection.close

def vacate (h : Nat) : Sim m ε Bool := do
  let w ← get
  let listening := w.hosts[h]?.any (·.server.vacate.1.isSome)
  modifyServer h (·.vacate.2)
  return listening

def dropServer (name : String) : Sim m ε Unit := do
  if let some (h, _) ← host? name then
    if ← vacate h then closeDown h
    modify fun w => { w with servers := without name w.servers }

def makeServer (name : String) (settings : Tls.Settings.Of m) : Sim m ε Unit := do
  dropServer name
  modify fun w => { w with
    servers := put name w.hosts.size w.servers
    hosts := w.hosts.push { settings } }

def setHost (h : Nat) (f : Host m ε → Host m ε) : Sim m ε Unit :=
  modify fun w => { w with hosts := w.hosts.modify h f }

def taken (w : World m ε) : List SocketAddress :=
  w.hosts.toList.filterMap (fun h => h.server.running.map (·.address))
    ++ w.decoys.map fun (_, d) => .v4 ⟨127, 0, 0, 1⟩ d.port

def listen (h : Nat) (host : Host m ε) (address : String) :
    Sim m ε (Except Error SocketAddress) := do
  let w ← get
  let result : Except Error (Place m) := do
    if host.server.running.isSome then throw Server.alreadyListening
    let tls ← (host.settings.server w.backend w.disk).mapError (·.toError)
    return ⟨← Binding.bind address (taken w) w.nextPort, tls⟩
  match result with
  | .error e => return .error e
  | .ok place =>
    modifyServer h fun s => s.lower.occupy place
    modify fun w => { w with nextPort := w.nextPort + 1 }
    return .ok place.address

def stop (h : Nat) : Sim m ε Unit := do
  if ← vacate h then
    closeDown h
    let _ ← waitFor Server.patience fun w => w.hosts[h]?.all (·.server.registry.drained)

def connections (w : World m ε) (h : Nat) : List Nat :=
  (w.hosts[h]?.map (·.server.registry.snapshot)).getD []

def client? (name : String) : Sim m ε (Option (Caller m ε)) := return (← get).clients.lookup name

def setClient (name : String) (c : Caller m ε) : Sim m ε Unit :=
  modify fun w => { w with clients := put name c w.clients }

def dropClient (name : String) : Sim m ε Unit := do
  if let some c ← client? name then
    if let some i := c.active then act_ i Connection.close
    modify fun w => { w with clients := without name w.clients }

def makeClient (name : String) (settings : Tls.Settings.Of m) : Sim m ε Unit := do
  dropClient name
  setClient name { settings }

/-- What a client checks before it sets out. -/
def prepare (b : Tls.Backend) (disk : Disk) (settings : Tls.Settings.Of m) (uri : String) :
    Except Error (Dial m) := do
  let target ← Target.parse uri
  if !target.secure then return { target, tls := none }
  let tls ← (settings.client b disk).mapError (·.toError)
  Tls.ServerName.check target.host
  return { target, tls := some tls }

def connect (name : String) (c : Caller m ε) (uri : String) : Sim m ε (Except Error Unit) := do
  let w ← get
  match c.release (stateOf w) with
  | .error e => return .error e
  | .ok c =>
    let (prepared, c) := c.launch (prepare w.backend w.disk c.settings uri) w.cells.size
    setClient name c
    match prepared with
    | .error e => return .error e
    | .ok d =>
      let i ← addCell { connection := c.fresh, socket := .dial d }
      spawn (.drive i)
      return .ok ()

def portOf (w : World m ε) (name : String) : Nat :=
  let server := do (← w.hosts[← w.servers.lookup name]?).server.running
  match server, w.decoys.lookup name with
  | some place, _ => place.address.port
  | none, some d => d.port
  | none, none => 1

def isOver (w : World m ε) (i : Nat) : Bool :=
  w.cells[i]?.all fun c => match c.socket with
    | .gone => true
    | _ => false

def closeClient (c : Caller m ε) : Sim m ε Unit := do
  if let some i := c.active then
    act_ i Connection.close
    let _ ← waitFor endless fun w => isOver w i

def waitState (i : Nat) (p : Lifecycle → Bool) : Sim m ε (Option Lifecycle) := do
  if ← waitFor patience fun w => p (stateOf w i) then return some (stateOf (← get) i)
  return none

def request (i : Nat) (body : Bytes) : Sim m ε (Option (Except Error Reply)) := do
  let key ← startCall i body none
  let _ ← waitFor patience fun w => w.results.any (·.1 == key)
  let w ← get
  set { w with calls := w.calls.filter (·.key != key) }
  return w.results.lookup key

end Parley.Simulation.Network
