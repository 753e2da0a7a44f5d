import Parley.Simulation.Work

/-!
# Streams and pumps

Octets between the two ends of a stream, and the pump of a connection on whatever socket it has.
-/

namespace Parley.Simulation

namespace Link

def reader (l : Link) : Side → End
  | .client => l.client
  | .server => l.server

def toward (l : Link) : Side → Pipe
  | .client => l.toClient
  | .server => l.toServer

def setToward (l : Link) (side : Side) (p : Pipe) : Link :=
  match side with
  | .client => { l with toClient := p }
  | .server => { l with toServer := p }

def setReader (l : Link) (side : Side) (e : End) : Link :=
  match side with
  | .client => { l with client := e }
  | .server => { l with server := e }

end Link

namespace Sim
variable {m : Type → Type} {ε : Type} [Monad m]

def modifyLink (k : Nat) (f : Link → Link) : Sim m ε Unit :=
  modify fun w => { w with links := w.links.modify k f }

def link? (k : Nat) : Sim m ε (Option Link) := return (← get).links[k]?

def wake (k : Nat) (side : Side) : Sim m ε Unit := do
  match ← link? k with
  | none => return
  | some l =>
    match l.reader side with
    | .cell i => spawn (.drive i)
    | .visit v => spawn (.attend v)
    | .script => return

def send (k : Nat) (from_ : Side) (bytes : Bytes) : Sim m ε Unit := do
  unless bytes.isEmpty do
    modifyLink k fun l =>
      let p := l.toward from_.other
      if p.ended then l else l.setToward from_.other { p with bytes := p.bytes ++ bytes }
    wake k from_.other

def take (k : Nat) (side : Side) : Sim m ε (Bytes × Bool) := do
  match ← link? k with
  | none => return ([], true)
  | some l =>
    let p := l.toward side
    modifyLink k fun l => l.setToward side { p with bytes := [] }
    return (p.bytes, p.ended)

def hangUp (k : Nat) (side : Side) : Sim m ε Unit := do
  modifyLink k fun l => l.setToward side.other { l.toward side.other with ended := true }
  wake k side.other

def sideOf : WebSocket.Role → Side
  | .client => .client
  | .server => .server

def socket (i : Nat) : Sim m ε (Socket m) := do
  return ((← cell? i).map (·.socket)).getD .gone

def write (i : Nat) (message : Message) : Sim m ε Bool := do
  match ← socket i with
  | .memory s =>
    if s.broken then return false
    setSocket i (.memory { s with written := s.written ++ [message] })
    return true
  | .stream k e =>
    let (bytes, e') := e.write message
    setSocket i (.stream k e')
    send k (sideOf e.role) bytes
    return true
  | _ => return false

def next (i : Nat) : Sim m ε (Option Incoming) := do
  match ← socket i with
  | .memory s =>
    match s.inbound with
    | [] => return none
    | message :: rest =>
      setSocket i (.memory { s with inbound := rest })
      return some message
  | .stream k e =>
    let (bytes, ended) ← take k (sideOf e.role)
    let (message, answer, e') := { e with arrived := e.arrived ++ bytes }.read ended
    setSocket i (.stream k e')
    send k (sideOf e.role) answer
    return message
  | _ => return none

def shutSocket (i : Nat) : Sim m ε Unit := do
  match ← cell? i with
  | none => return
  | some c =>
    match c.socket with
    | .memory s => setSocket i (.memory { s with closed := true })
    | .stream k e =>
      let (bytes, _) := e.write .close
      send k (sideOf e.role) bytes
      setSocket i .gone
      hangUp k (sideOf e.role)
    | _ => return
    if let some h := c.host then
      modify fun w => { w with hosts := w.hosts.modify h fun host =>
        { host with server := host.server.leave i } }

/-- What a pump would turn to now. A command goes before a message. -/
def turn? (i : Nat) (c : Cell m ε) (phase : Pump.Phase) : Sim m ε (Option Pump.Turn) := do
  match phase, c.connection.queue with
  | .running, .frame bytes :: _ => return some (.command (← write i (.data bytes)))
  | .running, .close :: _ => return some (.command (← write i .close))
  | .done, _ => return none
  | _, _ => return (← next i).map .incoming

def takeTurn (i : Nat) (c : Cell m ε) (phase : Pump.Phase) (t : Pump.Turn) : Sim m ε Unit := do
  let r := Pump.step phase c.connection t
  modify fun w => { w with cells := w.cells.modify i fun cell =>
    { cell with connection := r.connection, phase := some r.phase } }
  if let some d := r.dispatch then dispatch i d
  if phase != .draining && r.phase = .draining then after Pump.patience (.timeout i)
  if r.phase = .done then shutSocket i
  drop r.dropped

def pump (i : Nat) : (limit : Nat) → Sim m ε Unit
  | 0 => spawn (.drive i)
  | limit + 1 => do
    match ← cell? i with
    | none => return
    | some c =>
      match c.phase with
      | none => return
      | some phase =>
        match ← turn? i c phase with
        | none => return
        | some t =>
          takeTurn i c phase t
          pump i limit

def budget : Nat := 128

def timeout (i : Nat) : Sim m ε Unit := do
  match ← cell? i with
  | some c => if c.phase = some .draining then takeTurn i c .draining .timeout
  | none => return

end Sim
end Parley.Simulation
