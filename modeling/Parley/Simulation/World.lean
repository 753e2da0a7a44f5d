import Parley.Address
import Parley.Client
import Parley.Pump
import Parley.Server
import Parley.Simulation.Handler
import Parley.Simulation.Schedule
import Parley.Tls.Elliptic
import Parley.Tls.Handshake
import Parley.WebSocket.Endpoint
import Parley.WebSocket.Upgrade

/-!
# The simulated world

Connections with whatever is at their other end, on virtual time: a queue that somebody holds, a
socket in memory, or a stream of a virtual network with servers, clients and scripted peers. Events
`ε` go to a log; TLS predicates act in the monad `m`.
-/

namespace Parley.Simulation

structure Memory where
  inbound : List Incoming := []
  written : List Message := []
  broken : Bool := false
  ended : Bool := false
  closed : Bool := false

structure Dial (m : Type → Type) where
  target : Target
  tls : Option (Tls.ClientContext m)
  link : Option Nat := none
  asked : Bool := false
  arrived : Bytes := []

inductive Socket (m : Type → Type) where
  | held
  | memory (s : Memory)
  | dial (d : Dial m)
  | stream (link : Nat) (e : WebSocket.Endpoint)
  | gone

structure Cell (m : Type → Type) (ε : Type) where
  connection : Peer ε
  address : Option String := none
  socket : Socket m := .held
  phase : Option Pump.Phase := none
  owned : Bool := true
  host : Option Nat := none

inductive Side where
  | client | server
deriving DecidableEq, Repr

def Side.other : Side → Side
  | client => server
  | server => client

inductive End where
  | cell (i : Nat)
  | visit (i : Nat)
  | script

structure Pipe where
  bytes : Bytes := []
  ended : Bool := false

structure Link where
  client : End
  server : End
  toClient : Pipe := {}
  toServer : Pipe := {}
  origin : String

structure Visit where
  host : Nat
  link : Nat
  secure : Bool
  arrived : Bytes := []
  ended : Bool := false

structure Place (m : Type → Type) where
  address : SocketAddress
  tls : Option (Tls.ServerContext m)

structure Host (m : Type → Type) (ε : Type) where
  settings : Tls.Settings.Of m
  server : Server (Handler ε) (Handler ε) (Place m) := {}

structure Decoy where
  port : Nat
  waiting : List Nat := []

abbrev Caller (m : Type → Type) (ε : Type) := Client (Tls.Settings.Of m) (Handler ε) (Handler ε)

/-- Number `cell` is the connection that a task is about. -/
inductive Task (ε : Type) where
  | serve (cell : Nat) (h : Handler ε) (id : UInt32) (body : Bytes)
  | start (cell : Nat) (h : Handler ε) (id : Option UInt32) (body : Bytes)
  | go (cell : Nat) (h : Handler ε) (id : UInt32) (body : Bytes)
  | resume (cell : Nat) (id : UInt32) (o : Outcome)
  | reply (cell : Nat) (id : UInt32) (o : Outcome)
  | call (key : Nat) (cell : Nat) (body : Bytes)
  | concluded (key : Nat) (result : Except Error Reply)
  | drive (cell : Nat)
  | timeout (cell : Nat)
  | attend (visit : Nat)

inductive Job (ε : Type) where
  | handle (cell : Nat) (h : Handler ε) (id : Option UInt32) (body : Bytes)
  | conclude (w : Waiter ε) (r : Reply)

/-- A request somebody waits for; without an event its result is kept for whoever asks. -/
structure Call (ε : Type) where
  key : Nat
  cell : Nat
  event : Option (Except Error Reply → ε)

structure World (m : Type → Type) (ε : Type) where
  schedule : Schedule (Task ε) (Job ε) := {}
  cells : Array (Cell m ε) := #[]
  calls : List (Call ε) := []
  results : List (Nat × Except Error Reply) := []
  nextKey : Nat := 0
  log : Array ε := #[]
  online : Bool := false
  disk : Disk := fun _ => .error .missing
  backend : Tls.Backend := .elliptic
  clock : Moment := ⟨0, 0⟩
  links : Array Link := #[]
  visits : Array Visit := #[]
  hosts : Array (Host m ε) := #[]
  servers : List (String × Nat) := []
  clients : List (String × Caller m ε) := []
  decoys : List (String × Decoy) := []
  scripts : List (String × Nat × Side) := []
  nextPort : Nat := 49152

abbrev Sim (m : Type → Type) (ε : Type) := StateT (World m ε) m

namespace Sim
variable {m : Type → Type} {ε : Type} [Monad m]

def note (e : ε) : Sim m ε Unit := modify fun w => { w with log := w.log.push e }

def takeLog : Sim m ε (List ε) := modifyGet fun w => (w.log.toList, { w with log := #[] })

def now : Sim m ε Nat := return (← get).schedule.now

def spawn (t : Task ε) : Sim m ε Unit :=
  modify fun w => { w with schedule := w.schedule.spawn t }

def block (j : Job ε) : Sim m ε Unit :=
  modify fun w => { w with schedule := w.schedule.block j }

def after (delay : Nat) (t : Task ε) : Sim m ε Unit :=
  modify fun w => { w with schedule := w.schedule.after delay t }

def cell? (i : Nat) : Sim m ε (Option (Cell m ε)) := return (← get).cells[i]?

def addCell (c : Cell m ε) : Sim m ε Nat :=
  modifyGet fun w => (w.cells.size, { w with cells := w.cells.push c })

def setPeer (i : Nat) (c : Peer ε) : Sim m ε Unit :=
  modify fun w => { w with cells := w.cells.modify i fun cell => { cell with connection := c } }

def setSocket (i : Nat) (s : Socket m) : Sim m ε Unit :=
  modify fun w => { w with cells := w.cells.modify i fun cell => { cell with socket := s } }

def stateOf (w : World m ε) (i : Nat) : Lifecycle :=
  (w.cells[i]?.map (·.connection.state)).getD .closed

/-- Something keeps the connection: its owner, a pump, or a call under way. -/
def lives (w : World m ε) (i : Nat) : Bool :=
  w.cells[i]?.any (fun c => c.owned || c.phase.any (· != .done)) || w.calls.any (·.cell == i)

/-- Calls whose waiters are dropped come to an end; other waiters just go. -/
def drop (waiters : List (Waiter ε)) : Sim m ε Unit :=
  waiters.forM fun
    | .note _ => return
    | .call key => spawn (.concluded key (.error closedBeforeResponse))

/-- Acts on a connection and lets its driver look at what came of it. -/
def act (i : Nat) (f : Peer ε → α × Peer ε) : Sim m ε (Option α) := do
  match ← cell? i with
  | none => return none
  | some c =>
    let (a, peer) := f c.connection
    setPeer i peer
    spawn (.drive i)
    return some a

def act_ (i : Nat) (f : Peer ε → Peer ε) : Sim m ε Unit := do
  let _ ← act i fun c => ((), f c)

def markClosed (i : Nat) : Sim m ε Unit := do
  drop ((← act i Connection.markClosed).getD [])

end Sim
end Parley.Simulation
