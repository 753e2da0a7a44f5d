import Parley.Simulation.Run

/-!
# One connection

A connection by itself, with its queue held by hand or a socket in memory.
-/

namespace Parley.Simulation.Solo
variable {m : Type → Type} {ε : Type} [Monad m]

open Sim

def world (c : Peer ε) (address : Option String) (socket : Bool) : World m ε where
  cells := #[if socket then
      { connection := c, address, socket := .memory {}, phase := some .running }
    else { connection := c, address }]

def owned? : Sim m ε (Option (Cell m ε)) := return (← cell? 0).filter (·.owned)

def peer? : Sim m ε (Option (Peer ε)) := return (← cell? 0).map (·.connection)

def isAlive : Sim m ε Bool := return lives (← get) 0

def release : Sim m ε Unit :=
  modify fun w => { w with cells := w.cells.modify 0 fun c => { c with owned := false } }

def patience : Nat := 1

def waitState (p : Lifecycle → Bool) : Sim m ε Bool :=
  waitFor patience fun w => p (stateOf w 0)

def state : Sim m ε Lifecycle := return stateOf (← get) 0

def memory? : Sim m ε (Option Memory) := do
  match ← socket 0 with
  | .memory s => return some s
  | _ => return none

def isDone : Sim m ε Bool := return (← cell? 0).any fun c => c.phase.all (· == .done)

def deliver (message : Incoming) : Sim m ε (Option Bool) := do
  match ← memory? with
  | none => return none
  | some s =>
    if s.ended || (← isDone) then return some false
    setSocket 0 (.memory { s with
      inbound := s.inbound ++ [message], ended := message = .ended })
    spawn (.drive 0)
    return some true

def breakWrites : Sim m ε Unit := do
  if let some s ← memory? then setSocket 0 (.memory { s with broken := true })

def takeQueue : Sim m ε (List Command) := do
  let queue := ((← peer?).map (·.queue)).getD []
  act_ 0 fun c => { c with queue := [] }
  return queue

def takeWritten : Sim m ε (List Message) := do
  match ← memory? with
  | none => return []
  | some s =>
    setSocket 0 (.memory { s with written := [] })
    return s.written

end Parley.Simulation.Solo
