import Parley.Simulation.Upgrading

/-!
# Running

Work is done until there is none, and time moves on only then.
-/

namespace Parley.Simulation.Sim
variable {m : Type → Type} {ε : Type} [Monad m]

def runTask : Task ε → Sim m ε Unit
  | .serve i h id body => spawn (.start i h (some id) body)
  | .start i h id body => start i h id body
  | .go i h id body => do spawn (.reply i id (← handle i h body))
  | .resume i id o => spawn (.reply i id o)
  | .reply i id o => reply i id o
  | .call key i body => call key i body
  | .concluded key r => conclude key r
  | .drive i => drive i
  | .timeout i => timeout i
  | .attend v => attend v

/-- The first task, or all blocking jobs if there is no task. False when there is nothing to do. -/
def work : Sim m ε Bool := do
  let w ← get
  match w.schedule.ready, w.schedule.jobs with
  | t :: rest, _ =>
    set { w with schedule := { w.schedule with ready := rest } }
    runTask t
    return true
  | [], [] => return false
  | [], jobs =>
    set { w with schedule := { w.schedule with jobs := [] } }
    jobs.forM runJob
    return true

def endless : Nat := 100000

def quiesce : (limit : Nat) → Sim m ε Unit
  | 0 => return
  | limit + 1 => do if ← work then quiesce limit

def modifySchedule (f : Schedule (Task ε) (Job ε) → Schedule (Task ε) (Job ε)) : Sim m ε Unit :=
  modify fun w => { w with schedule := f w.schedule }

def settle : Sim m ε Unit := do
  modifySchedule Schedule.fire
  quiesce endless

/-- Lets time go by until the condition holds, but not past `deadline`; tells whether it holds. -/
def waitFrom (deadline : Nat) (p : World m ε → Bool) : (limit : Nat) → Sim m ε Bool
  | 0 => return p (← get)
  | limit + 1 => do
    settle
    if p (← get) then return true
    match (← get).schedule.next? deadline with
    | some t =>
      modifySchedule (·.moveTo t)
      waitFrom deadline p limit
    | none =>
      modifySchedule (·.moveTo deadline)
      return false

def waitFor (patience : Nat) (p : World m ε → Bool) : Sim m ε Bool := do
  waitFrom ((← now) + patience) p endless

def advance (ms : Nat) : Sim m ε Unit := do
  let _ ← waitFor ms fun _ => false
  settle

def tick : Sim m ε Unit := do
  settle
  modifySchedule fun s => s.moveTo (s.now + 1)

end Parley.Simulation.Sim
