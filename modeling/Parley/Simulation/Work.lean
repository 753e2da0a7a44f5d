import Parley.Simulation.World

/-!
# Handlers at work

How the work that a frame starts is done: a request handler runs in a task of its own, and another
task turns its end into the reply, so that a panic stays where it is.
-/

namespace Parley.Simulation.Sim
variable {m : Type → Type} {ε : Type} [Monad m]

/-- A handler only has a weak hold on its connection. -/
def weakly (i : Nat) (f : Peer ε → Except Error Unit × Peer ε) : Sim m ε (Except Error Unit) := do
  if lives (← get) i then return (← act i f).getD (.error .notConnected)
  return .error .notConnected

def perform (i : Nat) : Act ε → Sim m ε Unit
  | .note e => note e
  | .sendInfo body report => do note (report (← weakly i fun c => c.sendInfo body))
  | .sendRequest body reply report => do
    note (report (← weakly i fun c => c.sendRequest body (.note reply)))
  | .close => do
    let _ ← weakly i fun c => (.ok (), c.close)

def handle (i : Nat) (h : Handler ε) (body : Bytes) : Sim m ε Outcome := do
  let plan := h.plan body
  plan.acts.forM (perform i)
  return plan.outcome

/-- A handler as a task. Only requests are kept waiting. -/
def start (i : Nat) (h : Handler ε) (id : Option UInt32) (body : Bytes) : Sim m ε Unit := do
  if h.blocking then block (.handle i h id body)
  else
    match id with
    | none => let _ ← handle i h body
    | some id =>
      if h.delay = 0 then spawn (.reply i id (← handle i h body))
      else after h.delay (.go i h id body)

def dispatch (i : Nat) : Dispatch (Waiter ε) (Handler ε) (Handler ε) → Sim m ε Unit
  | .inform h body => spawn (.start i h none body)
  | .serve h id body => spawn (.serve i h id body)
  | .conclude w r => block (.conclude w r)

def receive (i : Nat) (frame : Bytes) : Sim m ε Unit := do
  match ← act i (·.receive frame) with
  | some (some d) => dispatch i d
  | _ => return

def reply (i : Nat) (id : UInt32) (o : Outcome) : Sim m ε Unit := do
  if lives (← get) i then act_ i (·.answer (o.envelope id))

def conclude (key : Nat) (r : Except Error Reply) : Sim m ε Unit := do
  let w ← get
  let (ended, others) := w.calls.partition (·.key == key)
  set { w with calls := others }
  for call in ended do
    match call.event with
    | some event => note (event r)
    | none => modify fun w => { w with results := (key, r) :: w.results }

def call (key i : Nat) (body : Bytes) : Sim m ε Unit := do
  match ← act i (·.sendRequest body (.call key)) with
  | some (.error e) => conclude key (.error e)
  | _ => return

def startCall (i : Nat) (body : Bytes) (event : Option (Except Error Reply → ε)) :
    Sim m ε Nat := do
  let key := (← get).nextKey
  modify fun w => { w with nextKey := key + 1, calls := ⟨key, i, event⟩ :: w.calls }
  spawn (.call key i body)
  return key

def runJob : Job ε → Sim m ε Unit
  | .handle i h id body => do
    let outcome ← handle i h body
    if let some id := id then spawn (.resume i id outcome)
  | .conclude (.note event) r => note (event r)
  | .conclude (.call key) r => spawn (.concluded key (.ok r))

end Parley.Simulation.Sim
