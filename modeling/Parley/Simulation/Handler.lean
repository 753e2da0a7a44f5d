import Parley.Connection.Inbound

/-!
# Handlers as data

A handler says for each body what it does with the connection the message came on, what it leaves in
the log of events `ε`, and how it ends.
-/

namespace Parley.Simulation

inductive Act (ε : Type) where
  | note (event : ε)
  | sendInfo (body : Bytes) (report : Except Error Unit → ε)
  | sendRequest (body : Bytes) (reply : Reply → ε) (report : Except Error Unit → ε)
  | close

structure Plan (ε : Type) where
  acts : List (Act ε)
  outcome : Outcome

structure Handler (ε : Type) where
  blocking : Bool
  /-- How long a task that answers a request waits first, in milliseconds. -/
  delay : Nat := 0
  plan : Bytes → Plan ε

inductive Waiter (ε : Type) where
  | note (event : Reply → ε)
  | call (key : Nat)

abbrev Peer (ε : Type) := Connection (Waiter ε) (Handler ε) (Handler ε)

def closedBeforeResponse : Error := .transport "connection closed before response"

end Parley.Simulation
