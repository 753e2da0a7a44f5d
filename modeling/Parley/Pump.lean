import Parley.Connection.Inbound

/-!
# Pumps

A pump stands between a connection and its socket: it writes what the connection queues, hands in
every data message that arrives, and marks the connection closed when the socket ends. After a close
of its own it waits for the peer's, for a limited time, and discards all else.

When a command is queued and a message has arrived, either may be taken first; a `Turn` says which.
-/

namespace Parley

inductive Incoming where
  | data (bytes : Bytes)
  | close
  | control
  | failure
  | ended
deriving DecidableEq, Repr

inductive Message where
  | data (bytes : Bytes)
  | close
deriving DecidableEq, Repr

namespace Pump

inductive Phase where
  | running
  | draining
  | done
deriving DecidableEq, Repr

/-- How long a pump waits for the peer's close, in milliseconds. -/
def patience : Nat := 5000

inductive Turn where
  /-- The first command of the queue; `taken` when the socket takes what is written. -/
  | command (taken : Bool)
  | incoming (m : Incoming)
  | timeout
deriving DecidableEq, Repr

structure Result (ω ι κ : Type) where
  phase : Phase
  connection : Connection ω ι κ
  written : Option Message := none
  handed : Option Bytes := none
  dispatch : Option (Dispatch ω ι κ) := none
  dropped : List ω := []

variable {ω ι κ : Type}

def finish (c : Connection ω ι κ) : Result ω ι κ :=
  let (dropped, c) := c.markClosed
  { phase := .done, connection := c.abandon, dropped }

/-- Takes the first command of the queue. A close that cannot be written is waited for all the
same. -/
def command (c : Connection ω ι κ) (taken : Bool) : Result ω ι κ :=
  match c.queue with
  | [] => { phase := .running, connection := c }
  | .frame bytes :: rest =>
    let c := { c with queue := rest }
    if taken then { phase := .running, connection := c, written := some (.data bytes) }
    else finish c
  | .close :: rest =>
    { phase := .draining, connection := { c with queue := rest },
      written := if taken then some .close else none }

def incoming (c : Connection ω ι κ) : Incoming → Result ω ι κ
  | .data bytes =>
    let (dispatch, c) := c.receive bytes
    { phase := .running, connection := c, handed := some bytes, dispatch }
  | .control => { phase := .running, connection := c }
  | .close => finish c.markClosing
  | .failure | .ended => finish c

/-- While a close of our own is waited for, only the end of the socket counts. -/
def discard (c : Connection ω ι κ) : Incoming → Result ω ι κ
  | .data _ | .control => { phase := .draining, connection := c }
  | .close | .failure | .ended => finish c

def step (phase : Phase) (c : Connection ω ι κ) (t : Turn) : Result ω ι κ :=
  match phase, t with
  | .running, .command taken => command c taken
  | .running, .incoming m => incoming c m
  | .draining, .incoming m => discard c m
  | .draining, .timeout => finish c
  | phase, _ => { phase, connection := c }

end Pump
end Parley
