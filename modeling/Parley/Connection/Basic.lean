import Parley.Connection.Lifecycle
import Parley.Envelope
import Parley.Text.Quoted
import Parley.Token.Store

/-!
# Connections

One side of a conversation with a peer: its lifecycle, the requests that wait for a reply, the
installed handlers, and the queue of commands for whoever owns the socket. Nothing here blocks; a
connection only ever puts commands on its queue.
-/

namespace Parley

inductive Command where
  | frame (bytes : Bytes)
  | close
deriving DecidableEq, Repr

/-- Waiters `ω` stand for what runs when a reply comes, `ι` and `κ` for handlers of infos and of
requests. -/
structure Connection (ω ι κ : Type) where
  state : Lifecycle
  pending : Token.Store (.word 32) ω := .empty
  info : Option ι := none
  request : Option κ := none
  queue : List Command := []
  attended : Bool := true

namespace Connection
variable {ω ι κ : Type}

instance : Inhabited (Connection ω ι κ) := ⟨⟨.connecting, .empty, none, none, [], true⟩⟩

/-- Queues a command; without anyone to take it the command is lost. -/
def post (c : Connection ω ι κ) (command : Command) : Connection ω ι κ :=
  if c.attended then { c with queue := c.queue ++ [command] } else c

def close (c : Connection ω ι κ) : Connection ω ι κ :=
  match c.state with
  | .connecting | .opened => { c with state := .closing }.post .close
  | .closing | .closed => c

/-- The handshake is through. False when a close was asked for meanwhile. -/
def markOpen (c : Connection ω ι κ) : Bool × Connection ω ι κ :=
  if c.state = .connecting then (true, { c with state := .opened }) else (false, c)

def markClosing (c : Connection ω ι κ) : Connection ω ι κ :=
  if c.state = .opened then { c with state := .closing } else c

/-- The first half of `markClosed`: from here on nothing can be sent. -/
def shut (c : Connection ω ι κ) : Connection ω ι κ := { c with state := .closed }

/-- The second half of `markClosed`: no reply will come any more. -/
def drain (c : Connection ω ι κ) : List ω × Connection ω ι κ :=
  let (dropped, pending) := c.pending.drain
  (dropped.map (·.2), { c with pending })

/-- The socket is gone. Gives the waiters that are dropped, in the order of their tokens. -/
def markClosed (c : Connection ω ι κ) : List ω × Connection ω ι κ := c.shut.drain

def abandon (c : Connection ω ι κ) : Connection ω ι κ := { c with queue := [], attended := false }

def transmit (c : Connection ω ι κ) (frame : Bytes) : Except Error (Connection ω ι κ) :=
  if c.state = .opened ∧ c.attended = true then .ok (c.post (.frame frame))
  else .error .notConnected

def register (c : Connection ω ι κ) (waiter : ω) : Except Error (UInt32 × Connection ω ι κ) := do
  let (token, pending) ← c.pending.add waiter
  return (UInt32.ofNat token, { c with pending })

def withdraw (c : Connection ω ι κ) (token : UInt32) : Connection ω ι κ :=
  { c with pending := c.pending.erase token.toNat }

/-- Sends a request. The waiter is kept before the frame is queued, so that no reply can come too
early, and is taken back if the frame cannot be queued. -/
def sendRequest (c : Connection ω ι κ) (body : Bytes) (waiter : ω) :
    Except Error Unit × Connection ω ι κ :=
  if c.state ≠ .opened then (.error .notConnected, c)
  else
    match c.register waiter with
    | .error e => (.error e, c)
    | .ok (token, kept) =>
      match kept.transmit (Envelope.request token body).encode with
      | .ok sent => (.ok (), sent)
      | .error e => (.error e, kept.withdraw token)

def sendInfo (c : Connection ω ι κ) (body : Bytes) : Except Error Unit × Connection ω ι κ :=
  match c.transmit (Envelope.info body).encode with
  | .ok sent => (.ok (), sent)
  | .error e => (.error e, c)

def answer (c : Connection ω ι κ) (e : Envelope) : Connection ω ι κ := c.post (.frame e.encode)

def idText (id : Nat) : String := s!"conn-{id}"

def handleText (id : Option Nat) : String :=
  "ConnectionRef(" ++ (id.map idText).getD "<gone>" ++ ")"

def inspect (c : Connection ω ι κ) (id : Nat) (peer : Option String) : String :=
  s!"Connection \x7b id: ConnectionId({id}), peer: " ++ Text.Quoted.optional peer
    ++ ", state: " ++ c.state.name.capitalize ++ s!", pending: {c.pending.size} \x7d"

end Connection
end Parley
