import Parley.Connection.Basic
import Parley.Connection.Reply

/-!
# Inbound frames

What a frame from the peer does to a connection, and what work it starts. The work runs elsewhere,
so a frame can neither block nor fail the reader.
-/

namespace Parley

inductive Dispatch (ω ι κ : Type) where
  | inform (handler : ι) (body : Bytes)
  | serve (handler : κ) (id : UInt32) (body : Bytes)
  | conclude (waiter : ω) (reply : Reply)
deriving Repr

namespace Connection
variable {ω ι κ : Type}

def conclude (c : Connection ω ι κ) (id : UInt32) (reply : Reply) :
    Option (Dispatch ω ι κ) × Connection ω ι κ :=
  match c.pending.take id.toNat with
  | some (waiter, pending) => (some (.conclude waiter reply), { c with pending })
  | none => (none, c)

/-- A request without a handler is answered at once. -/
def dispatch (c : Connection ω ι κ) (e : Envelope) : Option (Dispatch ω ι κ) × Connection ω ι κ :=
  match e.kind with
  | .info => (c.info.map (.inform · e.body), c)
  | .request =>
    match c.request with
    | some handler => (some (.serve handler e.id e.body), c)
    | none => (none, c.answer ((Outcome.failed Outcome.noHandler).envelope e.id))
  | .response => c.conclude e.id (.ok e.body)
  | .requestError => c.conclude e.id (.failed e.body)

/-- Takes a frame in; one that is no envelope is dropped. -/
def receive (c : Connection ω ι κ) (frame : Bytes) : Option (Dispatch ω ι κ) × Connection ω ι κ :=
  match Envelope.decode frame with
  | .ok e => c.dispatch e
  | .error _ => (none, c)

end Connection
end Parley
