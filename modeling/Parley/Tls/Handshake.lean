import Parley.Tls.Context

/-!
# Handshakes

Whether a client and a server come to an agreement. The client looks at the server's chain first;
then the server, if it asks for a certificate, looks at the client's.
-/

namespace Parley.Tls

namespace Verifier
variable {m : Type → Type} [Monad m]

def accepts (b : Backend) (v : Verifier m) (purpose : Trust.Path.Purpose) (presented : List Bytes)
    (clock : Moment) (now : Nat) : m Bool := do
  match presented with
  | [] => return false
  | leaf :: intermediates =>
    return (← v.decide b purpose leaf intermediates clock now).result.toBool

end Verifier

def ClientContext.trusts {m : Type → Type} [Monad m] (b : Backend) (c : ClientContext m)
    (chain : List Bytes) (clock : Moment) (now : Nat) : m Bool :=
  match c.verifier with
  | some v => v.accepts b .server chain clock now
  | none => return true

/-- Without a verifier any client is admitted, with one none that shows no certificate. -/
def ServerContext.admits {m : Type → Type} [Monad m] (b : Backend) (s : ServerContext m)
    (shown : Option Identity) (clock : Moment) (now : Nat) : m Bool :=
  match s.verifier, shown with
  | none, _ => return true
  | some v, some i => v.accepts b .client i.chain clock now
  | some _, none => return false

def handshake {m : Type → Type} [Monad m] (b : Backend) (client : ClientContext m)
    (server : ServerContext m) (clock : Moment) (now : Nat) : m Bool := do
  if ← client.trusts b server.identity.chain clock now then
    server.admits b client.identity clock now
  else return false

def mayBeRecord (arrived : Bytes) : Bool :=
  let size := Bytes.toNat ((arrived.drop 3).take 2)
  arrived.head?.all (fun b => 20 ≤ b && b ≤ 24) && arrived[1]?.all (· == 3)
    && (arrived.length < 5 || (arrived.length < size + 5 && size ≤ 16384 + 2048 && 0 < size))

end Parley.Tls
