import Parley.Certificate.Basic
import Parley.Tls.HandshakeError

/-!
# Failures of the path check

The path check looks at a chain as a whole. Its failure is pinned to one certificate, by depth; the
leaf is at depth zero.
-/

namespace Parley.Trust

structure Failure where
  reason : String
  unknownIssuer : Bool := false
  depth : Nat := 0
deriving DecidableEq, Repr

def deepestInvalid? (chain : List Certificate) (now : Moment) : Option Nat :=
  (chain.zipIdx.reverse.find? fun (c, _) => !c.isValidAt now).map (·.2)

/-- Pins an error to a certificate of the chain, of which the peer sent the first `presented`: an
unknown issuer to the deepest of those, a date to the deepest that is not valid, all else to the
leaf. -/
def Failure.locate (e : Tls.HandshakeError) (chain : List Certificate) (presented : Nat)
    (now : Moment) : Failure :=
  match e with
  | .certificate .unknownIssuer => ⟨e.message, true, presented - 1⟩
  | .certificate .expired | .certificate (.expiredAt ..) | .certificate .notValidYet
  | .certificate (.notValidYetAt ..) => ⟨e.message, false, (deepestInvalid? chain now).getD 0⟩
  | _ => ⟨e.message, false, 0⟩

end Parley.Trust
