import Parley.Tls.Backend
import Parley.Tls.PrivateKey

/-!
# A TLS library for elliptic curves

The answers of the library where all keys are on one of the curves P-256 and P-384. A key or a
signature of another kind is of no use here.
-/

namespace Parley.Tls

/-- Checks the signature under a handshake with the key of the certificate. The scheme is looked at
before the certificate. -/
def checkHandshake (modern : Bool) (scheme : Nat) (certificate message signature : Bytes) :
    Except HandshakeError Unit :=
  match Scheme.algorithms? modern scheme with
  | none => throw (.misbehaved "SignedHandshakeWithUnadvertisedSigScheme")
  | some algorithms =>
    match Certificate.Strict.read false certificate with
    | .error f => throw (.certificate (Trust.Path.Fault.unreadable f).toCertificateFault)
    | .ok c => (Algorithm.verifyAny c.key message signature algorithms).mapError
        fun r => .certificate r.fault

namespace Backend

def checkIdentity (i : Identity) : Except String Unit :=
  match PrivateKey.publicSide? i.key.label i.key.content with
  | none => .error (HandshakeError.general
      "failed to parse private key as RSA, ECDSA, or EdDSA").message
  | some key =>
    match Certificate.Strict.read false (i.chain.headD []) with
    | .error f => .error
        (HandshakeError.certificate (Trust.Path.Fault.unreadable f).toCertificateFault).message
    | .ok c => if c.key = key then .ok () else .error "keys may not be consistent: KeyMismatch"

def elliptic : Backend where
  configure := .ok ()
  clientCheck _ := .ok ()
  serverIdentity := checkIdentity
  clientIdentity := checkIdentity
  checkPath := Trust.Path.check

end Backend
end Parley.Tls
