import Parley.Text.Hex

/-!
# Handshake errors

Why a TLS handshake refuses its peer, with the sentence for each cause. Times are in seconds since
1970.
-/

namespace Parley.Tls

inductive CertificateFault where
  | unknownIssuer
  | expired
  | expiredAt (time notAfter : Nat)
  | notValidYet
  | notValidYetAt (time notBefore : Nat)
  | badSignature
  | badEncoding
  | revoked
  | invalidPurpose
  | purposeMissing (required : String) (allowed : List String)
  | notValidForName
  | application
  | unsupportedAlgorithm (signature : Bytes) (supported : List Bytes)
  | unsupportedForKey (signature key : Bytes)
  | other (cause : String)
deriving DecidableEq, Repr

inductive HandshakeError where
  | certificate (fault : CertificateFault)
  | noCertificates
  | decrypt
  | general (text : String)
  | misbehaved (how : String)
  | other (sentence : String)
deriving DecidableEq, Repr

namespace CertificateFault

def octetList (b : Bytes) : String :=
  "[" ++ ", ".intercalate (b.map fun x => toString x.toNat) ++ "]"

def message : CertificateFault → String
  | unknownIssuer => "UnknownIssuer"
  | expired => "Expired"
  | expiredAt time notAfter =>
    s!"certificate expired: verification time {time} (UNIX), but certificate is not valid after "
      ++ s!"{notAfter} ({time - notAfter} seconds ago)"
  | notValidYet => "NotValidYet"
  | notValidYetAt time notBefore =>
    s!"certificate not valid yet: verification time {time} (UNIX), but certificate is not valid "
      ++ s!"before {notBefore} ({notBefore - time} seconds in future)"
  | badSignature => "BadSignature"
  | badEncoding => "BadEncoding"
  | revoked => "Revoked"
  | invalidPurpose => "InvalidPurpose"
  | purposeMissing required allowed =>
    "certificate does not allow extended key usage for " ++ required ++ ", allows "
      ++ ", ".intercalate allowed
  | notValidForName => "NotValidForName"
  | application => "ApplicationVerificationFailure"
  | unsupportedAlgorithm signature supported =>
    "UnsupportedSignatureAlgorithmContext \x7b signature_algorithm_id: " ++ octetList signature
      ++ ", supported_algorithms: ["
      ++ ", ".intercalate
        (supported.map fun a => "AlgorithmIdentifier(0x" ++ Text.Hex.encode a ++ ")")
      ++ "] \x7d"
  | unsupportedForKey signature key =>
    "UnsupportedSignatureAlgorithmForPublicKeyContext \x7b signature_algorithm_id: "
      ++ octetList signature ++ ", public_key_algorithm_id: " ++ octetList key ++ " \x7d"
  | other cause => "Other(OtherError(" ++ cause ++ "))"

end CertificateFault

namespace HandshakeError

def message : HandshakeError → String
  | certificate f => "invalid peer certificate: " ++ f.message
  | noCertificates => "peer sent no certificates"
  | decrypt => "cannot decrypt peer's message"
  | general t => "unexpected error: " ++ t
  | misbehaved how => "peer misbehaved: " ++ how
  | other sentence => sentence

end HandshakeError
end Parley.Tls
