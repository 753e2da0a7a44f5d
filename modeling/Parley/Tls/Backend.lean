import Parley.Tls.Material

/-!
# The TLS library

What contexts ask of the library that speaks TLS for them. What it answers is its own affair; an
error comes with the library's words for it.
-/

namespace Parley.Tls

structure Backend where
  /-- Whether there is a configuration to start from. -/
  configure : Except String Unit
  /-- Whether the certificates of clients can be checked against these anchors. -/
  clientCheck : Anchors → Except String Unit
  serverIdentity : Identity → Except String Unit
  clientIdentity : Identity → Except String Unit
  /-- Whether a way leads from the leaf to an anchor, at a time in seconds since 1970. -/
  checkPath (anchors : List Certificate.Strict.Anchor) (leaf : Bytes) (intermediates : List Bytes)
    (time : Nat) (purpose : Trust.Path.Purpose) : Except HandshakeError Unit

end Parley.Tls
