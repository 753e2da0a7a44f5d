import Parley.Asn1.Oid
import Parley.Crypto.Ecdsa
import Parley.Tls.HandshakeError

/-!
# Signature algorithms

The algorithms that are offered for signatures, and the schemes that name them in a handshake. The
ones without a curve are known by name only: none of their signatures is ever found good.
-/

namespace Parley.Tls

structure Algorithm where
  id : Bytes
  keyId : Bytes
  ecdsa : Option (Crypto.Curve × Crypto.Sha2.Variant) := none

namespace Algorithm
open Asn1

def oid (arcs : List Nat) : Bytes := Element.encode 6 (Oid.ofArcs arcs).octets

def null : Bytes := [5, 0]

def p256Key : Bytes := oid [1, 2, 840, 10045, 2, 1] ++ oid [1, 2, 840, 10045, 3, 1, 7]

def p384Key : Bytes := oid [1, 2, 840, 10045, 2, 1] ++ oid [1, 3, 132, 0, 34]

def rsaKey : Bytes := oid [1, 2, 840, 113549, 1, 1, 1] ++ null

def ed25519Key : Bytes := oid [1, 3, 101, 112]

def ecdsa256 : Bytes := oid [1, 2, 840, 10045, 4, 3, 2]

def ecdsa384 : Bytes := oid [1, 2, 840, 10045, 4, 3, 3]

def p256Sha256 : Algorithm := ⟨ecdsa256, p256Key, some (.p256, .sha256)⟩

def p256Sha384 : Algorithm := ⟨ecdsa384, p256Key, some (.p256, .sha384)⟩

def p384Sha256 : Algorithm := ⟨ecdsa256, p384Key, some (.p384, .sha256)⟩

def p384Sha384 : Algorithm := ⟨ecdsa384, p384Key, some (.p384, .sha384)⟩

def ed25519 : Algorithm := ⟨ed25519Key, ed25519Key, none⟩

def pkcs1 (hash : Nat) : Algorithm := ⟨oid [1, 2, 840, 113549, 1, 1, hash] ++ null, rsaKey, none⟩

def pss (hash salt : Nat) : Algorithm :=
  let hashId := Element.encodeSequence [oid [2, 16, 840, 1, 101, 3, 4, 2, hash], null]
  let mask := Element.encodeSequence [oid [1, 2, 840, 113549, 1, 1, 8], hashId]
  let parameters := [Element.encode 160 hashId, Element.encode 161 mask,
    Element.encode 162 [2, 1, UInt8.ofNat salt]]
  ⟨oid [1, 2, 840, 113549, 1, 1, 10] ++ Element.encodeSequence parameters, rsaKey, none⟩

def all : List Algorithm :=
  [p256Sha256, p256Sha384, p384Sha256, p384Sha384, ed25519, pss 1 32, pss 2 48, pss 3 64, pkcs1 11,
    pkcs1 12, pkcs1 13]

def keyParts? (spki : Bytes) : Option (Bytes × Bytes) :=
  Decoder.whole (do
    let name ← Element.strictOf (.universal Tag.sequence)
    return (name, ← Element.strictBitString)) spki

inductive Refusal where
  | malformed
  | wrongKey (signature key : Bytes)
  | badSignature
deriving DecidableEq, Repr

def verify (a : Algorithm) (spki message signature : Bytes) : Except Refusal Unit :=
  match keyParts? spki with
  | none => .error .malformed
  | some (name, key) =>
    if name ≠ a.keyId then .error (.wrongKey a.id name)
    else if a.ecdsa.any fun (c, h) => Crypto.Ecdsa.verify c h key message signature then .ok ()
    else .error .badSignature

def Refusal.fault : Refusal → CertificateFault
  | malformed => .badEncoding
  | wrongKey signature key => .unsupportedForKey signature key
  | badSignature => .badSignature

def verifyAny (spki message signature : Bytes) : List Algorithm → Except Refusal Unit
  | [] => .error .badSignature
  | [a] => a.verify spki message signature
  | a :: rest =>
    match a.verify spki message signature with
    | .error (.wrongKey ..) => verifyAny spki message signature rest
    | r => r

end Algorithm

structure Scheme where
  code : Nat
  name : String
  algorithms : List Algorithm
  modern : Bool := true

namespace Scheme

def all : List Scheme :=
  [⟨0x0503, "ECDSA_NISTP384_SHA384", [.p384Sha384, .p256Sha384], true⟩,
    ⟨0x0403, "ECDSA_NISTP256_SHA256", [.p256Sha256, .p384Sha256], true⟩,
    ⟨0x0807, "ED25519", [.ed25519], true⟩,
    ⟨0x0806, "RSA_PSS_SHA512", [.pss 3 64], true⟩,
    ⟨0x0805, "RSA_PSS_SHA384", [.pss 2 48], true⟩,
    ⟨0x0804, "RSA_PSS_SHA256", [.pss 1 32], true⟩,
    ⟨0x0601, "RSA_PKCS1_SHA512", [.pkcs1 13], false⟩,
    ⟨0x0501, "RSA_PKCS1_SHA384", [.pkcs1 12], false⟩,
    ⟨0x0401, "RSA_PKCS1_SHA256", [.pkcs1 11], false⟩]

/-- The algorithms that a scheme stands for; since TLS 1.3 the curve goes with the scheme. -/
def algorithms? (modern : Bool) (code : Nat) : Option (List Algorithm) :=
  (all.find? fun s => s.code == code && (s.modern || !modern)).map fun s =>
    if modern then s.algorithms.take 1 else s.algorithms

end Scheme
end Parley.Tls
