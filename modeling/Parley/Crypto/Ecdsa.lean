import Parley.Asn1.Der
import Parley.Crypto.Curve
import Parley.Crypto.Sha2

/-!
# ECDSA

Checking signatures: two numbers in a sequence, against a message digest and an encoded public key.
-/

namespace Parley.Crypto.Ecdsa

def numbers? (signature : Bytes) : Option (Nat × Nat) :=
  Asn1.Decoder.whole (Asn1.Element.strictSequence do
    return (← Asn1.Element.strictNatural, ← Asn1.Element.strictNatural)) signature

def digestNumber (c : Curve) (digest : Bytes) : Nat := Bytes.toNat (digest.take c.size) % c.order

def inRange (c : Curve) (n : Nat) : Bool := 0 < n && n < c.order

def verify (c : Curve) (hash : Sha2.Variant) (key message signature : Bytes) : Bool :=
  match c.decode? key, numbers? signature with
  | some q, some (r, s) =>
    if inRange c r && inRange c s then
      let w := inverse c.order s
      let u := digestNumber c (hash.digest message) * w % c.order
      let v := r * w % c.order
      match c.plane? (c.add (c.scale u c.generator) (c.scale v q)) with
      | some (x, _) => x % c.order == r
      | none => false
    else false
  | _, _ => false

end Parley.Crypto.Ecdsa
