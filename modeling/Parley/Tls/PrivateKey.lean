import Parley.Asn1.Oid
import Parley.Pem
import Parley.Tls.Signature

/-!
# Private keys

A private key of an elliptic curve, in the wrapping that names its curve or without it, has to bring
its public key along, and the two have to belong together.
-/

namespace Parley.Tls.PrivateKey
open Asn1 Decoder

structure KeyCurve where
  curve : Crypto.Curve
  name : Bytes
  oid : Bytes

def p256 : KeyCurve := ⟨.p256, Algorithm.p256Key, Algorithm.oid [1, 2, 840, 10045, 3, 1, 7]⟩

def p384 : KeyCurve := ⟨.p384, Algorithm.p384Key, Algorithm.oid [1, 3, 132, 0, 34]⟩

def optional (number : Nat) : Decoder (Option Bytes) := do
  if ← Element.peek (.context true number) then
    return some (← Element.strictOf (.context true number))
  else return none

def bare? (k : KeyCurve) (der : Bytes) : Option Bytes := do
  let (secret, publicKey) ← whole (Element.strictSequence do
    if (← Element.strictByte) ≠ 1 then failure
    let secret ← Element.strictOf (.universal Tag.octetString)
    if let some oid ← optional 0 then
      if oid ≠ k.oid then failure
    return (secret, ← Element.strictIn (.context true 1) Element.strictBitString)) der
  let derived ← k.curve.publicKey? (Bytes.toNat secret)
  if secret.length = k.curve.size ∧ derived = publicKey then some publicKey else none

def wrapped? (k : KeyCurve) (der : Bytes) : Option Bytes := do
  let inner ← whole (Element.strictSequence do
    if (← Element.strictByte) ≠ 0 then failure
    if (← Element.strictOf (.universal Tag.sequence)) ≠ k.name then failure
    let inner ← Element.strictOf (.universal Tag.octetString)
    discard (optional 0)
    return inner) der
  bare? k inner

def certified (k : KeyCurve) (publicKey : Bytes) : Bytes :=
  Element.encodeSequence [k.name] ++ Element.encode 3 (0 :: publicKey)

def publicSide? (label : Pem.Label) (der : Bytes) : Option Bytes :=
  let read (k : KeyCurve) : Option Bytes := match label with
    | .key => wrapped? k der
    | .ecKey => bare? k der
    | _ => none
  [p256, p384].findSome? fun k => (read k).map (certified k)

end Parley.Tls.PrivateKey
