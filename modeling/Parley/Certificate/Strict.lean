import Parley.Asn1.Oid
import Parley.Calendar
import Parley.Asn1.Time

/-!
# Reading certificates strictly

The path check reads a certificate of version 3 to its last octet, and keeps the encodings that it
compares: names, keys, algorithms. Extensions that it does not know must not be critical.
-/

namespace Parley.Certificate.Strict
open Asn1 Decoder

inductive Fault where
  | malformed
  | version
  | algorithmMismatch
  | criticalExtension
  | repeatedExtension
deriving DecidableEq, Repr

structure Extensions where
  constraints : Option Bytes := none
  purposes : Option Bytes := none
  seen : List UInt8 := []

structure Cert where
  signed : Bytes
  algorithm : Bytes
  signature : Bytes
  issuer : Bytes
  validity : Bytes
  subject : Bytes
  key : Bytes
  extensions : Extensions

structure Extension where
  oid : Bytes
  critical : Bool
  value : Bytes

def sequenceTag : Tag := .universal Tag.sequence

def extension : Decoder Extension := Element.strictSequence do
  return ⟨← Element.strictOf (.universal Tag.oid), ← Element.strictFlag,
    ← Element.strictOf (.universal Tag.octetString)⟩

/-- The last arcs of the extensions that are read: how a key is used, alternate names, constraints
on the path and on names, where revocations are listed, purposes. -/
def known : List UInt8 := [15, 17, 19, 30, 31, 37]

/-- The extensions with one more; a critical one that is not known is refused unless `lenient`. -/
def Extensions.add (lenient : Bool) (all : Extensions) (e : Extension) : Except Fault Extensions :=
  let unknown := if e.critical && !lenient then .error .criticalExtension else .ok all
  match e.oid with
  | [85, 29, n] =>
    if !known.contains n then unknown
    else if all.seen.contains n then .error .repeatedExtension
    else
      let all := { all with seen := n :: all.seen }
      if n = 15 then .ok all
      else
        match whole (Element.strictOf sequenceTag) e.value with
        | none => .error .malformed
        | some content =>
          if n = 19 then .ok { all with constraints := some content }
          else if n = 37 then .ok { all with purposes := some content }
          else .ok all
  | _ => unknown

def envelope? (der : Bytes) : Option (Element × Bytes × Bytes) :=
  whole (Element.strictSequence do
    let body ← Element.strict
    if body.tag ≠ sequenceTag then failure
    return (body, ← Element.strictOf sequenceTag, ← Element.strictBitString)) der

def behindVersion (body : Bytes) : Except Fault Bytes :=
  match (Element.strictOf (.context true 0)).run body with
  | none => .error .version
  | some (content, rest) =>
    match Element.strictByte.run content with
    | none => .error .malformed
    | some (number, more) => if number = 2 ∧ more = [] then .ok rest else .error .version

def fields : Decoder (Bytes × Bytes × Bytes × Bytes × Bytes × Bytes) := do
  let _ ← Element.strictOf (.universal Tag.integer)
  let algorithm ← Element.strictOf sequenceTag
  let issuer ← Element.strictOf sequenceTag
  let validity ← Element.strictOf sequenceTag
  let subject ← Element.strictOf sequenceTag
  let key ← Element.strictOf sequenceTag
  return (algorithm, issuer, validity, subject, key, ← get)

/-- The extensions in front, under their tag, and what no reader took: of them, behind them, and
behind the tag. -/
def extensionList : Decoder (List Extension × Bytes) := do
  let tagged ← Element.strictOf (.context true 3)
  let (content, afterList) ← (Element.strictOf sequenceTag).run tagged
  let (list, rest) ← (many extension).run content
  return (list, rest ++ afterList ++ (← get))

def extensions (lenient : Bool) (rest : Bytes) : Except Fault Extensions :=
  if rest.isEmpty then .ok {}
  else
    match within extensionList rest with
    | none => .error .malformed
    | some (list, left) => do
      let all ← list.foldlM (Extensions.add lenient) {}
      if left.isEmpty then return all else .error .malformed

def read (lenient : Bool) (der : Bytes) : Except Fault Cert :=
  match envelope? der with
  | none => .error .malformed
  | some (body, algorithm, signature) => do
    match within fields (← behindVersion body.content) with
    | none => .error .malformed
    | some (inner, issuer, validity, subject, key, rest) =>
      if inner ≠ algorithm then .error .algorithmMismatch
      else
        let extensions ← extensions lenient rest
        return ⟨body.encoding, algorithm, signature, issuer, validity, subject, key, extensions⟩

structure Anchor where
  subject : Bytes
  key : Bytes
deriving DecidableEq, Repr

def firstVersion? (der : Bytes) : Option Anchor :=
  whole (Element.strictSequence do
    let anchor ← Element.strictSequence do
      let (_, _, _, subject, key, _) ← fields
      return Anchor.mk subject key
    let _ ← Element.strictOf sequenceTag
    let _ ← Element.strictOf (.universal Tag.bitString)
    return anchor) der

/-- A certificate as a trust anchor: its dates and its signature are not looked at, and unknown
extensions are no matter. -/
def anchor? (der : Bytes) : Option Anchor :=
  match read true der with
  | .ok c => some ⟨c.subject, c.key⟩
  | .error .version => firstVersion? der
  | .error _ => none

def seconds : Decoder Nat := do
  let e ← Element.strict
  let time ←
    if e.tag = .universal Tag.utcTime ∧ e.content.length = 13 then Time.ofUtc? e.content
    else if e.tag = .universal Tag.generalizedTime ∧ e.content.length = 15 then
      Time.ofGeneralized? e.content
    else failure
  if time.offset = 0 ∧ 1970 ≤ time.year then return time.moment.seconds.toNat else failure

def dates? (validity : Bytes) : Option (Nat × Nat) :=
  whole (do return (← seconds, ← seconds)) validity

end Parley.Certificate.Strict
