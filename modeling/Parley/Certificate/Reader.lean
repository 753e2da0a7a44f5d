import Parley.Asn1.Oid.Names
import Parley.Asn1.Time
import Parley.Certificate.Basic
import Parley.Disk
import Parley.Error
import Parley.Pem
import Parley.Text.Utf8

/-!
# Reading certificates

The lax reading: the structure has to be there, but what stands behind a complete part is ignored,
and a name ends at the first of its parts that is not well formed.
-/

namespace Parley.Certificate

inductive Fault where
  | malformed
  | twoAlternateNames
  | badAlternateNames
deriving DecidableEq, Repr

def Fault.message : Fault → String
  | malformed => "bad X.509 certificate"
  | twoAlternateNames => "bad subjectAltName: duplicate extensions"
  | badAlternateNames => "bad subjectAltName: invalid extensions"

def Fault.toError (f : Fault) : Error := .certificate f.message

namespace Reader
open Asn1 Decoder

structure Extension where
  oid : Oid
  value : Bytes

structure Parts where
  issuer : Name
  notBefore : CivilTime
  notAfter : CivilTime
  subject : Name
  extensions : List Extension

def sequence (r : Decoder α) : Decoder α := do within r (← Element.laxOf Tag.sequence).content

def algorithm : Decoder Unit := sequence do discard Element.laxOid

def typeAndValue : Decoder Attribute := sequence do
  let oid ← Element.laxOid
  return ⟨oid.name, Text.Utf8.lossy (← Element.lax).content⟩

def attributeSet : Decoder (List Attribute) := do
  let set ← Element.laxOf Tag.set
  match within (many typeAndValue) set.content with
  | some (a :: rest) => return a :: rest
  | _ => failure

def name : Decoder Name := sequence do return .ofSets (← many attributeSet)

def bitString? : Bytes → Bool
  | [] => false
  | unused :: bits =>
    match bits.getLast? with
    | none => unused == 0
    | some last => unused ≤ 7 && last.toNat % (1 <<< unused.toNat) == 0

def bitString : Decoder Unit := do
  unless bitString? (← Element.laxOf Tag.bitString).content do failure

def optional (number : Nat) : Decoder (Option Element) := fun input =>
  match Element.lax.run input with
  | some (e, rest) =>
    if e.tag.kind = .context ∧ e.tag.number = number then some (some e, rest)
    else some (none, input)
  | none => some (none, input)

def version : Decoder Unit := do
  if let some e ← optional 0 then
    let number ← within (Element.laxOf Tag.integer) e.content
    unless (Element.natural? number.content).any (· < UInt32.size) do failure

def uniqueId (number : Nat) : Decoder Unit := do
  if let some e ← optional number then
    unless bitString? e.content do failure

def extension : Decoder Extension := sequence do
  let oid ← Element.laxOid
  let _ ← attempt do
    let critical ← Element.laxOf Tag.boolean
    if critical.content.length = 1 then return else failure
  return ⟨oid, (← Element.laxOf Tag.octetString).content⟩

def extensions : Decoder (List Extension) := do
  if ← atEnd then return []
  let tag ← Tag.read true
  let _ ← Element.laxLength
  if tag.number ≠ 3 then failure
  let list ← Element.laxOf Tag.sequence
  unless ← atEnd do failure
  whole (many extension) list.content

def body : Decoder Parts := sequence do
  version
  discard (Element.laxOf Tag.integer)
  algorithm
  let issuer ← name
  let (notBefore, notAfter) ← sequence do return (← Time.lax, ← Time.lax)
  let subject ← name
  sequence do
    algorithm
    bitString
  uniqueId 1
  uniqueId 2
  return ⟨issuer, notBefore, notAfter, subject, ← extensions⟩

def certificate : Decoder Parts := sequence do
  let parts ← body
  algorithm
  bitString
  return parts

def generalName : Decoder (Option String) := do
  let e ← Element.lax
  let text? := String.fromUTF8? ⟨e.content.toArray⟩
  if e.tag.kind ≠ .context then failure
  match e.tag.number with
  | 0 => do
    discard (within Element.laxOid e.content : Option Oid)
    return none
  | 1 | 6 => if text?.isSome then return none else failure
  | 2 => match text? with
    | some s => return some s
    | none => failure
  | 4 => if (whole name e.content).isSome then return none else failure
  | 3 | 5 | 7 | 8 => return none
  | _ => failure

def alternateNames? (value : Bytes) : Option (List String) := do
  let list ← within (Element.laxOf Tag.sequence) value
  return (← whole (many generalName) list.content).filterMap id

def alternateNames (extensions : List Extension) : Except Fault (List String) :=
  match extensions.filter (·.oid == Oid.subjectAltName) with
  | [] => .ok []
  | [e] => match alternateNames? e.value with
    | some names => .ok names
    | none => .error .badAlternateNames
  | _ => .error .twoAlternateNames

end Reader

def read (der : Bytes) : Except Fault Certificate :=
  match Asn1.Decoder.within Reader.certificate der with
  | none => .error .malformed
  | some p => do
    let names ← Reader.alternateNames p.extensions
    return ⟨p.subject, p.issuer, p.notBefore, p.notAfter, names⟩

def ofDer (der : Bytes) : Except Error Certificate := (read der).mapError Fault.toError

/-- The certificate in the first block labelled so; a block before it has to be whole. -/
def ofPem (pem : Bytes) : Except Error Certificate :=
  let label := Bytes.ofString Pem.Label.certificate.name
  let stop : Except Pem.Fault Pem.Block → Bool
    | .error _ => true
    | .ok b => b.label == label
  match (Pem.blocks pem).find? stop with
  | some (.ok b) => ofDer b.content
  | some (.error f) => .error (.certificate ("bad PEM: " ++ f.message))
  | none => .error (.certificate "no CERTIFICATE block in PEM input")

def load (disk : Disk) (path : String) : Except Error Certificate :=
  match disk path with
  | .ok pem => ofPem pem
  | .error f => .error (.certificate ("cannot read " ++ path ++ ": " ++ f.message))

end Parley.Certificate
