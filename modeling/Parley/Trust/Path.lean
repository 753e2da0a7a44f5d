import Parley.Certificate.Strict
import Parley.Tls.Signature

/-!
# The path check

From a leaf certificate upwards, depth first: at each certificate the trust anchors are tried before
the presented certificates, an issuer is known by the octets of its name, and signatures are checked
from the anchor down once the way to it is complete. When no way leads to an anchor, the most
specific of the faults on the way is reported.
-/

namespace Parley.Trust.Path
open Certificate (Strict.Cert Strict.Anchor)

inductive Fault where
  | unreadable (fault : Certificate.Strict.Fault)
  | malformed
  | badTime
  | emptyValidity
  | notYetValid (time notBefore : Nat)
  | expired (time notAfter : Nat)
  | caAsLeaf
  | leafAsCa
  | tooManyBelow
  | purpose (required : String) (allowed : List String)
  | tooDeep
  | signature (refusal : Tls.Algorithm.Refusal)
  | unknownAlgorithm (id : Bytes)
  | unknownIssuer
  | signatureBudget
  | stepBudget
deriving DecidableEq, Repr

namespace Fault

/-- How specific a fault is; of two the more specific one is reported, and the first of equals. -/
def rank : Fault → Nat
  | notYetValid .. | expired .. => 290
  | signature .badSignature => 260
  | unreadable .algorithmMismatch => 250
  | purpose .. => 240
  | tooManyBelow => 220
  | caAsLeaf | leafAsCa => 210
  | emptyValidity => 190
  | signature (.wrongKey ..) => 150
  | unknownAlgorithm _ => 140
  | unreadable .criticalExtension | unreadable .version => 130
  | tooDeep => 61
  | unreadable .repeatedExtension => 30
  | badTime => 20
  | unreadable .malformed | malformed | signature .malformed => 10
  | unknownIssuer | signatureBudget | stepBudget => 0

def moreSpecific (a b : Fault) : Fault := if b.rank ≤ a.rank then a else b

def isFinal : Fault → Bool
  | signatureBudget | stepBudget => true
  | _ => false

def toCertificateFault : Fault → Tls.CertificateFault
  | notYetValid time notBefore => .notValidYetAt time notBefore
  | expired time notAfter => .expiredAt time notAfter
  | emptyValidity => .expired
  | signature r => r.fault
  | unknownAlgorithm id => .unsupportedAlgorithm id (Tls.Algorithm.all.map (·.id))
  | unreadable .malformed | malformed | badTime => .badEncoding
  | unreadable .version => .other "UnsupportedCertVersion"
  | unreadable .criticalExtension => .other "UnsupportedCriticalExtension"
  | unreadable .algorithmMismatch => .other "SignatureAlgorithmMismatch"
  | unreadable .repeatedExtension => .other "ExtensionValueInvalid"
  | purpose required allowed => .purposeMissing required allowed
  | tooManyBelow => .other "PathLenConstraintViolated"
  | caAsLeaf => .other "CaUsedAsEndEntity"
  | leafAsCa => .other "EndEntityUsedAsCa"
  | tooDeep => .other "MaximumPathDepthExceeded"
  | unknownIssuer => .unknownIssuer
  | signatureBudget => .other "MaximumSignatureChecksExceeded"
  | stepBudget => .other "MaximumPathBuildCallsExceeded"

end Fault

inductive Purpose where
  | server | client
deriving DecidableEq, Repr

namespace Purpose

def oid : Purpose → Asn1.Oid
  | server => .ofArcs [1, 3, 6, 1, 5, 5, 7, 3, 1]
  | client => .ofArcs [1, 3, 6, 1, 5, 5, 7, 3, 2]

def name : Purpose → String
  | server => "server authentication"
  | client => "client authentication"

def describe (o : Asn1.Oid) : String :=
  if o = server.oid then server.name
  else if o = client.oid then client.name
  else ", ".intercalate (o.arcs.map toString)

end Purpose

structure Budget where
  signatures : Nat := 100
  steps : Nat := 200000

abbrev Search := ExceptT Fault (StateM Budget)

def maxIntermediates : Nat := 6

/-- The first value that leads to a result; a fault on the way counts if it is more specific than
the ones before. -/
def firstOf (fault : Fault) (f : α → Search β) : List α → Search β
  | [] => throw fault
  | a :: rest => tryCatch (f a) fun e =>
    if e.isFinal then throw e else firstOf (fault.moreSpecific e) f rest

def checkDates (time : Nat) (c : Strict.Cert) : Except Fault Unit :=
  match Certificate.Strict.dates? c.validity with
  | none => .error .badTime
  | some (notBefore, notAfter) =>
    if notAfter < notBefore then .error .emptyValidity
    else if time < notBefore then .error (.notYetValid time notBefore)
    else if notAfter < time then .error (.expired time notAfter)
    else .ok ()

def constraints? (c : Strict.Cert) : Option (Bool × Option Nat) :=
  match c.extensions.constraints with
  | none => some (false, none)
  | some content => Asn1.Decoder.whole (do
    let authority ← Asn1.Element.strictFlag
    if ← Asn1.Decoder.atEnd then return (authority, none)
    else return (authority, some (← Asn1.Element.strictByte))) content

/-- The certificate as the leaf, or as an issuer with `below` issuers under it. -/
def checkConstraints (below : Option Nat) (c : Strict.Cert) : Except Fault Unit :=
  match constraints? c, below with
  | none, _ => .error .malformed
  | some (true, _), none => .error .caAsLeaf
  | some (false, _), none => .ok ()
  | some (false, _), some _ => .error .leafAsCa
  | some (true, limit), some n => if limit.all (n ≤ ·) then .ok () else .error .tooManyBelow

def findPurpose (p : Purpose) : (room : Nat) → Bytes → List String → Except Fault Unit
  | 0, _, _ => .error .malformed
  | room + 1, content, seen =>
    match (Asn1.Element.strictOf (.universal Asn1.Tag.oid)).run content with
    | none => .error .malformed
    | some (octets, rest) =>
      let o : Asn1.Oid := ⟨octets⟩
      let seen := seen ++ [Purpose.describe o]
      if o = p.oid then .ok ()
      else if rest.isEmpty then .error (.purpose p.name seen)
      else findPurpose p room rest seen

def checkPurpose (p : Purpose) (c : Strict.Cert) : Except Fault Unit :=
  match c.extensions.purposes with
  | none => .ok ()
  | some content => findPurpose p (content.length + 1) content []

def checkAlone (time : Nat) (p : Purpose) (below : Option Nat) (c : Strict.Cert) :
    Except Fault Unit := do
  checkDates time c
  checkConstraints below c
  checkPurpose p c

def checkSignature (key : Bytes) (c : Strict.Cert) : Search Unit := do
  let left ← get
  if left.signatures = 0 then throw .signatureBudget
  set { left with signatures := left.signatures - 1 }
  match Tls.Algorithm.all.filter (·.id == c.algorithm) with
  | [] => throw (.unknownAlgorithm c.algorithm)
  | algorithms =>
    match Tls.Algorithm.verifyAny key c.signed c.signature algorithms with
    | .ok () => return
    | .error r => throw (.signature r)

def checkSignatures (key : Bytes) : List Strict.Cert → Search Unit
  | [] => return
  | c :: rest => do
    checkSignature key c
    checkSignatures c.key rest

def tryAnchor (path : List Strict.Cert) (issuer : Bytes) (a : Strict.Anchor) : Search Unit :=
  if a.subject ≠ issuer then throw .unknownIssuer else checkSignatures a.key path

/-- Searches on from a path whose highest certificate is `c`, with `path` below it. -/
def search (anchors : List Strict.Anchor) (presented : List Bytes) (time : Nat) (p : Purpose) :
    (room : Nat) → Strict.Cert → List Strict.Cert → Search Unit
  | room, c, path => do
    let below := if path.isEmpty then none else some (path.length - 1)
    match checkAlone time p below c with
    | .error e => throw e
    | .ok () =>
      tryCatch (firstOf .unknownIssuer (tryAnchor (c :: path) c.issuer) anchors) fun fault =>
        if fault.isFinal then throw fault
        else firstOf fault (fun der => do
          match Certificate.Strict.read false der with
          | .error e => throw (.unreadable e)
          | .ok issuer =>
            if issuer.subject ≠ c.issuer then throw .unknownIssuer
            if (c :: path).any fun q => issuer.key == q.key && issuer.subject == q.subject then
              throw .unknownIssuer
            let left ← get
            if left.steps = 0 then throw .stepBudget
            set { left with steps := left.steps - 1 }
            match room with
            | 0 => throw .tooDeep
            | room + 1 => search anchors presented time p room issuer (c :: path)) presented

def check (anchors : List Strict.Anchor) (leaf : Bytes) (intermediates : List Bytes) (time : Nat)
    (p : Purpose) : Except Tls.HandshakeError Unit :=
  let result : Except Fault Unit := match Certificate.Strict.read false leaf with
    | .error e => .error (.unreadable e)
    | .ok c => ((search anchors intermediates time p maxIntermediates c []).run {}).1
  result.mapError fun e => .certificate e.toCertificateFault

end Parley.Trust.Path
