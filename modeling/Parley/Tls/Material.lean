import Parley.Certificate.Reader
import Parley.Pem
import Parley.Tls.Settings
import Parley.Trust.Path

/-!
# TLS material

What the sources of the settings hold: the own certificates with their private key, the trust
anchors, and the DH parameters, which only have to be there.
-/

namespace Parley.Tls

structure Identity where
  chain : List Bytes
  key : Pem.Section
deriving DecidableEq, Repr

structure Anchors where
  store : List Certificate.Strict.Anchor
  certificates : List Certificate

inductive Material.Fault where
  | source (error : Error)
  | badCertificate (source : String)
  | noCertificate (source : String)
  | badKey (source : String)
  | badAnchor (source : String)
  | certificate (fault : Certificate.Fault)
  | noKey
  | noChain
  | noDhParameters (source : String)

namespace Material

def Fault.toError : Fault → Error
  | source e => e
  | badCertificate s => .certificate ("bad certificate in " ++ s)
  | noCertificate s => .certificate ("no certificate found in " ++ s)
  | badKey s => .certificate ("bad private key in " ++ s)
  | badAnchor s => .certificate ("bad trust anchor in " ++ s)
  | certificate f => f.toError
  | noKey => .certificate "certificate chain configured without a private key"
  | noChain => .certificate "private key configured without a certificate chain"
  | noDhParameters s => .certificate ("no DH PARAMETERS block in " ++ s)

def load (disk : Disk) (s : Source) : Except Fault Bytes := (s.load disk).mapError .source

def certificates (disk : Disk) (s : Source) : Except Fault (List Bytes) := do
  let sections := Pem.sections (← load disk s)
  unless sections.clean do throw (.badCertificate s.text)
  match (sections.read.filter (·.label == .certificate)).map (·.content) with
  | [] => throw (.noCertificate s.text)
  | found => return found

def privateKey (disk : Disk) (s : Source) : Except Fault Pem.Section := do
  match (Pem.sections (← load disk s)).read.find? (·.label.isKey) with
  | some key => return key
  | none => throw (.badKey s.text)

end Material

namespace Settings
variable {υ : Type u} (disk : Disk)
open Material

/-- The own identity, when chain and key are set; one without the other is an error. -/
def identity (s : Settings υ) : Except Fault (Option Identity) :=
  match s.chain, s.key with
  | none, none => return none
  | some chain, some key => do return some ⟨← certificates disk chain, ← privateKey disk key⟩
  | some _, none => throw .noKey
  | none, some _ => throw .noChain

/-- An anchor has to be a certificate in the lax reading first, then in the strict one. -/
def anchor (source : String) (der : Bytes) :
    Except Fault (Certificate.Strict.Anchor × Certificate) := do
  let c ← (Certificate.read der).mapError .certificate
  match Certificate.Strict.anchor? der with
  | some a => return (a, c)
  | none => throw (.badAnchor source)

def anchors (s : Settings υ) : Except Fault (Option Anchors) :=
  match s.verify with
  | none => return none
  | some source => do
    let found ← (← certificates disk source).mapM (anchor source.text)
    return some ⟨found.map (·.1), found.map (·.2)⟩

def isDhBlock : Except Pem.Fault Pem.Block → Bool
  | .ok b => b.label == Bytes.ofString "DH PARAMETERS"
  | .error _ => false

def checkDh (s : Settings υ) : Except Fault Unit :=
  match s.dh with
  | none => return
  | some source => do
    unless (Pem.blocks (← load disk source)).any isDhBlock do throw (.noDhParameters source.text)

end Settings
end Parley.Tls
