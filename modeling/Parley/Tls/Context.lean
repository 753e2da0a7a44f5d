import Parley.Tls.Backend
import Parley.Trust.Decision

/-!
# TLS contexts

What the settings come to for one connection attempt or one listener. Any fault of the material
shows here, before a byte is exchanged.
-/

namespace Parley.Tls

structure Verifier (m : Type → Type) where
  anchors : Anchors
  policy : Trust.Policy m

/-- Without a verifier any server is accepted. -/
structure ClientContext (m : Type → Type) where
  verifier : Option (Verifier m)
  identity : Option Identity

/-- With a verifier every client has to show a certificate. -/
structure ServerContext (m : Type → Type) where
  verifier : Option (Verifier m)
  identity : Identity

namespace Verifier
variable {m : Type → Type} [Monad m]

def decide (b : Backend) (v : Verifier m) (purpose : Trust.Path.Purpose) (leaf : Bytes)
    (intermediates : List Bytes) (clock : Moment) (now : Nat) : m Trust.Decision :=
  Trust.decide v.anchors.certificates v.policy leaf intermediates
    (b.checkPath v.anchors.store leaf intermediates now purpose) clock now

end Verifier

def Anchors.hints (a : Anchors) : List Bytes :=
  a.store.map fun anchor => Asn1.Element.encodeSequence [anchor.subject]

namespace Context

inductive Fault where
  | material (fault : Material.Fault)
  | configuration (side cause : String)
  | clientCheck (cause : String)
  | identity (side cause : String)
  | verifierAlone

def Fault.toError : Fault → Error
  | material f => f.toError
  | configuration side cause => .certificate (side ++ " config error: " ++ cause)
  | clientCheck cause => .certificate ("client verifier error: " ++ cause)
  | identity side cause => .certificate (side ++ " certificate error: " ++ cause)
  | verifierAlone => .certificate
      "verify source set but no certificate chain / private key to serve TLS with"

end Context

namespace Settings
variable {m : Type → Type} (b : Backend) (disk : Disk)

abbrev Of (m : Type → Type) := Settings (Bool → Certificate → m Bool)

def verifier (s : Of m) : Except Material.Fault (Option (Verifier m)) := do
  return (← s.anchors disk).map fun a => ⟨a, .ofSettings s⟩

def client (s : Of m) : Except Context.Fault (ClientContext m) := do
  let verifier ← (verifier disk s).mapError .material
  b.configure.mapError (.configuration "client")
  let identity ← (s.identity disk).mapError .material
  if let some i := identity then (b.clientIdentity i).mapError (.identity "client")
  return ⟨verifier, identity⟩

def serving (verifier : Option (Verifier m)) (i : Identity) :
    Except Context.Fault (ServerContext m) := do
  b.configure.mapError (.configuration "server")
  if let some v := verifier then (b.clientCheck v.anchors).mapError .clientCheck
  (b.serverIdentity i).mapError (.identity "server")
  return ⟨verifier, i⟩

def server (s : Of m) : Except Context.Fault (Option (ServerContext m)) := do
  (s.checkDh disk).mapError .material
  let identity ← (s.identity disk).mapError .material
  let verifier ← (verifier disk s).mapError .material
  match identity with
  | none => if verifier.isSome then throw .verifierAlone else return none
  | some i => return some (← serving b verifier i)

end Settings
end Parley.Tls
