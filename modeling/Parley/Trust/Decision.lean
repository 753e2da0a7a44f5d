import Parley.Certificate.Reader
import Parley.Logging
import Parley.Trust.Policy

/-!
# The decision on a peer

The certificates a peer presented, completed by the trust anchor that issued the last of them, go
through the policy together with the result of the path check. The path check is overruled by
nothing but the user's predicate.
-/

namespace Parley.Trust

/-- The anchor that completes a chain: the first one with the name of the last issuer that is not
in the chain already. A chain that ends in a self-issued certificate is complete. -/
def completing? (anchors chain : List Certificate) : Option Certificate :=
  match chain.getLast? with
  | none => none
  | some last =>
    if last.subject.text = last.issuer.text then none
    else anchors.find? fun a => a.subject.text == last.issuer.text && !chain.contains a

/-- What the policy sees of the presented certificates, the leaf in front. -/
def presentedChain (anchors : List Certificate) (presented : List Bytes) :
    Except Tls.HandshakeError (List Certificate) :=
  match presented.mapM fun der => (Certificate.read der).toOption with
  | some chain => .ok (chain ++ (completing? anchors chain).toList)
  | none => .error (.certificate .badEncoding)

def lastSecond : Nat := 253402300799

/-- A time in seconds since 1970, or the clock's when the calendar does not reach so far. -/
def policyTime (clock : Moment) (now : Nat) : Moment := if now ≤ lastSecond then ⟨now, 0⟩ else clock

structure Decision where
  result : Except Tls.HandshakeError Unit
  verdicts : List Verdict

def decide {m : Type → Type} [Monad m] (anchors : List Certificate) (policy : Policy m)
    (leaf : Bytes) (intermediates : List Bytes) (path : Except Tls.HandshakeError Unit)
    (clock : Moment) (now : Nat) : m Decision :=
  match presentedChain anchors (leaf :: intermediates) with
  | .error e => pure ⟨.error e, []⟩
  | .ok chain => do
    let now := policyTime clock now
    let failure := match path with
      | .error e => some (Failure.locate e chain (intermediates.length + 1) now)
      | .ok () => none
    let verdicts ← policy.evaluate chain failure now
    if accepted verdicts then return ⟨.ok (), verdicts⟩
    match path with
    | .error e => return ⟨.error e, verdicts⟩
    | .ok () => return ⟨.error (.certificate .application), verdicts⟩

def Outcome.event : Outcome → Logging.Level × String
  | pass => (.debug, "certificate accepted")
  | fail => (.warn, "certificate rejected")
  | override => (.info, "certificate verdict overridden by user verification")

end Parley.Trust
