import Parley.Text.Quoted
import Parley.Tls.Settings
import Parley.Trust.Failure

/-!
# Trust policy

Every certificate of a chain gets a verdict, the deepest first. The built-in checks are the depth,
the failure of the path check if it is pinned here, the required host name on the leaf, and the
dates; the user's predicate then has the last word. A chain is accepted when it is not empty and all
its certificates are.
-/

namespace Parley.Trust

/-- The predicate may act, on a log of its own for one, so it answers in a monad. -/
structure Policy (m : Type → Type) where
  hostname : Option String := none
  user : Option (Bool → Certificate → m Bool) := none

inductive Outcome where
  | pass
  | fail
  | override
deriving DecidableEq, Repr

structure Verdict where
  depth : Nat
  subject : String
  issuer : String
  error : Option String
  notes : List String
  outcome : Outcome
  accepted : Bool
deriving DecidableEq, Repr

def maxDepth : Nat := 8

/-- What the built-in checks have come to so far. The error is the first one. -/
structure Findings where
  ok : Bool
  error : Option String
  notes : List String := []

namespace Findings

/-- What stands against a certificate before it is looked at: the path check, and over it the
depth. -/
def prior (depth : Nat) (c : Certificate) (failure : Option Failure) : Findings :=
  let f : Findings := { ok := failure.isNone, error := failure.map (·.reason) }
  let f := if maxDepth < depth then
      { f with ok := false, error := some s!"certificate chain too long (depth {depth})" }
    else f
  match f.error with
  | none => f
  | some e =>
    { f with notes := s!"verify error at depth {depth}: {e}" ::
        if failure.any (·.unknownIssuer) then ["issuer: " ++ c.issuer.text] else [] }

def reject (f : Findings) (e : String) : Findings :=
  { ok := false, error := f.error.or (some e), notes := f.notes ++ [e] }

def checkHost (f : Findings) (hostname : Option String) (depth : Nat) (c : Certificate) :
    Findings :=
  match hostname with
  | some host =>
    if depth = 0 && !c.matchesHost host then f.reject s!"hostname {host} does not match certificate"
    else f
  | none => f

def checkDates (f : Findings) (c : Certificate) (now : Moment) : Findings :=
  if c.isValidAt now then f
  else f.reject s!"outside validity window ({c.notBefore.text} .. {c.notAfter.text})"

end Findings

namespace Policy
variable {m : Type → Type}

def ofSettings (s : Tls.Settings (Bool → Certificate → m Bool)) : Policy m := ⟨s.hostname, s.user⟩

def inspect (p : Policy m) : String :=
  "TrustPolicy \x7b required_hostname: " ++ Text.Quoted.optional (p.hostname.map Text.Quoted.quote)
    ++ ", user_verification: " ++ toString p.user.isSome ++ " \x7d"

/-- What the built-in checks come to. The failure counts only at its own depth. -/
def findings (hostname : Option String) (depth : Nat) (c : Certificate) (failure : Option Failure)
    (now : Moment) : Findings :=
  let prior := Findings.prior depth c (failure.filter (·.depth == depth))
  (prior.checkHost hostname depth c).checkDates c now

def check (hostname : Option String) (depth : Nat) (c : Certificate) (failure : Option Failure)
    (now : Moment) : Verdict :=
  let f := findings hostname depth c failure now
  { depth, subject := c.subject.text, issuer := c.issuer.text, error := f.error, notes := f.notes,
    outcome := if f.ok then .pass else .fail, accepted := f.ok }

def settle (v : Verdict) (answer : Bool) : Verdict :=
  if answer = v.accepted then v
  else
    let verb := if answer then "accepted" else "rejected"
    { v with accepted := answer, outcome := .override,
             notes := v.notes ++ [s!"user verification {verb} the certificate"] }

def judge [Monad m] (p : Policy m) (failure : Option Failure) (now : Moment)
    (place : Certificate × Nat) : m Verdict :=
  let v := check p.hostname place.2 place.1 failure now
  match p.user with
  | some ask => do return settle v (← ask v.accepted place.1)
  | none => pure v

/-- The verdicts on a chain with the leaf in front, the deepest first. -/
def evaluate [Monad m] (p : Policy m) (chain : List Certificate) (failure : Option Failure)
    (now : Moment) : m (List Verdict) :=
  chain.zipIdx.reverse.mapM (p.judge failure now)

end Policy

def accepted (verdicts : List Verdict) : Bool := !verdicts.isEmpty && verdicts.all (·.accepted)

end Parley.Trust
