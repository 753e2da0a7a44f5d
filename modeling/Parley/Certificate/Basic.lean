import Parley.Calendar
import Parley.Certificate.Name
import Parley.Hostname

/-!
# Certificates

What is read off a certificate: whom it names, who issued it, when it is valid and for which hosts.
-/

namespace Parley

structure Certificate where
  subject : Certificate.Name
  issuer : Certificate.Name
  notBefore : CivilTime
  notAfter : CivilTime
  alternateNames : List String
deriving Repr

namespace Certificate

/-- Two certificates agree when all that is read off them does; of a time only the moment counts. -/
instance : BEq Certificate where
  beq a b := a.subject == b.subject && a.issuer == b.issuer
    && a.notBefore.moment == b.notBefore.moment && a.notAfter.moment == b.notAfter.moment
    && a.alternateNames == b.alternateNames

def isValidAt (c : Certificate) (now : Moment) : Bool :=
  c.notBefore.moment.before now && now.before c.notAfter.moment

def hostNames (c : Certificate) : List String := c.subject.values "CN" ++ c.alternateNames

def matchesHost (c : Certificate) (host : String) : Bool := Hostname.matchesAny host c.hostNames

end Certificate
end Parley
