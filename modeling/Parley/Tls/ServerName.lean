import Parley.Address
import Parley.Error
import Parley.Hostname

/-!
# Server names

What a TLS client can ask for by name: a DNS name or an IP address.
-/

namespace Parley.Tls.ServerName

def maxLabel : Nat := 63
def maxName : Nat := 253

def isLabelChar (c : Char) : Bool := c.isAlphanum || c == '_' || c == '-'

def isLabel (l : List Char) : Bool :=
  !l.isEmpty && l.length ≤ maxLabel && l.all isLabelChar && l.head? != some '-'
    && l.getLast? != some '-'

def isDnsName (s : String) : Bool :=
  let labels := Hostname.labels s.toList
  let named := if labels.getLast? == some [] then labels.dropLast else labels
  s.utf8ByteSize ≤ maxName && named.all isLabel && named.getLast?.any fun l => !l.all Char.isDigit

def isIp (s : String) : Bool :=
  let whole {α : Type} (r : Reader α) : Bool := (r s.toList).any fun (_, rest) => rest.isEmpty
  whole Ipv4.reader || whole Ipv6.reader

def check (s : String) : Except Error Unit :=
  if isDnsName s || isIp s then .ok ()
  else .error (.transport "invalid server name: invalid dns name")

end Parley.Tls.ServerName
