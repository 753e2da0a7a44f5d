import Parley.Disk
import Parley.Error
import Parley.Text.Quoted

/-!
# TLS settings

Where each piece of TLS material comes from, and what a peer's certificate has to satisfy. Material
is read when a connection or a listener is set up, not when it is named here.
-/

namespace Parley.Tls

inductive Source where
  | file (path : String)
  | memory (pem : Bytes)
deriving DecidableEq, Repr

namespace Source

def text : Source → String
  | file p => p
  | memory b => s!"<{b.length} bytes in memory>"

def load (disk : Disk) : Source → Except Error Bytes
  | file p => (disk p).mapError fun f => .certificate ("cannot read " ++ p ++ ": " ++ f.message)
  | memory b => .ok b

def inspect : Source → String
  | file p => "File(" ++ Text.Quoted.quote p ++ ")"
  | memory b => "Memory([" ++ ", ".intercalate (b.map fun x => toString x.toNat) ++ "])"

end Source

/-- A certificate chain and its private key make an identity; `verify` names the trust anchors; DH
parameters are looked at by a server and not used. The predicate `υ` has the last word on every
certificate of a peer. -/
structure Settings (υ : Type u) where
  chain : Option Source := none
  key : Option Source := none
  verify : Option Source := none
  dh : Option Source := none
  hostname : Option String := none
  user : Option υ := none

namespace Settings
variable {υ : Type u}

instance : Inhabited (Settings υ) := ⟨{}⟩

def inspect (s : Settings υ) : String :=
  let source (o : Option Source) : String := Text.Quoted.optional (o.map Source.inspect)
  "TlsSettings \x7b certificate_chain: " ++ source s.chain
    ++ ", private_key: " ++ Text.Quoted.optional (s.key.map fun _ => "\"<redacted>\"")
    ++ ", verify: " ++ source s.verify
    ++ ", dh_params: " ++ source s.dh
    ++ ", required_hostname: " ++ Text.Quoted.optional (s.hostname.map Text.Quoted.quote)
    ++ ", user_verification: " ++ toString s.user.isSome ++ " \x7d"

end Settings
end Parley.Tls
