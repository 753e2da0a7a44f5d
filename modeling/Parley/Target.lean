import Parley.Error
import Parley.Target.Uri
import Parley.Text.Number

/-!
# Connect targets

What a client connects to: `ws://host:port/path`, or `wss://` for TLS. A port that is absent, or
whose text is no port number, is the default of the scheme.
-/

namespace Parley

structure Target where
  secure : Bool
  host : String
  port : Nat
  uri : Uri
deriving DecidableEq, Repr

namespace Target

inductive Fault where
  | uri (fault : Uri.Fault)
  | scheme (name : String)
  | noScheme
  | noHost
deriving DecidableEq, Repr

def Fault.message (s : String) : Fault → String
  | uri f => "invalid uri " ++ s ++ ": " ++ f.message
  | scheme n => "unsupported scheme " ++ n ++ " in " ++ s
  | noScheme => "missing scheme in " ++ s
  | noHost => "missing host in " ++ s

def defaultPort (secure : Bool) : Nat := if secure then 443 else 80

def secure? (scheme : String) : Option Bool :=
  if scheme == "ws" then some false else if scheme == "wss" then some true else none

def bare (host : List Char) : List Char :=
  ((host.dropWhile (· == '[')).reverse.dropWhile (· == ']')).reverse

def port? (u : Uri) : Option Nat := u.portText?.bind (Text.Number.bounded? 10 65535)

def ofUri (u : Uri) : Except Fault Target :=
  match secure? u.scheme with
  | none => .error (.scheme u.scheme)
  | some secure =>
    if u.host.isEmpty then .error .noHost
    else .ok ⟨secure, .ofList (bare u.host), (port? u).getD (defaultPort secure), u⟩

def read (s : String) : Except Fault Target :=
  match Uri.parse s with
  | .error f => .error (.uri f)
  | .ok none => .error .noScheme
  | .ok (some u) => ofUri u

def parse (s : String) : Except Error Target :=
  (read s).mapError fun f => .transport (f.message s)

def authority (t : Target) : String × Nat := (t.host, t.port)

end Target
end Parley
