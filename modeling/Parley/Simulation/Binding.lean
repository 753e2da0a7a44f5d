import Parley.Address
import Parley.Error
import Parley.Text.Number

/-!
# Addresses to listen on

What a text comes to that says where to listen, on a machine that has its loopback addresses only.
-/

namespace Parley.Simulation.Binding

def isLocal : SocketAddress → Bool
  | .v4 ip _ => ip.a = 127 || ip = ⟨0, 0, 0, 0⟩
  | .v6 ip _ _ => ip.groups.take 7 == List.replicate 7 0 && ip.groups.getLastD 2 ≤ 1

def lookup? (host : String) (port : Nat) : Option SocketAddress :=
  if host == "localhost" then some (.v4 ⟨127, 0, 0, 1⟩ port)
  else
    match Ipv4.reader host.toList, Ipv6.reader host.toList with
    | some (ip, []), _ => some (.v4 ip port)
    | _, some (ip, []) => some (.v6 ip 0 port)
    | _, _ => none

def resolve (s : String) : Except Error SocketAddress :=
  match s.splitOn ":" with
  | [] | [_] => .error (.transport "invalid socket address")
  | parts =>
    match Text.Number.bounded? 10 65535 (parts.getLastD "").toList with
    | none => .error (.transport "invalid port value")
    | some port =>
      match lookup? (":".intercalate parts.dropLast) port with
      | some a => .ok a
      | none => .error (.transport
          "failed to lookup address information: Name or service not known")

def withPort (port : Nat) : SocketAddress → SocketAddress
  | .v4 ip _ => .v4 ip port
  | .v6 ip scope _ => .v6 ip scope port

def isAny (a : SocketAddress) : Bool := a.ip == "0.0.0.0" || a.ip == "::"

def clashes (a b : SocketAddress) : Bool :=
  a.port = b.port && (a.ip == b.ip || (a.isV6 == b.isV6 && (isAny a || isAny b))
    || a.ip == "::" || b.ip == "::")

def bind (s : String) (taken : List SocketAddress) (free : Nat) : Except Error SocketAddress := do
  let a ← match SocketAddress.parse? s with
    | some a => .ok a
    | none => resolve s
  unless isLocal a do throw (.transport "Cannot assign requested address (os error 99)")
  if a.port = 0 then return withPort free a
  if taken.any (clashes a) then throw (.transport "Address already in use (os error 98)")
  return a

end Parley.Simulation.Binding
