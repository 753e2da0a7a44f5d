import Parley.Text.Hex
import Parley.Text.Number

/-!
# Socket addresses

An IP address with a port, read from and written to text: `a.b.c.d:port`, `[v6]:port` and
`[v6%scope]:port`.

A written IPv6 address has its longest run of two or more zero groups, the first of equals, as
`::`, and shows an address that stands for an IPv4 one with its four decimal octets.
-/

namespace Parley

structure Ipv4 where
  a : Nat
  b : Nat
  c : Nat
  d : Nat
deriving DecidableEq, Repr

structure Ipv6 where
  groups : List Nat
deriving DecidableEq, Repr

inductive SocketAddress where
  | v4 (ip : Ipv4) (port : Nat)
  | v6 (ip : Ipv6) (scope : Nat) (port : Nat)
deriving DecidableEq, Repr

abbrev Reader (α : Type) := List Char → Option (α × List Char)

namespace Reader

def char (c : Char) : Reader Unit
  | x :: rest => if x = c then some ((), rest) else none
  | [] => none

/-- All digits in front, no more than `width` of them when it is given, at most `limit`. A zero in
front of other digits needs `padded`. -/
def number (base limit : Nat) (width : Option Nat) (padded : Bool) : Reader Nat := fun cs =>
  let digits := cs.takeWhile fun c => (Text.Number.digit? base c).isSome
  let fits := width.all fun w => digits.length ≤ w
  let plain := padded || digits.length ≤ 1 || digits.head? != some '0'
  if fits && plain then
    ((Text.Number.read? base digits).filter (· ≤ limit)).map fun n => (n, cs.drop digits.length)
  else none

def separated (sep : Char) (first : Bool) (r : Reader α) : Reader α := fun cs =>
  if first then r cs else (char sep cs).bind fun (_, cs) => r cs

end Reader

namespace Ipv4

def reader : Reader Ipv4 := fun cs => do
  let octet := Reader.number 10 255 (some 3) false
  let (a, cs) ← octet cs
  let (b, cs) ← Reader.separated '.' false octet cs
  let (c, cs) ← Reader.separated '.' false octet cs
  let (d, cs) ← Reader.separated '.' false octet cs
  return (⟨a, b, c, d⟩, cs)

def text (ip : Ipv4) : String := ".".intercalate ([ip.a, ip.b, ip.c, ip.d].map toString)

end Ipv4

namespace Ipv6

/-- Up to `limit` groups in front of the text. An IPv4 address may stand for the last two; then
there are no more, and the flag is set. -/
def groupsFrom (first : Bool) : (limit : Nat) → List Char → List Nat × Bool × List Char
  | 0, cs => ([], false, cs)
  | limit + 1, cs =>
    let embedded := if 0 < limit then Reader.separated ':' first Ipv4.reader cs else none
    match embedded with
    | some (⟨a, b, c, d⟩, cs) => ([a * 256 + b, c * 256 + d], true, cs)
    | none =>
      match Reader.separated ':' first (Reader.number 16 0xffff (some 4) true) cs with
      | some (g, cs) =>
        let (gs, ended, cs) := groupsFrom false limit cs
        (g :: gs, ended, cs)
      | none => ([], false, cs)

def reader : Reader Ipv6 := fun cs => do
  let (head, ended, cs) := groupsFrom true 8 cs
  if head.length = 8 then return (⟨head⟩, cs)
  if ended then none
  let (_, cs) ← Reader.char ':' cs
  let (_, cs) ← Reader.char ':' cs
  let (tail, _, cs) := groupsFrom true (8 - (head.length + 1)) cs
  return (⟨head ++ List.replicate (8 - head.length - tail.length) 0 ++ tail⟩, cs)

def zeroRuns : List Nat → List Nat
  | [] => []
  | g :: rest =>
    let runs := zeroRuns rest
    (if g = 0 then runs.headD 0 + 1 else 0) :: runs

def groupsText (gs : List Nat) : String := ":".intercalate (gs.map Text.Hex.ofNat)

def text (ip : Ipv6) : String :=
  match ip.groups with
  | [0, 0, 0, 0, 0, 0xffff, a, b] =>
    "::ffff:" ++ (Ipv4.mk (a / 256) (a % 256) (b / 256) (b % 256)).text
  | gs =>
    let runs := zeroRuns gs
    let longest := runs.foldl max 0
    if longest ≤ 1 then groupsText gs
    else
      let start := runs.idxOf longest
      groupsText (gs.take start) ++ "::" ++ groupsText (gs.drop (start + longest))

end Ipv6

namespace SocketAddress

def port : SocketAddress → Nat
  | v4 _ p => p
  | v6 _ _ p => p

def ip : SocketAddress → String
  | v4 ip _ => ip.text
  | v6 ip _ _ => ip.text

def isV6 : SocketAddress → Bool
  | v4 .. => false
  | v6 .. => true

def portReader : Reader Nat := Reader.separated ':' false (Reader.number 10 65535 none true)

def reader4 : Reader SocketAddress := fun cs => do
  let (ip, cs) ← Ipv4.reader cs
  let (port, cs) ← portReader cs
  return (v4 ip port, cs)

def reader6 : Reader SocketAddress := fun cs => do
  let (_, cs) ← Reader.char '[' cs
  let (ip, cs) ← Ipv6.reader cs
  let tagged := Reader.separated '%' false (Reader.number 10 0xffffffff none true) cs
  let (scope, cs) := tagged.getD (0, cs)
  let (_, cs) ← Reader.char ']' cs
  let (port, cs) ← portReader cs
  return (v6 ip scope port, cs)

def parse? (s : String) : Option SocketAddress :=
  let cs := s.toList
  match reader4 cs <|> reader6 cs with
  | some (a, []) => some a
  | _ => none

def text : SocketAddress → String
  | v4 ip port => ip.text ++ ":" ++ toString port
  | v6 ip scope port =>
    let tag := if scope = 0 then "" else "%" ++ toString scope
    "[" ++ ip.text ++ tag ++ "]:" ++ toString port

end SocketAddress
end Parley
