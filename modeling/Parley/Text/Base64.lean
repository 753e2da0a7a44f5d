import Parley.Bytes

/-!
# Base64

Four characters of six bits for three octets. `encode` pads the last group; `decode?` reads the
canonical form, where each group of four is whole or padded and the bits behind the last octet are
zero; `decodeLoose?` skips white space, leaves the padding open and ignores those bits.
-/

namespace Parley.Text.Base64

def value? (c : UInt8) : Option Nat :=
  let n := c.toNat
  if 65 ≤ n ∧ n ≤ 90 then some (n - 65)
  else if 97 ≤ n ∧ n ≤ 122 then some (n - 71)
  else if 48 ≤ n ∧ n ≤ 57 then some (n + 4)
  else if n = 43 then some 62
  else if n = 47 then some 63
  else none

def pad : UInt8 := 61

def mark (n : Nat) : UInt8 :=
  UInt8.ofNat (if n < 26 then n + 65 else if n < 52 then n + 71 else if n < 62 then n - 4
    else if n = 62 then 43 else 47)

def marks (n : Nat) : Bytes := [n >>> 18, n >>> 12, n >>> 6, n].map fun k => mark (k % 64)

def encode : Bytes → Bytes
  | a :: b :: c :: rest => marks (Bytes.toNat [a, b, c]) ++ encode rest
  | [a, b] => (marks (Bytes.toNat [a, b, 0])).take 3 ++ [pad]
  | [a] => (marks (Bytes.toNat [a, 0, 0])).take 2 ++ [pad, pad]
  | [] => []

/-- The octets of up to four sextets; bits that fill no octet are dropped. -/
def octets : List Nat → Bytes
  | a :: b :: c :: d :: rest =>
    Bytes.ofNat 3 ((a <<< 18) + (b <<< 12) + (c <<< 6) + d) ++ octets rest
  | [a, b, c] => Bytes.ofNat 2 ((a <<< 10) + (b <<< 4) + (c >>> 2))
  | [a, b] => Bytes.ofNat 1 ((a <<< 2) + (b >>> 4))
  | _ => []

def group? (a b c d : UInt8) : Option (List Nat) := do
  let a ← value? a
  let b ← value? b
  if c = pad ∧ d = pad then (if b % 16 = 0 then some [a, b] else none)
  else
    let c ← value? c
    if d = pad then (if c % 4 = 0 then some [a, b, c] else none)
    else (value? d).map fun d => [a, b, c, d]

def decode? : Bytes → Option Bytes
  | [] => some []
  | a :: b :: c :: d :: rest => do return octets (← group? a b c d) ++ (← decode? rest)
  | _ => none

def isSpace (c : UInt8) : Bool := c == 32 || (9 ≤ c.toNat && c.toNat ≤ 13)

def padding : Nat → List Nat
  | 2 => [0, 2]
  | 3 => [0, 1]
  | _ => [0]

def decodeLoose? (text : Bytes) : Option Bytes := do
  let marks := text.filter (!isSpace ·)
  let body := marks.takeWhile (· != pad)
  let pads := marks.drop body.length
  let sextets ← body.mapM value?
  let last := sextets.length % 4
  if last != 1 && pads.all (· == pad) && (padding last).contains pads.length then
    return octets sextets
  else none

end Parley.Text.Base64
