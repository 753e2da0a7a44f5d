import Parley.Bytes

/-!
# SHA-1

Good enough to show that a peer has read a key, which is all that the upgrade to WebSocket asks.
-/

namespace Parley.Crypto.Sha1

def word (n : Nat) : Nat := n % UInt32.size

def rotate (x n : Nat) : Nat := word (x <<< n) ||| (x >>> (32 - n))

structure State where
  a : Nat
  b : Nat
  c : Nat
  d : Nat
  e : Nat

def start : State := ⟨0x67452301, 0xefcdab89, 0x98badcfe, 0x10325476, 0xc3d2e1f0⟩

/-- What a round adds: a function of three words and a constant, one pair for each twenty rounds. -/
def mix (i b c d : Nat) : Nat :=
  if i < 20 then ((b &&& c) ||| ((UInt32.size - 1 - b) &&& d)) + 0x5a827999
  else if i < 40 then (b ^^^ c ^^^ d) + 0x6ed9eba1
  else if i < 60 then ((b &&& c) ||| (b &&& d) ||| (c &&& d)) + 0x8f1bbcdc
  else (b ^^^ c ^^^ d) + 0xca62c1d6

def round (i input : Nat) (s : State) : State :=
  ⟨word (rotate s.a 5 + mix i s.b s.c s.d + s.e + input), s.a, rotate s.b 30, s.c, s.d⟩

def run : (left i : Nat) → (window : Array Nat) → State → State
  | 0, _, _, s => s
  | left + 1, i, window, s =>
    let entry (k : Nat) : Nat := window.getD k 0
    let next := rotate (entry 13 ^^^ entry 8 ^^^ entry 2 ^^^ entry 0) 1
    run left (i + 1) ((window.extract 1 16).push next) (round i (entry 0) s)

def words : (count : Nat) → Bytes → List Nat
  | 0, _ => []
  | count + 1, b => Bytes.toNat (b.take 4) :: words count (b.drop 4)

def compress (s : State) (block : Bytes) : State :=
  let t := run 80 0 (words 16 block).toArray s
  ⟨word (s.a + t.a), word (s.b + t.b), word (s.c + t.c), word (s.d + t.d), word (s.e + t.e)⟩

def blocks : (count : Nat) → Bytes → State → State
  | 0, _, s => s
  | count + 1, b, s => blocks count (b.drop 64) (compress s (b.take 64))

def padded (message : Bytes) : Bytes :=
  let zeros := (64 - (message.length + 9) % 64) % 64
  message ++ 0x80 :: List.replicate zeros 0 ++ Bytes.ofNat 8 (message.length * 8)

def digest (message : Bytes) : Bytes :=
  let input := padded message
  let s := blocks (input.length / 64) input start
  [s.a, s.b, s.c, s.d, s.e].flatMap (Bytes.ofNat 4)

end Parley.Crypto.Sha1
