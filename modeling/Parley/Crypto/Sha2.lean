import Parley.Bytes

/-!
# SHA-2

One compression for all members of the family; a member fixes the size of a word, the rotations and
the number of rounds. The constants are the first bits behind the point of the cube roots and square
roots of the primes.
-/

namespace Parley.Crypto.Sha2

def primes : List Nat :=
  (List.range 410).filter fun n => 2 ≤ n && (List.range n).all fun d => d < 2 || n % d != 0

/-- The greatest number of so many bits whose `k`-th power is at most `n`, from its high part. -/
def rootFrom (k n : Nat) : (bits high : Nat) → Nat
  | 0, high => high
  | bits + 1, high =>
    let candidate := high + (1 <<< bits)
    rootFrom k n bits (if Nat.pow candidate k ≤ n then candidate else high)

def rootBits (k bits n : Nat) : Nat := rootFrom k (n <<< (bits * k)) (bits + 8) 0 % (1 <<< bits)

structure Mix where
  first : Nat
  second : Nat
  last : Nat
  shifts : Bool

structure Variant where
  bits : Nat
  rounds : List Nat
  start : List Nat
  schedule0 : Mix
  schedule1 : Mix
  round0 : Mix
  round1 : Mix
  digestSize : Nat

structure State where
  a : Nat
  b : Nat
  c : Nat
  d : Nat
  e : Nat
  f : Nat
  g : Nat
  h : Nat

namespace State

def toList (s : State) : List Nat := [s.a, s.b, s.c, s.d, s.e, s.f, s.g, s.h]

def ofList : List Nat → State
  | [a, b, c, d, e, f, g, h] => ⟨a, b, c, d, e, f, g, h⟩
  | _ => ⟨0, 0, 0, 0, 0, 0, 0, 0⟩

end State

namespace Variant

def word (v : Variant) (n : Nat) : Nat := n % (1 <<< v.bits)

def rotate (v : Variant) (x n : Nat) : Nat := (x >>> n) ||| v.word (x <<< (v.bits - n))

def mix (v : Variant) (m : Mix) (x : Nat) : Nat :=
  v.rotate x m.first ^^^ v.rotate x m.second ^^^
    (if m.shifts then x >>> m.last else v.rotate x m.last)

def width (v : Variant) : Nat := v.bits / 8

def blockSize (v : Variant) : Nat := 16 * v.width

def padded (v : Variant) (message : Bytes) : Bytes :=
  let used := message.length + 1 + 2 * v.width
  let zeros := (v.blockSize - used % v.blockSize) % v.blockSize
  message ++ 0x80 :: List.replicate zeros 0 ++ Bytes.ofNat (2 * v.width) (message.length * 8)

def nextWord (v : Variant) (window : Array Nat) : Nat :=
  let entry (i : Nat) : Nat := window.getD i 0
  v.word (v.mix v.schedule1 (entry 14) + entry 9 + v.mix v.schedule0 (entry 1) + entry 0)

def round (v : Variant) (input : Nat) (s : State) : State :=
  let choice := (s.e &&& s.f) ^^^ (((1 <<< v.bits) - 1 - s.e) &&& s.g)
  let majority := (s.a &&& s.b) ^^^ (s.a &&& s.c) ^^^ (s.b &&& s.c)
  let t := s.h + v.mix v.round1 s.e + choice + input
  ⟨v.word (t + v.mix v.round0 s.a + majority), s.a, s.b, s.c, v.word (s.d + t), s.e, s.f, s.g⟩

def run (v : Variant) : (constants : List Nat) → (window : Array Nat) → State → State
  | [], _, s => s
  | k :: rest, window, s =>
    run v rest ((window.extract 1 16).push (v.nextWord window)) (v.round (k + window.getD 0 0) s)

def words (v : Variant) : (count : Nat) → Bytes → List Nat
  | 0, _ => []
  | count + 1, b => Bytes.toNat (b.take v.width) :: v.words count (b.drop v.width)

def compress (v : Variant) (s : State) (block : Bytes) : State :=
  let t := v.run v.rounds (v.words 16 block).toArray s
  .ofList (List.zipWith (fun a b => v.word (a + b)) s.toList t.toList)

def blocks (v : Variant) : (count : Nat) → Bytes → State → State
  | 0, _, s => s
  | count + 1, b, s => blocks v count (b.drop v.blockSize) (v.compress s (b.take v.blockSize))

def digest (v : Variant) (message : Bytes) : Bytes :=
  let input := v.padded message
  let s := v.blocks (input.length / v.blockSize) input (.ofList v.start)
  (s.toList.flatMap fun w => Bytes.ofNat v.width w).take v.digestSize

def sha256 : Variant where
  bits := 32
  rounds := (primes.take 64).map (rootBits 3 32)
  start := (primes.take 8).map (rootBits 2 32)
  schedule0 := ⟨7, 18, 3, true⟩
  schedule1 := ⟨17, 19, 10, true⟩
  round0 := ⟨2, 13, 22, false⟩
  round1 := ⟨6, 11, 25, false⟩
  digestSize := 32

def sha384 : Variant where
  bits := 64
  rounds := (primes.take 80).map (rootBits 3 64)
  start := ((primes.drop 8).take 8).map (rootBits 2 64)
  schedule0 := ⟨1, 8, 7, true⟩
  schedule1 := ⟨19, 61, 6, true⟩
  round0 := ⟨28, 34, 39, false⟩
  round1 := ⟨14, 18, 41, false⟩
  digestSize := 48

end Variant
end Parley.Crypto.Sha2
