import Parley.Bytes

/-!
# Elliptic curves

The curves y² = x³ + ax + b over a prime field that are used for signatures, with a generator of
prime order. Points have three coordinates: x / z² and y / z³ are those of the plane, and z is zero
at infinity.
-/

namespace Parley.Crypto

def powMod (m base exponent : Nat) : Nat :=
  if exponent = 0 then 1 % m
  else
    let half := powMod m (base * base % m) (exponent / 2)
    if exponent % 2 = 1 then half * base % m else half
termination_by exponent

def inverse (prime n : Nat) : Nat := powMod prime n (prime - 2)

structure Curve where
  prime : Nat
  a : Nat
  b : Nat
  order : Nat
  gx : Nat
  gy : Nat
  size : Nat

structure Point where
  x : Nat
  y : Nat
  z : Nat
deriving Repr

namespace Point

def infinity : Point := ⟨1, 1, 0⟩

def ofPlane (x y : Nat) : Point := ⟨x, y, 1⟩

end Point

namespace Curve

def mul (c : Curve) (m n : Nat) : Nat := m * n % c.prime

def sub (c : Curve) (m n : Nat) : Nat := (m + (c.prime - n % c.prime)) % c.prime

def double (c : Curve) (p : Point) : Point :=
  if p.z = 0 ∨ p.y = 0 then .infinity
  else
    let yy := c.mul p.y p.y
    let s := c.mul 4 (c.mul p.x yy)
    let zz := c.mul p.z p.z
    let m := (3 * (p.x * p.x) + c.a * c.mul zz zz) % c.prime
    let x := c.sub (m * m) (2 * s)
    ⟨x, c.sub (m * c.sub s x) (8 * (yy * yy)), c.mul 2 (p.y * p.z)⟩

def add (c : Curve) (p q : Point) : Point :=
  if p.z = 0 then q
  else if q.z = 0 then p
  else
    let pzz := c.mul p.z p.z
    let qzz := c.mul q.z q.z
    let u := c.mul p.x qzz
    let s := c.mul p.y (qzz * q.z)
    let h := c.sub (c.mul q.x pzz) u
    let r := c.sub (c.mul q.y (pzz * p.z)) s
    if h = 0 then if r = 0 then c.double p else .infinity
    else
      let hh := c.mul h h
      let uhh := c.mul u hh
      let hhh := c.mul h hh
      let x := c.sub (r * r) (hhh + 2 * uhh)
      ⟨x, c.sub (r * c.sub uhh x) (s * hhh), c.mul h (p.z * q.z)⟩

def scale (c : Curve) (n : Nat) (p : Point) : Point :=
  if n = 0 then .infinity
  else
    let half := c.scale (n / 2) (c.double p)
    if n % 2 = 1 then c.add half p else half
termination_by n

def generator (c : Curve) : Point := .ofPlane c.gx c.gy

def plane? (c : Curve) (p : Point) : Option (Nat × Nat) :=
  if p.z = 0 then none
  else
    let i := inverse c.prime p.z
    let ii := c.mul i i
    some (c.mul p.x ii, c.mul p.y (ii * i))

def contains (c : Curve) (x y : Nat) : Bool :=
  x < c.prime && y < c.prime && c.mul y y == (x * x * x + c.a * x + c.b) % c.prime

def encode (c : Curve) (x y : Nat) : Bytes := 4 :: Bytes.ofNat c.size x ++ Bytes.ofNat c.size y

def decode? (c : Curve) : Bytes → Option Point
  | 4 :: rest =>
    let x := Bytes.toNat (rest.take c.size)
    let y := Bytes.toNat (rest.drop c.size)
    if rest.length = 2 * c.size && c.contains x y then some (.ofPlane x y) else none
  | _ => none

def publicKey? (c : Curve) (secret : Nat) : Option Bytes :=
  if 0 < secret ∧ secret < c.order then
    (c.plane? (c.scale secret c.generator)).map fun (x, y) => c.encode x y
  else none

def p256 : Curve where
  prime := 0xffffffff00000001000000000000000000000000ffffffffffffffffffffffff
  a := 0xffffffff00000001000000000000000000000000fffffffffffffffffffffffc
  b := 0x5ac635d8aa3a93e7b3ebbd55769886bc651d06b0cc53b0f63bce3c3e27d2604b
  order := 0xffffffff00000000ffffffffffffffffbce6faada7179e84f3b9cac2fc632551
  gx := 0x6b17d1f2e12c4247f8bce6e563a440f277037d812deb33a0f4a13945d898c296
  gy := 0x4fe342e2fe1a7f9b8ee7eb4a7c0f9e162bce33576b315ececbb6406837bf51f5
  size := 32

def p384 : Curve where
  prime := 0xfffffffffffffffffffffffffffffffffffffffffffffffffffffffffffffffeffffffff0000000000000000ffffffff
  a := 0xfffffffffffffffffffffffffffffffffffffffffffffffffffffffffffffffeffffffff0000000000000000fffffffc
  b := 0xb3312fa7e23ee7e4988e056be3f82d19181d9c6efe8141120314088f5013875ac656398d8a2ed19d2a85c8edd3ec2aef
  order := 0xffffffffffffffffffffffffffffffffffffffffffffffffc7634d81f4372ddf581a0db248b0a77aecec196accc52973
  gx := 0xaa87ca22be8b05378eb1c71ef320ad746e1d3b628ba79b9859f741e082542a385502f25dbf55296c3a545e3872760ab7
  gy := 0x3617de4a96262c6f5d9e98bf9292dc29f8f41dbd289a147ce9da3113b5f0b8c00a60b1ce1d7e819d7a431d7c90ea0e5f
  size := 48

end Curve
end Parley.Crypto
