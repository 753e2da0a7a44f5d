import Parley.Asn1.Der
import Parley.Text.Hex

/-!
# Object identifiers

An identifier is kept as its encoded octets, so that two are the same exactly when their octets
are. It is shown as numbers between dots.
-/

namespace Parley.Asn1

structure Oid where
  octets : Bytes
deriving DecidableEq, Repr

namespace Oid

def leadingDigits (n : Nat) : Bytes :=
  if n = 0 then [] else leadingDigits (n / 128) ++ [UInt8.ofNat (n % 128 + 128)]

def digits (n : Nat) : Bytes := leadingDigits (n / 128) ++ [UInt8.ofNat (n % 128)]

def ofArcs : List Nat → Oid
  | a :: b :: rest => ⟨UInt8.ofNat (a * 40 + b) :: rest.flatMap digits⟩
  | rest => ⟨rest.map UInt8.ofNat⟩

/-- The numbers in base 128, in words of 64 bits; one whose last digit is missing counts. -/
def numbers (n : Nat) (unfinished : Bool) : Bytes → List Nat
  | [] => if unfinished then [n] else []
  | b :: rest =>
    let n := (n * 128 + b.toNat % 128) % UInt64.size
    if b < 128 then n :: numbers 0 false rest else numbers n true rest

def arcs (o : Oid) : List Nat :=
  match o.octets with
  | [] => []
  | [0] => [0]
  | b :: rest => b.toNat / 40 :: b.toNat % 40 :: numbers 0 false rest

def isWide (length : Nat) : Bytes → Bool
  | [] => false
  | b :: rest => if b < 128 then 9 ≤ length || isWide 0 rest else isWide (length + 1) rest

/-- The numbers between dots, or the octets of an identifier with too large a number. -/
def text (o : Oid) : String :=
  if isWide 0 (o.octets.drop 1) then
    " ".intercalate (o.octets.map fun b => Text.Hex.encode [b])
  else ".".intercalate (o.arcs.map toString)

def subjectAltName : Oid := ofArcs [2, 5, 29, 17]

end Oid

namespace Element

def laxOid : Decoder Oid := do return ⟨(← laxOf Tag.oid).content⟩

end Element
end Parley.Asn1
