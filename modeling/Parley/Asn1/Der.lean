import Parley.Bytes

/-!
# DER elements

An encoded value is a tag, a length and a content. Lengths are definite; the strict reader wants
each length in its shortest form and no tag number above thirty, the lax one takes any.
-/

namespace Parley.Asn1

inductive TagClass where
  | universal | application | context | «private»
deriving DecidableEq, Repr

structure Tag where
  kind : TagClass
  constructed : Bool
  number : Nat
deriving DecidableEq, Repr

structure Element where
  tag : Tag
  content : Bytes
  encoding : Bytes
deriving DecidableEq, Repr

abbrev Decoder := StateT Bytes Option

namespace Tag

def boolean : Nat := 1
def integer : Nat := 2
def bitString : Nat := 3
def octetString : Nat := 4
def oid : Nat := 6
def sequence : Nat := 16
def set : Nat := 17
def utcTime : Nat := 23
def generalizedTime : Nat := 24

def kindOf (first : Nat) : TagClass :=
  match first / 64 with
  | 0 => .universal
  | 1 => .application
  | 2 => .context
  | _ => .private

end Tag

namespace Decoder

def octet : Decoder UInt8
  | b :: rest => some (b, rest)
  | [] => none

def octets (n : Nat) : Decoder Bytes := fun input =>
  if n ≤ input.length then some (input.take n, input.drop n) else none

def atEnd : Decoder Bool := fun input => some (input.isEmpty, input)

def within (r : Decoder α) (content : Bytes) : Option α := (r.run content).map (·.1)

def whole (r : Decoder α) (content : Bytes) : Option α :=
  match r.run content with
  | some (a, []) => some a
  | _ => none

def attempt (r : Decoder α) : Decoder (Option α) := fun input =>
  match r.run input with
  | some (a, rest) => some (some a, rest)
  | none => some (none, input)

/-- Reads until the reader fails or takes nothing, at most `limit` times. -/
def manyUpTo (r : Decoder α) : (limit : Nat) → Decoder (List α)
  | 0 => pure []
  | limit + 1 => do
    match ← attempt r with
    | some a => return a :: (← manyUpTo r limit)
    | none => return []

def many (r : Decoder α) : Decoder (List α) := fun input => (manyUpTo r input.length).run input

end Decoder

namespace Tag
open Decoder

def highNumber : (limit : Nat) → (n : Nat) → Decoder Nat
  | 0, _ => failure
  | limit + 1, n => do
    let b ← octet
    let n := (n * 128 + b.toNat % 128) % UInt32.size
    if b < 128 then return n else highNumber limit n

def read (highTags : Bool) : Decoder Tag := do
  let first := (← octet).toNat
  let tag : Tag := ⟨kindOf first, first / 32 % 2 = 1, first % 32⟩
  if tag.number ≠ 31 then return tag
  else if highTags then return { tag with number := ← highNumber 5 0 }
  else failure

end Tag

namespace Element
open Decoder

/-- A length in the short form or, behind a count, in any number of octets up to a value of
eight. -/
def laxLength : Decoder Nat := do
  let first := (← octet).toNat
  if first < 128 then return first
  if first = 128 ∨ first = 255 then failure
  let n := Bytes.toNat (← octets (first - 128))
  if n < UInt64.size then return n else failure

def strictLength : Decoder Nat := do
  let first := (← octet).toNat
  if first < 128 then return first
  let width := first - 128
  if width = 0 ∨ 2 < width then failure
  let n := Bytes.toNat (← octets width)
  if max 128 (1 <<< (8 * (width - 1))) ≤ n ∧ n < 65535 then return n else failure

def readWith (tag : Decoder Tag) (length : Decoder Nat) : Decoder Element := fun input => do
  let ((tag, n), rest) ← (do return (← tag, ← length) : Decoder (Tag × Nat)).run input
  let (content, rest) ← (octets n).run rest
  return (⟨tag, content, input.take (input.length - rest.length)⟩, rest)

def lax : Decoder Element := readWith (Tag.read true) laxLength

def strict : Decoder Element := readWith (Tag.read false) strictLength

def laxOf (number : Nat) : Decoder Element := do
  let e ← lax
  if e.tag.number = number then return e else failure

def strictOf (tag : Tag) : Decoder Bytes := do
  let e ← strict
  if e.tag = tag then return e.content else failure

def natural? : Bytes → Option Nat
  | [] => none
  | [0] => some 0
  | 0 :: b :: rest => if b < 128 then none else some (Bytes.toNat (b :: rest))
  | b :: rest => if b < 128 then some (Bytes.toNat (b :: rest)) else none

end Element

namespace Tag

def universal (number : Nat) : Tag := ⟨.universal, number == sequence || number == set, number⟩

def context (constructed : Bool) (number : Nat) : Tag := ⟨.context, constructed, number⟩

end Tag

namespace Element
open Decoder

def strictIn (tag : Tag) (r : Decoder α) : Decoder α := do whole r (← strictOf tag)

def strictSequence (r : Decoder α) : Decoder α := strictIn (.universal Tag.sequence) r

def strictNatural : Decoder Nat := do natural? (← strictOf (.universal Tag.integer))

def strictByte : Decoder Nat := do
  let n ← strictNatural
  if n < 256 then return n else failure

def strictBitString : Decoder Bytes := do
  match ← strictOf (.universal Tag.bitString) with
  | 0 :: bits => return bits
  | _ => failure

def peek (tag : Tag) : Decoder Bool := fun input =>
  some ((Tag.read false).within input == some tag, input)

def strictFlag : Decoder Bool := do
  if ← peek (.universal Tag.boolean) then
    match ← strictOf (.universal Tag.boolean) with
    | [255] => return true
    | [0] => return false
    | _ => failure
  else return false

def lengthOctets (n : Nat) : Bytes :=
  if n < 128 then [UInt8.ofNat n]
  else
    let width := (List.range 8).filter (fun i => 1 <<< (8 * i) ≤ n) |>.length
    UInt8.ofNat (128 + width) :: Bytes.ofNat width n

def encode (tag : UInt8) (content : Bytes) : Bytes := tag :: lengthOctets content.length ++ content

def encodeSequence (parts : List Bytes) : Bytes := encode 48 parts.flatten

end Element
end Parley.Asn1
