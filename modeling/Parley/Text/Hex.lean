import Parley.Bytes
import Parley.Text.Number

/-!
# Hexadecimal text

Two lowercase digits per octet, the high half first; digits of either case are read.
-/

namespace Parley.Text.Hex

def digit (n : Nat) : Char :=
  if n < 10 then Char.ofNat (n + 48) else Char.ofNat (n + 87)

def encode (bytes : Bytes) : String :=
  String.ofList (bytes.flatMap fun b => [digit (b.toNat / 16), digit (b.toNat % 16)])

def decodeChars : List Char → Option Bytes
  | [] => some []
  | [_] => none
  | h :: l :: rest => do
    let high ← Number.digit? 16 h
    let low ← Number.digit? 16 l
    return UInt8.ofNat (high * 16 + low) :: (← decodeChars rest)

def decode? (s : String) : Option Bytes := decodeChars s.toList

def ofNat (n : Nat) : String := String.ofList (Nat.toDigits 16 n)

end Parley.Text.Hex
