import Parley.Bytes

/-!
# UTF-8 with errors mended

Every octet string is read as text: a well formed sequence is its character, and the longest start
of one that does not go on is one replacement character.
-/

namespace Parley.Text.Utf8

def replacement : Char := '\ufffd'

/-- What may follow a first octet: how many octets, and the least and greatest that the second may
be. The others are any continuation octets. -/
def shape? (first : Nat) : Option (Nat × Nat × Nat) :=
  if first < 0x80 then some (0, 0x80, 0xbf)
  else if first < 0xc2 then none
  else if first < 0xe0 then some (1, 0x80, 0xbf)
  else if first = 0xe0 then some (2, 0xa0, 0xbf)
  else if first = 0xed then some (2, 0x80, 0x9f)
  else if first < 0xf0 then some (2, 0x80, 0xbf)
  else if first = 0xf0 then some (3, 0x90, 0xbf)
  else if first < 0xf4 then some (3, 0x80, 0xbf)
  else if first = 0xf4 then some (3, 0x80, 0x8f)
  else none

def continuation (lo hi : Nat) : (extra : Nat) → Bytes → Bytes
  | 0, _ => []
  | _, [] => []
  | extra + 1, b :: rest =>
    if lo ≤ b.toNat ∧ b.toNat ≤ hi then b :: continuation 0x80 0xbf extra rest else []

def codePoint (first extra : Nat) (tail : Bytes) : Nat :=
  let high := if extra = 0 then first else first % (1 <<< (6 - extra))
  tail.foldl (fun n b => n * 64 + b.toNat % 64) high

def next (first : UInt8) (rest : Bytes) : Char × Nat :=
  match shape? first.toNat with
  | none => (replacement, 0)
  | some (extra, lo, hi) =>
    let tail := continuation lo hi extra rest
    if tail.length = extra then (Char.ofNat (codePoint first.toNat extra tail), extra)
    else (replacement, tail.length)

def lossyChars : Bytes → List Char
  | [] => []
  | b :: rest => (next b rest).1 :: lossyChars (rest.drop (next b rest).2)
termination_by bytes => bytes.length
decreasing_by
  simp only [List.length_drop, List.length_cons]
  omega

def lossy (bytes : Bytes) : String := .ofList (lossyChars bytes)

end Parley.Text.Utf8
