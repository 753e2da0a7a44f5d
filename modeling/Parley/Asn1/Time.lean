import Parley.Asn1.Der
import Parley.Calendar

/-!
# Times in certificates

A UTCTime has two digits of the year, from 1950 to 2049, and may tell its distance from UTC; a
GeneralizedTime has four and up to three decimals of a second, and is always UTC.
-/

namespace Parley.Asn1.Time
open Decoder

def digit : Decoder Nat := do
  let b := (← octet).toNat
  if 48 ≤ b ∧ b ≤ 57 then return b - 48 else failure

def twoDigits : Decoder Nat := do return (← digit) * 10 + (← digit)

def mark (c : Char) : Decoder Unit := do
  if (← octet).toNat = c.toNat then return else failure

def seconds : Decoder Nat := fun input =>
  match input with
  | [_] => some (0, input)
  | input => twoDigits.run input

def decimals : Decoder Nat := do
  match ← attempt (mark '.') with
  | none => return 0
  | some () =>
    let ds ← manyUpTo digit 3
    return (ds.zip [100000000, 10000000, 1000000]).foldl (fun n (d, unit) => n + d * unit) 0

/-- The distance from UTC in seconds; the sign counts for the minutes only behind hours. -/
def zone : Decoder Int := do
  match ← attempt (mark 'Z') with
  | some () => return 0
  | none =>
    let west ← attempt (mark '-')
    if west.isNone then mark '+'
    let h ← twoDigits
    let m ← twoDigits
    if 25 < h ∨ 59 < m then failure
    let size : Int := h * 3600 + m * 60
    return if west.isSome ∧ h ≠ 0 then -size else size

def fromYear (year : Nat) : Decoder CivilTime := do
  return ⟨year, ← twoDigits, ← twoDigits, ← twoDigits, ← twoDigits, 0, 0, 0⟩

def checked (t : CivilTime) : Option CivilTime := if t.exists? then some t else none

def ofUtc? (content : Bytes) : Option CivilTime := do
  let t ← whole (do
    let year ← twoDigits
    let t ← fromYear (if year < 50 then year + 2000 else year + 1900)
    return { t with second := ← seconds, offset := ← zone }) content
  checked t

def ofGeneralized? (content : Bytes) : Option CivilTime := do
  let t ← whole (do
    let year := (← twoDigits) * 100 + (← twoDigits)
    let t ← fromYear year
    let t := { t with second := ← seconds, nanos := ← decimals }
    mark 'Z'
    return t) content
  checked t

def lax : Decoder CivilTime := do
  let e ← Element.lax
  if e.tag.number = Tag.utcTime then ofUtc? e.content
  else if e.tag.number = Tag.generalizedTime then ofGeneralized? e.content
  else failure

end Parley.Asn1.Time
