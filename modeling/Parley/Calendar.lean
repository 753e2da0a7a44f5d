/-!
# Moments and civil time

A moment is a point on the time line, in seconds since 1970 and a fraction; a civil time is what a
clock and a calendar show at some distance from UTC. Validity compares moments; messages show the
civil time as it was written.
-/

namespace Parley

structure Moment where
  seconds : Int
  nanos : Nat := 0
deriving DecidableEq, Repr

namespace Moment

def before (a b : Moment) : Bool :=
  decide (a.seconds < b.seconds ∨ a.seconds = b.seconds ∧ a.nanos < b.nanos)

end Moment

/-- `offset` is how many seconds the clock is ahead of UTC. -/
structure CivilTime where
  year : Nat
  month : Nat
  day : Nat
  hour : Nat
  minute : Nat
  second : Nat := 0
  nanos : Nat := 0
  offset : Int := 0
deriving DecidableEq, Repr

namespace CivilTime

def isLeap (year : Nat) : Bool := year % 4 == 0 && (year % 100 != 0 || year % 400 == 0)

def daysInMonth (year : Nat) : (month : Nat) → Nat
  | 2 => if isLeap year then 29 else 28
  | 4 | 6 | 9 | 11 => 30
  | _ => 31

def exists? (t : CivilTime) : Bool :=
  1 ≤ t.month && t.month ≤ 12 && 1 ≤ t.day && t.day ≤ daysInMonth t.year t.month
    && t.hour ≤ 23 && t.minute ≤ 59 && t.second ≤ 59

def dayNumber (t : CivilTime) : Nat :=
  let leaps :=
    if t.year = 0 then 0 else (t.year - 1) / 4 - (t.year - 1) / 100 + (t.year - 1) / 400 + 1
  let months := (List.range' 1 (t.month - 1)).map (daysInMonth t.year)
  t.year * 365 + leaps + months.foldl (· + ·) 0 + (t.day - 1)

def epoch : Nat := 719528

def moment (t : CivilTime) : Moment :=
  let days : Int := (t.dayNumber : Int) - epoch
  ⟨days * 86400 + ((t.hour * 60 + t.minute) * 60 + t.second : Nat) - t.offset, t.nanos⟩

def padded (width n : Nat) : String :=
  let digits := toString n
  .ofList (List.replicate (width - digits.length) '0') ++ digits

def fraction (nanos : Nat) : String :=
  match ((padded 9 nanos).toList.reverse.dropWhile (· == '0')).reverse with
  | [] => "0"
  | digits => .ofList digits

def offsetText (offset : Int) : String :=
  let n := offset.natAbs
  (if offset < 0 then "-" else "+") ++ padded 2 (n / 3600) ++ ":" ++ padded 2 (n / 60 % 60) ++ ":"
    ++ padded 2 (n % 60)

def text (t : CivilTime) : String :=
  padded 4 t.year ++ "-" ++ padded 2 t.month ++ "-" ++ padded 2 t.day ++ " " ++ toString t.hour
    ++ ":" ++ padded 2 t.minute ++ ":" ++ padded 2 t.second ++ "." ++ fraction t.nanos ++ " "
    ++ offsetText t.offset

end CivilTime
end Parley
