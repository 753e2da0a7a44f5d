/-!
# Log levels

Verbosity is a bit mask for each of two classes of events: errors, and accesses (connections opened
and closed, verdicts on certificates). Of the bits that have a meaning the most verbose one wins.
-/

namespace Parley.Logging

inductive Level where
  | error | warn | info | debug | trace
deriving DecidableEq, Repr

namespace Level

def name : Level → String
  | error => "error"
  | warn => "warn"
  | info => "info"
  | debug => "debug"
  | trace => "trace"

def rank : Level → Nat
  | error => 0
  | warn => 1
  | info => 2
  | debug => 3
  | trace => 4

end Level

def accessTarget : String := "communique::access"

def Level.ofMask? (mask : UInt32) : Option Level :=
  [Level.trace, .debug, .info, .warn, .error].find? fun l => mask.toNat.testBit l.rank

structure Levels where
  error : UInt32 := 7
  access : UInt32 := 0
deriving DecidableEq, Repr

namespace Levels

def silent : Levels := ⟨0, 0⟩

def all : Levels := ⟨0xffffffff, 0xffffffff⟩

def default : Levels := {}

def threshold (l : Option Level) : String := (l.map Level.name).getD "off"

def directives (l : Levels) : String :=
  threshold (Level.ofMask? l.error) ++ "," ++ accessTarget ++ "="
    ++ threshold (Level.ofMask? l.access)

end Levels
end Parley.Logging
