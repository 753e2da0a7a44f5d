/-!
# Errors

What can go wrong, by cause, with the stable code of each cause and the sentence that reports it.
-/

namespace Parley

/-- The stable name of a class of errors; callers match on it, never on the sentence. -/
inductive Code where
  | transport | format | capacity | notFound | certificate | verification | notConnected | config
deriving DecidableEq, Repr

inductive Error where
  | transport (text : String)
  | format (text : String)
  | capacity
  | notFound (text : String)
  | certificate (text : String)
  | verification (text : String)
  | notConnected
  | config (text : String)
deriving DecidableEq, Repr

namespace Code

def name : Code → String
  | transport => "TRANSPORT"
  | format => "FORMAT"
  | capacity => "CAPACITY"
  | notFound => "NOT_FOUND"
  | certificate => "CERTIFICATE"
  | verification => "VERIFICATION"
  | notConnected => "NOT_CONNECTED"
  | config => "CONFIG"

theorem name_injective {a b : Code} (h : a.name = b.name) : a = b := by
  revert h; cases a <;> cases b <;> decide

end Code

namespace Error

def code : Error → Code
  | transport _ => .transport
  | format _ => .format
  | capacity => .capacity
  | notFound _ => .notFound
  | certificate _ => .certificate
  | verification _ => .verification
  | notConnected => .notConnected
  | config _ => .config

def message : Error → String
  | transport t => "transport error: " ++ t
  | format t => "malformed envelope: " ++ t
  | capacity => "no free correlation token"
  | notFound t => "not found: " ++ t
  | certificate t => "certificate error: " ++ t
  | verification t => "verification failed: " ++ t
  | notConnected => "not connected"
  | config t => "invalid config: " ++ t

end Error
end Parley
