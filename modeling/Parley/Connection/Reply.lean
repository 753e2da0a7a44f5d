import Parley.Envelope
import Parley.Text.Utf8

/-!
# Replies

How a request comes out: where its handler ran, and where the reply arrives.
-/

namespace Parley

inductive Outcome where
  | done (body : Bytes)
  | failed (text : String)
  | panicked (text : Option String)
deriving DecidableEq, Repr

namespace Outcome

def noHandler : String := "No request handler set"

def unknownFailure : String := "Unknown failure"

def envelope (id : UInt32) : Outcome → Envelope
  | done body => .response id body
  | failed text => .requestError id (Bytes.ofString text)
  | panicked text => .requestError id (Bytes.ofString (text.getD unknownFailure))

end Outcome

inductive Reply where
  | ok (body : Bytes)
  | failed (body : Bytes)
deriving DecidableEq, Repr

namespace Reply

/-- The failure in words; octets that are no text are replaced. -/
def reason (body : Bytes) : String := Text.Utf8.lossy body

def message (body : Bytes) : String := "peer failed request: " ++ reason body

end Reply

def Outcome.reply : Outcome → Reply
  | done body => .ok body
  | failed text => .failed (Bytes.ofString text)
  | panicked text => .failed (Bytes.ofString (text.getD unknownFailure))

end Parley
