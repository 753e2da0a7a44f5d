import Parley.Bytes
import Parley.Error

/-!
# Envelopes

One frame carries one envelope: a kind tag, a correlation id of four octets, most significant
first, and a body that is everything after. `encode` and `decode` are each other's inverse on the
frames that `decode` accepts.
-/

namespace Parley

inductive Kind where
  | request | response | info | requestError
deriving DecidableEq, Repr

namespace Kind

def tag : Kind → UInt8
  | request => 0
  | response => 1
  | info => 2
  | requestError => 3

def ofTag? (tag : UInt8) : Option Kind :=
  if tag = 0 then some request
  else if tag = 1 then some response
  else if tag = 2 then some info
  else if tag = 3 then some requestError
  else none

@[simp] theorem ofTag?_tag (k : Kind) : ofTag? k.tag = some k := by cases k <;> rfl

end Kind

structure Envelope where
  kind : Kind
  id : UInt32
  body : Bytes
deriving DecidableEq, Repr

namespace Envelope

inductive Malformed where
  | short (size : Nat)
  | unknownKind (tag : UInt8)
deriving DecidableEq, Repr

def headerSize : Nat := 5

def Malformed.message : Malformed → String
  | short n => s!"frame too short: {n} bytes, need at least {headerSize}"
  | unknownKind t => s!"unknown message kind: {t.toNat}"

def Malformed.toError (m : Malformed) : Error := .format m.message

/-- An envelope of the given kind; an info carries no id of its own and gets zero. -/
def make (kind : Kind) (id : UInt32) (body : Bytes) : Envelope :=
  ⟨kind, if kind = .info then 0 else id, body⟩

def request (id : UInt32) (body : Bytes) : Envelope := make .request id body
def response (id : UInt32) (body : Bytes) : Envelope := make .response id body
def requestError (id : UInt32) (body : Bytes) : Envelope := make .requestError id body
def info (body : Bytes) : Envelope := make .info 0 body

def encode (e : Envelope) : Bytes := e.kind.tag :: Bytes.ofNat 4 e.id.toNat ++ e.body

def decode (frame : Bytes) : Except Malformed Envelope :=
  match frame with
  | tag :: b3 :: b2 :: b1 :: b0 :: body =>
    match Kind.ofTag? tag with
    | some kind => .ok ⟨kind, UInt32.ofNat (Bytes.toNat [b3, b2, b1, b0]), body⟩
    | none => .error (.unknownKind tag)
  | short => .error (.short short.length)

@[simp] theorem make_kind (k : Kind) (id : UInt32) (body : Bytes) : (make k id body).kind = k := rfl

@[simp] theorem make_body (k : Kind) (id : UInt32) (body : Bytes) : (make k id body).body = body :=
  rfl

end Envelope
end Parley
