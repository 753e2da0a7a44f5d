import Mathlib
import Parley.Connection.Reply
import Parley.Envelope

/-!
# Envelopes on the wire

An encoded envelope is read back as it was. What a frame asks for, which token it answers, or what
it tells, is read off its envelope; a frame that is no envelope does nothing of this.
-/

namespace Parley

theorem Bytes.toNat_ofNat_four {n : Nat} (h : n < UInt32.size) :
    Bytes.toNat (Bytes.ofNat 4 n) = n := by
  simp only [UInt32.size] at h
  simp [Bytes.toNat, Bytes.ofNat, Nat.shiftRight_eq_div_pow]
  omega

@[simp] theorem Envelope.decode_encode (e : Envelope) : decode e.encode = .ok e := by
  obtain ⟨kind, id, body⟩ := e
  have hid : Bytes.toNat (Bytes.ofNat 4 id.toNat) = id.toNat :=
    Bytes.toNat_ofNat_four id.toNat_lt_size
  simp only [Bytes.ofNat] at hid
  simp only [encode, Bytes.ofNat, List.cons_append, List.nil_append, decode, Kind.ofTag?_tag, hid,
    UInt32.ofNat_toNat]

namespace Frame

def ask? (frame : Bytes) : Option (UInt32 × Bytes) :=
  match Envelope.decode frame with
  | .ok ⟨.request, id, body⟩ => some (id, body)
  | _ => none

def reply? (frame : Bytes) : Option (UInt32 × Reply) :=
  match Envelope.decode frame with
  | .ok ⟨.response, id, body⟩ => some (id, .ok body)
  | .ok ⟨.requestError, id, body⟩ => some (id, .failed body)
  | _ => none

def tell? (frame : Bytes) : Option Bytes :=
  match Envelope.decode frame with
  | .ok ⟨.info, _, body⟩ => some body
  | _ => none

/-- A frame is malformed, or it asks, replies or tells, and only one of these. -/
inductive Meaning (frame : Bytes) : Prop where
  | malformed {m : Envelope.Malformed} (hd : Envelope.decode frame = .error m)
    (ha : ask? frame = none) (hr : reply? frame = none) (ht : tell? frame = none)
  | asks {id : UInt32} {body : Bytes} (ha : ask? frame = some (id, body))
    (hr : reply? frame = none) (ht : tell? frame = none)
  | replies {id : UInt32} {r : Reply} (ha : ask? frame = none)
    (hr : reply? frame = some (id, r)) (ht : tell? frame = none)
  | tells {body : Bytes} (ha : ask? frame = none) (hr : reply? frame = none)
    (ht : tell? frame = some body)

theorem meaning (frame : Bytes) : Meaning frame := by
  cases hd : Envelope.decode frame with
  | error m =>
    exact .malformed hd (by simp only [ask?, hd]) (by simp only [reply?, hd])
      (by simp only [tell?, hd])
  | ok e =>
    obtain ⟨kind, id, body⟩ := e
    cases kind with
    | request =>
      have ha : ask? frame = some (id, body) := by simp only [ask?, hd]
      exact .asks ha (by simp only [reply?, hd]) (by simp only [tell?, hd])
    | response =>
      have hr : reply? frame = some (id, .ok body) := by simp only [reply?, hd]
      exact .replies (by simp only [ask?, hd]) hr (by simp only [tell?, hd])
    | info =>
      have ht : tell? frame = some body := by simp only [tell?, hd]
      exact .tells (by simp only [ask?, hd]) (by simp only [reply?, hd]) ht
    | requestError =>
      have hr : reply? frame = some (id, .failed body) := by simp only [reply?, hd]
      exact .replies (by simp only [ask?, hd]) hr (by simp only [tell?, hd])

theorem ask?_of_reply? {frame : Bytes} {a : UInt32 × Reply} (h : reply? frame = some a) :
    ask? frame = none := by
  simp only [reply?] at h
  simp only [ask?]
  split at h <;> simp_all

@[simp] theorem ask?_request (id : UInt32) (body : Bytes) :
    ask? (Envelope.request id body).encode = some (id, body) := by
  simp [ask?, Envelope.request, Envelope.make]

@[simp] theorem reply?_request (id : UInt32) (body : Bytes) :
    reply? (Envelope.request id body).encode = none := by
  simp [reply?, Envelope.request, Envelope.make]

@[simp] theorem ask?_info (body : Bytes) : ask? (Envelope.info body).encode = none := by
  simp [ask?, Envelope.info, Envelope.make]

@[simp] theorem reply?_info (body : Bytes) : reply? (Envelope.info body).encode = none := by
  simp [reply?, Envelope.info, Envelope.make]

@[simp] theorem tell?_encode_info (id : UInt32) (body : Bytes) :
    tell? (Envelope.encode ⟨.info, id, body⟩) = some body := by
  simp only [tell?, Envelope.decode_encode]

@[simp] theorem ask?_outcome (id : UInt32) (o : Outcome) :
    ask? (o.envelope id).encode = none := by
  cases o <;> simp [ask?, Outcome.envelope, Envelope.response, Envelope.requestError, Envelope.make]

@[simp] theorem reply?_outcome (id : UInt32) (o : Outcome) :
    reply? (o.envelope id).encode = some (id, o.reply) := by
  cases o <;>
    simp [reply?, Outcome.envelope, Outcome.reply, Envelope.response, Envelope.requestError,
      Envelope.make]

end Frame
end Parley
