import Mathlib
import Parley.Proofs.Envelope.Codec

/-!
# Infos and their ids

An info is meant to have no id but zero. Whoever makes an envelope sees to that. Whoever reads one
off a frame does not: an info comes with the id that stands in its frame, and is written with that
id again.
-/

namespace Parley

theorem Kind.tag_eq_tag_iff {k l : Kind} : k.tag = l.tag ↔ k = l := by
  constructor
  · intro h
    have hread := congrArg Kind.ofTag? h
    rw [ofTag?_tag, ofTag?_tag] at hread
    exact Option.some.inj hread
  · exact congrArg Kind.tag

namespace Envelope

def Anonymous (e : Envelope) : Prop := e.kind = .info → e.id = 0

def idOctets (frame : Bytes) : Bytes := (frame.drop 1).take 4

def AnonymousFrame (frame : Bytes) : Prop :=
  frame.head? = some Kind.info.tag → idOctets frame = [0, 0, 0, 0]

theorem idOctets_encode (e : Envelope) : idOctets e.encode = Bytes.ofNat 4 e.id.toNat := rfl

theorem octets_eq_zero_iff {id : UInt32} : Bytes.ofNat 4 id.toNat = [0, 0, 0, 0] ↔ id = 0 := by
  constructor
  · intro h
    have hread := Bytes.toNat_ofNat_four id.toNat_lt_size
    rw [h] at hread
    exact UInt32.toNat_inj.1 hread.symm
  · rintro rfl
    rfl

theorem anonymousFrame_encode_iff {e : Envelope} : AnonymousFrame e.encode ↔ e.Anonymous := by
  have hhead : e.encode.head? = some Kind.info.tag ↔ e.kind = .info := by
    rw [← Kind.tag_eq_tag_iff]
    exact Option.some_inj
  rw [AnonymousFrame, hhead, idOctets_encode, octets_eq_zero_iff, Anonymous]

theorem anonymous_make (kind : Kind) (id : UInt32) (body : Bytes) :
    (make kind id body).Anonymous := by
  intro hinfo
  rw [make_kind] at hinfo
  rw [make, if_pos hinfo]

/-- The ways to come by an envelope. -/
inductive Origin where
  | made (kind : Kind) (id : UInt32) (body : Bytes)
  | request (id : UInt32) (body : Bytes)
  | response (id : UInt32) (body : Bytes)
  | requestError (id : UInt32) (body : Bytes)
  | info (body : Bytes)
  | frame (octets : Bytes)

def Origin.envelope : Origin → Except Malformed Envelope
  | made kind id body => .ok (Envelope.make kind id body)
  | request id body => .ok (Envelope.request id body)
  | response id body => .ok (Envelope.response id body)
  | requestError id body => .ok (Envelope.requestError id body)
  | info body => .ok (Envelope.info body)
  | frame octets => decode octets

/-- An envelope that was made is anonymous if it is an info. One that was read is so exactly when
its frame is, and either way that shows in the octets that are written for it. -/
theorem anonymous_iff_of_origin (o : Origin) {e : Envelope} (h : o.envelope = .ok e) :
    (e.Anonymous ↔ ∀ octets, o = .frame octets → AnonymousFrame octets) ∧
      (AnonymousFrame e.encode ↔ e.Anonymous) := by
  refine ⟨?_, anonymousFrame_encode_iff⟩
  have hmade {kind : Kind} {id : UInt32} {body : Bytes}
      (h : (.ok (make kind id body) : Except Malformed Envelope) = .ok e) : e.Anonymous :=
    Except.ok.inj h ▸ anonymous_make kind id body
  cases o with
  | frame octets =>
    have hwritten : e.encode = octets := encode_of_decode h
    rw [← anonymousFrame_encode_iff, hwritten]
    constructor
    · rintro hframe _ ⟨⟩
      exact hframe
    · intro hall
      exact hall octets rfl
  | _ => exact ⟨fun _ => nofun, fun _ => hmade h⟩

theorem anonymous_iff_of_origin_plain :
    (Origin.made .info 77 [120]).envelope = .ok ⟨.info, 0, [120]⟩ ∧
      (⟨.info, 0, [120]⟩ : Envelope).Anonymous ∧
    (Origin.frame [2, 0, 0, 0, 0, 120]).envelope = .ok ⟨.info, 0, [120]⟩ ∧
      AnonymousFrame (encode ⟨.info, 0, [120]⟩) := by
  have hmade : (Origin.made .info 77 [120]).envelope = .ok ⟨.info, 0, [120]⟩ := rfl
  have hread : (Origin.frame [2, 0, 0, 0, 0, 120]).envelope = .ok ⟨.info, 0, [120]⟩ := rfl
  have hanonymous : (⟨.info, 0, [120]⟩ : Envelope).Anonymous :=
    (anonymous_iff_of_origin _ hmade).1.2 nofun
  exact ⟨hmade, hanonymous, hread, (anonymous_iff_of_origin _ hread).2.2 hanonymous⟩

/-- An info whose frame has the id one keeps it, and is written with it. -/
theorem decode_keeps_info_id :
    (Origin.frame [2, 0, 0, 0, 1, 118, 60, 34]).envelope = .ok ⟨.info, 1, [118, 60, 34]⟩ ∧
      ¬ (⟨.info, 1, [118, 60, 34]⟩ : Envelope).Anonymous ∧
      idOctets (encode ⟨.info, 1, [118, 60, 34]⟩) = [0, 0, 0, 1] := by
  refine ⟨rfl, fun h => ?_, rfl⟩
  exact absurd (h rfl) (by decide)

end Envelope
end Parley
