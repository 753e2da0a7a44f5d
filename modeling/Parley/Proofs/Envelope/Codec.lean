import Mathlib
import Parley.Proofs.Envelope

/-!
# The frames that carry an envelope

A frame carries an envelope when it has a whole header and the header's tag is that of a kind. Every
envelope is written as one such frame and every such frame is the writing of one envelope; any other
frame is malformed.
-/

namespace Parley

namespace Bytes

theorem toNat_concat (bytes : Bytes) (b : UInt8) :
    toNat (bytes ++ [b]) = toNat bytes * 256 + b.toNat := by
  simp only [toNat, List.foldl_append, List.foldl_cons, List.foldl_nil]

theorem ofNat_succ (width n : Nat) :
    ofNat (width + 1) n = ofNat width (n / 256) ++ [UInt8.ofNat n] := by
  induction width with
  | zero => rfl
  | succ k ih =>
    have hshift : n >>> (8 * (k + 1)) = (n / 256) >>> (8 * k) := by
      rw [Nat.mul_succ, Nat.add_comm, Nat.shiftRight_add, Nat.shiftRight_eq_div_pow n 8]
    rw [ofNat, ih, ofNat, hshift, List.cons_append]

theorem toNat_lt (bytes : Bytes) : toNat bytes < 256 ^ bytes.length := by
  induction bytes using List.reverseRecOn with
  | nil => decide
  | append_singleton bytes b ih =>
    have hb := b.toNat_lt
    rw [toNat_concat, List.length_append, List.length_singleton, pow_succ]
    omega

theorem ofNat_toNat (bytes : Bytes) : ofNat bytes.length (toNat bytes) = bytes := by
  induction bytes using List.reverseRecOn with
  | nil => rfl
  | append_singleton bytes b ih =>
    have hb := b.toNat_lt
    have hhigh : (toNat bytes * 256 + b.toNat) / 256 = toNat bytes := by omega
    have hlow : UInt8.ofNat (toNat bytes * 256 + b.toNat) = b := by
      rw [← UInt8.toNat_inj, UInt8.toNat_ofNat']
      omega
    rw [List.length_append, List.length_singleton, ofNat_succ, toNat_concat, hhigh, hlow, ih]

end Bytes

namespace Kind

theorem tag_le (k : Kind) : k.tag ≤ 3 := by cases k <;> decide

theorem tag_of_ofTag? {tag : UInt8} {k : Kind} (h : ofTag? tag = some k) : k.tag = tag := by
  simp only [ofTag?] at h
  split_ifs at h <;> cases h <;> simp_all [Kind.tag]

theorem ofTag?_of_le {tag : UInt8} (h : tag ≤ 3) : ∃ k, ofTag? tag = some k := by
  have hcases : tag = 0 ∨ tag = 1 ∨ tag = 2 ∨ tag = 3 := by
    simp only [UInt8.le_iff_toNat_le, ← UInt8.toNat_inj] at *
    change tag.toNat ≤ 3 at h
    change tag.toNat = 0 ∨ tag.toNat = 1 ∨ tag.toNat = 2 ∨ tag.toNat = 3
    omega
  rcases hcases with rfl | rfl | rfl | rfl
  · exact ⟨request, rfl⟩
  · exact ⟨response, rfl⟩
  · exact ⟨info, rfl⟩
  · exact ⟨requestError, rfl⟩

end Kind

namespace Envelope

def Framed (frame : Bytes) : Prop := headerSize ≤ frame.length ∧ ∃ tag ∈ frame.head?, tag ≤ 3

theorem framed_encode (e : Envelope) : Framed e.encode := by
  refine ⟨?_, e.kind.tag, rfl, e.kind.tag_le⟩
  simp only [encode, List.cons_append, List.length_cons, List.length_append, Bytes.ofNat_length,
    headerSize]
  omega

theorem encode_of_decode {frame : Bytes} {e : Envelope} (h : decode frame = .ok e) :
    e.encode = frame := by
  simp only [decode] at h
  split at h
  · rename_i tag b3 b2 b1 b0 body
    split at h
    · rename_i kind hkind
      obtain rfl := Except.ok.inj h
      have hid : (UInt32.ofNat (Bytes.toNat [b3, b2, b1, b0])).toNat =
          Bytes.toNat [b3, b2, b1, b0] :=
        UInt32.toNat_ofNat_of_lt' (by simpa using Bytes.toNat_lt [b3, b2, b1, b0])
      have hoctets : Bytes.ofNat 4 (Bytes.toNat [b3, b2, b1, b0]) = [b3, b2, b1, b0] :=
        Bytes.ofNat_toNat [b3, b2, b1, b0]
      simp only [encode, hid, hoctets, Kind.tag_of_ofTag? hkind, List.cons_append,
        List.nil_append]
    · simp at h
  · simp at h

theorem decode_eq_ok_iff {frame : Bytes} {e : Envelope} : decode frame = .ok e ↔ e.encode = frame :=
  ⟨encode_of_decode, fun h => h ▸ decode_encode e⟩

theorem decode_of_framed {frame : Bytes} (h : Framed frame) : ∃ e, decode frame = .ok e := by
  obtain ⟨hlen, tag, htag, hle⟩ := h
  obtain ⟨kind, hkind⟩ := Kind.ofTag?_of_le hle
  match frame, hlen, htag with
  | _ :: b3 :: b2 :: b1 :: b0 :: body, _, rfl =>
    refine ⟨⟨kind, UInt32.ofNat (Bytes.toNat [b3, b2, b1, b0]), body⟩, ?_⟩
    simp only [decode, hkind]

theorem exists_decode_iff {frame : Bytes} : (∃ e, decode frame = .ok e) ↔ Framed frame := by
  constructor
  · rintro ⟨e, he⟩
    exact encode_of_decode he ▸ framed_encode e
  · exact decode_of_framed

/-- Reading undoes writing for every envelope, and reading succeeds exactly on the frames with a
whole header and a known tag; what it finds is written as the same frame again. Every other frame is
reported as malformed. -/
theorem codec_bijective :
    (∀ kind id body, decode (encode ⟨kind, id, body⟩) = .ok ⟨kind, id, body⟩) ∧
    ∀ frame, (∀ e, decode frame = .ok e ↔ e.encode = frame) ∧
      ((∃ e, decode frame = .ok e) ↔ Framed frame) ∧
      ((∃ text, (decode frame).mapError Malformed.toError = .error (.format text)) ↔
        ¬ Framed frame) := by
  refine ⟨fun kind id body => decode_encode _, fun frame => ⟨fun e => decode_eq_ok_iff,
    exists_decode_iff, ?_⟩⟩
  rw [← exists_decode_iff]
  cases decode frame with
  | ok e => simp [Except.mapError]
  | error m => simp [Except.mapError, Malformed.toError]

end Envelope
end Parley
