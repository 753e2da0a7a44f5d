import Parley.WebSocket.Endpoint

/-!
# Arrivals

What a WebSocket library hands out, and what of it a pump looks at: octets and text are data alike,
a close is a close whatever its reason, and the rest is the library's own business.
-/

namespace Parley.WebSocket

inductive Arrival where
  | binary (bytes : Bytes)
  | text (s : String)
  | ping (payload : Bytes)
  | pong (payload : Bytes)
  | close (reason : Option (UInt16 × String))
  | raw (f : Frame)

namespace Arrival

def incoming : Arrival → Incoming
  | binary bytes => .data bytes
  | text s => .data (Bytes.ofString s)
  | close _ => .close
  | ping _ | pong _ | raw _ => .control

def next : Option (Except ε Arrival) → Incoming
  | some (.ok a) => a.incoming
  | some (.error _) => .failure
  | none => .ended

theorem toList_loop (b : ByteArray) (i : Nat) (done : List UInt8) :
    ByteArray.toList.loop b i done = done.reverse ++ b.data.toList.drop i := by
  fun_induction ByteArray.toList.loop b i done with
  | case1 i done h ih =>
    have hlt : i < b.data.toList.length := h
    have hget : b.get! i = b.data.toList[i] := by
      rw [Array.getElem_toList]
      exact getElem!_pos b.data i hlt
    rw [ih, List.drop_eq_getElem_cons hlt]
    simp [hget]
  | case2 i done h =>
    have hle : b.data.toList.length ≤ i := Nat.le_of_not_lt h
    simp [List.drop_eq_nil_of_le hle]

theorem fromUTF8?_ofString (s : String) :
    String.fromUTF8? ⟨(Bytes.ofString s).toArray⟩ = some s := by
  have hlist : s.toByteArray.toList = s.toByteArray.data.toList := toList_loop _ 0 []
  have hsame : (⟨(Bytes.ofString s).toArray⟩ : ByteArray) = s.toByteArray := by
    simp [Bytes.ofString, hlist]
  rw [hsame]
  simp only [String.fromUTF8?, s.isValidUTF8, dif_pos]
  rfl

/-- An endpoint makes of a message in octets what a library makes of it as text. -/
theorem complete_text (s : String) :
    Endpoint.complete true (Bytes.ofString s) = (text s).incoming := by
  simp [Endpoint.complete, fromUTF8?_ofString, incoming]

end Arrival
end Parley.WebSocket
