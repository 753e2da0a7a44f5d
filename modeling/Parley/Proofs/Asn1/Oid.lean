import Mathlib
import Parley.Asn1.Oid.Names

/-!
# What identifiers are shown by

A short name, numbers between dots or octets between blanks: none of these holds a slash or an
equals sign.
-/

namespace Parley.Asn1.Oid
variable {c : Char}

def IsShown (c : Char) : Prop := c ≠ '/' ∧ c ≠ '='

instance : DecidablePred IsShown := fun _ => inferInstanceAs (Decidable (_ ∧ _))

theorem isShown_ofList {l : List Char} (h : (l.all fun c => decide (IsShown c)) = true) :
    ∀ c ∈ (String.ofList l).toList, IsShown c := by
  rw [String.toList_ofList]
  intro c hc
  exact of_decide_eq_true (List.all_eq_true.1 h c hc)

theorem isShown_of_isDigit (h : c.isDigit = true) : IsShown c := by
  constructor
  · rintro rfl
    exact absurd h (by decide)
  · rintro rfl
    exact absurd h (by decide)

theorem isShown_hexDigit {n : Nat} (h : n < 16) : IsShown (Text.Hex.digit n) := by
  revert n
  decide

theorem isShown_hex {b : Bytes} (h : c ∈ (Text.Hex.encode b).toList) : IsShown c := by
  rw [Text.Hex.encode, String.toList_ofList, List.mem_flatMap] at h
  obtain ⟨octet, -, hc⟩ := h
  have hlt : octet.toNat < 256 := octet.toNat_lt
  rcases List.mem_pair.1 hc with rfl | rfl
  · exact isShown_hexDigit (by omega)
  · exact isShown_hexDigit (by omega)

theorem isShown_number {n : Nat} (h : c ∈ (toString n).toList) : IsShown c := by
  rw [Nat.toString_eq_repr, Nat.toList_repr] at h
  exact isShown_of_isDigit (Nat.isDigit_of_mem_toDigits (by omega) (by omega) h)

theorem isShown_intercalate {sep : String} {parts : List String}
    (hsep : ∀ c ∈ sep.toList, IsShown c) (hparts : ∀ s ∈ parts, ∀ c ∈ s.toList, IsShown c) :
    ∀ c ∈ (sep.intercalate parts).toList, IsShown c := by
  rw [String.toList_intercalate]
  induction parts with
  | nil => simp
  | cons s parts ih =>
    have hs := hparts s (List.mem_cons_self ..)
    have hrest := ih fun t ht => hparts t (List.mem_cons_of_mem s ht)
    cases parts with
    | nil =>
      rw [List.map_singleton, List.intercalate_singleton]
      exact hs
    | cons t parts =>
      rw [List.map_cons, List.map_cons, List.intercalate_cons_cons]
      intro c hc
      rcases List.mem_append.1 hc with hc | hc
      · rcases List.mem_append.1 hc with hc | hc
        · exact hs c hc
        · exact hsep c hc
      · exact hrest c hc

theorem isShown_text (o : Oid) : ∀ c ∈ o.text.toList, IsShown c := by
  unfold text
  split_ifs
  · apply isShown_intercalate (isShown_ofList rfl)
    intro s hs c hc
    obtain ⟨b, -, rfl⟩ := List.mem_map.1 hs
    exact isShown_hex hc
  · apply isShown_intercalate (isShown_ofList rfl)
    intro s hs c hc
    obtain ⟨n, -, rfl⟩ := List.mem_map.1 hs
    exact isShown_number hc

theorem isShown_shortNames : ∀ entry ∈ shortNames, ∀ c ∈ entry.2.toList, IsShown c := by
  simp only [shortNames, List.forall_mem_cons]
  and_intros
  rotate_right
  · exact nofun
  all_goals exact isShown_ofList rfl

theorem isShown_name (o : Oid) : ∀ c ∈ o.name.toList, IsShown c := by
  unfold name
  split
  · next h => exact isShown_shortNames _ (List.mem_of_find?_eq_some h)
  · exact isShown_text o

end Parley.Asn1.Oid
