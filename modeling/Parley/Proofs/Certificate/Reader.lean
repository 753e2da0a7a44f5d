import Mathlib
import Parley.Certificate.Reader
import Parley.Proofs.Certificate.Name

/-!
# The names of certificates that were read

The attribute types in the names of a certificate are texts of identifiers, whatever octets it was
read from.
-/

namespace Parley

namespace Asn1.Decoder
variable {α β : Type} {P : α → Prop} {Q : β → Prop} {r : Decoder α} {k : α → Decoder β}

def Yields (r : Decoder α) (P : α → Prop) : Prop :=
  ∀ input a rest, r.run input = some (a, rest) → P a

theorem yields_any (r : Decoder α) : Yields r fun _ => True := fun _ _ _ _ => trivial

theorem yields_pure {a : α} (h : P a) : Yields (pure a) P := by
  rintro input _ rest ⟨⟩
  exact h

theorem yields_failure : Yields (failure : Decoder α) P := by
  rintro input a rest ⟨⟩

theorem Yields.bind (hr : Yields r P) (hk : ∀ a, P a → Yields (k a) Q) : Yields (r >>= k) Q := by
  intro input b rest h
  rw [StateT.run_bind] at h
  obtain ⟨⟨a, middle⟩, ha, hb⟩ := Option.bind_eq_some_iff.1 h
  exact hk a (hr input a middle ha) middle b rest hb

theorem yields_bind (r : Decoder α) (hk : ∀ a, Yields (k a) Q) : Yields (r >>= k) Q :=
  (yields_any r).bind fun a _ => hk a

theorem Yields.within {content : Bytes} {a : α} (hr : Yields r P)
    (h : within r content = some a) : P a := by
  obtain ⟨⟨a, rest⟩, hrun, rfl⟩ := Option.map_eq_some_iff.1 h
  exact hr content a rest hrun

theorem yields_lift {o : Option α} (h : ∀ a, o = some a → P a) :
    Yields (liftM o : Decoder α) P := by
  intro input a rest hrun
  cases o with
  | none => cases hrun
  | some b =>
    cases hrun
    exact h _ rfl

theorem Yields.attempt (hr : Yields r P) : Yields (attempt r) fun o => ∀ a ∈ o, P a := by
  intro input o rest h
  unfold Decoder.attempt at h
  rw [StateT.run] at h
  split at h
  · next hrun =>
    cases h
    rintro _ ⟨⟩
    exact hr input _ _ hrun
  · cases h
    exact nofun

theorem Yields.manyUpTo (hr : Yields r P) (limit : Nat) :
    Yields (manyUpTo r limit) fun l => ∀ a ∈ l, P a := by
  induction limit with
  | zero => exact yields_pure nofun
  | succ limit ih =>
    refine hr.attempt.bind fun o ho => ?_
    cases o with
    | none => exact yields_pure nofun
    | some a =>
      refine ih.bind fun l hl => yields_pure ?_
      rw [List.forall_mem_cons]
      exact ⟨ho a rfl, hl⟩

theorem Yields.many (hr : Yields r P) : Yields (many r) fun l => ∀ a ∈ l, P a :=
  fun input => hr.manyUpTo input.length input

end Asn1.Decoder

namespace Certificate
open Asn1.Decoder

theorem Reader.yields_sequence {α : Type} {P : α → Prop} {r : Asn1.Decoder α} (hr : Yields r P) :
    Yields (Reader.sequence r) P :=
  yields_bind _ fun _ => yields_lift fun _ h => hr.within h

theorem Reader.yields_typeAndValue : Yields Reader.typeAndValue Attribute.Typed := by
  apply Reader.yields_sequence
  refine yields_bind _ fun oid => yields_bind _ fun e => yields_pure ?_
  exact ⟨oid, rfl⟩

theorem Reader.yields_attributeSet :
    Yields Reader.attributeSet fun l => ∀ a ∈ l, a.Typed := by
  refine yields_bind _ fun set => ?_
  split
  · next a rest h => exact yields_pure (Reader.yields_typeAndValue.many.within h)
  · exact yields_failure

theorem Reader.yields_name : Yields Reader.name Name.Typed := by
  apply Reader.yields_sequence
  refine Reader.yields_attributeSet.many.bind fun sets hsets => yields_pure ?_
  intro a ha
  obtain ⟨l, hl, ha⟩ := List.mem_flatten.1 ha
  exact hsets l hl a ha

theorem Reader.yields_body :
    Yields Reader.body fun p => p.subject.Typed ∧ p.issuer.Typed := by
  apply Reader.yields_sequence
  refine yields_bind _ fun _ => yields_bind _ fun _ => yields_bind _ fun _ => ?_
  refine Reader.yields_name.bind fun issuer hissuer => yields_bind _ fun dates => ?_
  refine Reader.yields_name.bind fun subject hsubject => yields_bind _ fun _ => ?_
  refine yields_bind _ fun _ => yields_bind _ fun _ => yields_bind _ fun _ => yields_pure ?_
  exact ⟨hsubject, hissuer⟩

theorem typed_of_read {der : Bytes} {c : Certificate} (h : read der = .ok c) :
    c.subject.Typed ∧ c.issuer.Typed := by
  have hparts : Yields Reader.certificate fun p => p.subject.Typed ∧ p.issuer.Typed := by
    apply Reader.yields_sequence
    refine Reader.yields_body.bind fun p hp => ?_
    exact yields_bind _ fun _ => yields_bind _ fun _ => yields_pure hp
  unfold read at h
  split at h
  · cases h
  · next p hp =>
    have htyped := hparts.within hp
    cases hnames : Reader.alternateNames p.extensions with
    | error f =>
      rw [hnames] at h
      cases h
    | ok names =>
      rw [hnames] at h
      cases h
      exact htyped

end Certificate
end Parley
