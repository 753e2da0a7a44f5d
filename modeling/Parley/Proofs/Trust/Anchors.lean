import Mathlib
import Parley.Proofs.Trust.Acceptance
import Parley.Proofs.Trust.Decision

/-!
# The order of the trust anchors

A chain is completed by the first anchor with the name of its last issuer, which need not be the one
that issued it. Among anchors with names of their own the order does not count. Between two with one
name it does: a chain that is accepted when the renewed anchor is listed first is refused when its
expired predecessor is.
-/

namespace Parley.Trust
variable {A B : List Certificate}

theorem find?_alike {α : Type} {R : α → α → Prop} {p : α → Bool} {l k : List α}
    (hsame : ∀ a, a ∈ l ↔ a ∈ k) (halike : ∀ a ∈ l, ∀ b ∈ l, p a → p b → R a b) :
    Option.Rel R (l.find? p) (k.find? p) := by
  cases hl : l.find? p with
  | none =>
    have hk : k.find? p = none := by
      rw [List.find?_eq_none] at hl ⊢
      exact fun a ha => hl a ((hsame a).2 ha)
    rw [hk]
    exact .none
  | some a =>
    have ha := List.mem_of_find?_eq_some hl
    have hpa := List.find?_some hl
    obtain ⟨b, hk⟩ := Option.isSome_iff_exists.1
      (List.find?_isSome.2 ⟨a, (hsame a).1 ha, hpa⟩)
    rw [hk]
    exact .some (halike a ha b ((hsame b).2 (List.mem_of_find?_eq_some hk)) hpa
      (List.find?_some hk))

def AlikeByName (R : Certificate → Certificate → Prop) (anchors : List Certificate) : Prop :=
  ∀ a ∈ anchors, ∀ b ∈ anchors, a.subject.text = b.subject.text → R a b

theorem completing?_alike {R : Certificate → Certificate → Prop} (hsame : ∀ a, a ∈ A ↔ a ∈ B)
    (halike : AlikeByName R A) (chain : List Certificate) :
    Option.Rel R (completing? A chain) (completing? B chain) := by
  unfold completing?
  split
  · exact .none
  · rename_i last _
    split_ifs
    · exact .none
    · refine find?_alike hsame fun a ha b hb hpa hpb => halike a ha b hb ?_
      simp only [Bool.and_eq_true, beq_iff_eq] at hpa hpb
      rw [hpa.1, hpb.1]

theorem accepted_alike {hostname : Option String} {now : Moment} {front : List Certificate}
    (hne : front ≠ []) {a b : Option Certificate}
    (h : Option.Rel (fun a b => a.isValidAt now = b.isValidAt now) a b) :
    accepted ((front ++ a.toList).zipIdx.reverse.map fun place =>
        Policy.check hostname place.2 place.1 none now) =
      accepted ((front ++ b.toList).zipIdx.reverse.map fun place =>
        Policy.check hostname place.2 place.1 none now) := by
  cases h with
  | none => rfl
  | some hvalid =>
    rw [Bool.eq_iff_iff, Policy.accepted_checks_iff, Policy.accepted_checks_iff]
    simp [hvalid, List.head?_append_of_ne_nil _ hne, or_imp, forall_and]

variable {m : Type → Type} [Monad m] {leaf : Bytes} {intermediates : List Bytes}
  {path : Except Tls.HandshakeError Unit} {clock : Moment} {now : Nat}

theorem decide_congr {policy : Policy m}
    (h : presentedChain A (leaf :: intermediates) = presentedChain B (leaf :: intermediates)) :
    decide A policy leaf intermediates path clock now =
      decide B policy leaf intermediates path clock now := by
  simp only [decide, h]

theorem decide_of_unique (hsame : ∀ a, a ∈ A ↔ a ∈ B) (hunique : AlikeByName Eq A)
    (policy : Policy m) :
    decide A policy leaf intermediates path clock now =
      decide B policy leaf intermediates path clock now := by
  have heq : ∀ {a b : Option Certificate}, Option.Rel Eq a b → a = b := by
    rintro _ _ (h | _)
    · rw [h]
    · rfl
  have hcompleting : completing? A = completing? B :=
    funext fun chain => heq (completing?_alike hsame hunique chain)
  exact decide_congr (by simp only [presentedChain, hcompleting])

theorem decide_of_path [LawfulMonad m] {anchors chain : List Certificate}
    (h : presentedChain anchors (leaf :: intermediates) = .ok chain) (hostname : Option String) :
    Decision.result <$> decide anchors (⟨hostname, none⟩ : Policy m) leaf intermediates (.ok ())
        clock now =
      pure (if accepted (chain.zipIdx.reverse.map fun place =>
          Policy.check hostname place.2 place.1 none (policyTime clock now))
        then .ok () else .error (.certificate .application)) := by
  simp only [decide, h, Policy.evaluate_without, pure_bind]
  split_ifs <;> simp

theorem decide_without_alike [LawfulMonad m] (hsame : ∀ a, a ∈ A ↔ a ∈ B)
    (hdates : AlikeByName (fun a b => a.isValidAt (policyTime clock now) =
      b.isValidAt (policyTime clock now)) A) (hostname : Option String) :
    Decision.result <$> decide A (⟨hostname, none⟩ : Policy m) leaf intermediates path clock now =
      Decision.result <$> decide B (⟨hostname, none⟩ : Policy m) leaf intermediates path clock
        now := by
  cases path with
  | error e =>
    -- a failed path check stands, whatever completes the chain
    obtain ⟨_, hA⟩ := decide_without (m := m) A hostname leaf intermediates e clock now
    obtain ⟨_, hB⟩ := decide_without (m := m) B hostname leaf intermediates e clock now
    simp only [hA, hB, map_pure]
  | ok _ =>
    cases hread : readable (leaf :: intermediates) with
    | false =>
      have h :
          presentedChain A (leaf :: intermediates) = presentedChain B (leaf :: intermediates) :=
        (presentedChain_error hread).trans (presentedChain_error hread).symm
      rw [decide_congr h]
    | true =>
      obtain ⟨front, hfront, hchain⟩ := presentedChain_of_readable hread
      have hne : front ≠ [] := List.ne_nil_of_length_pos (by simp [← hfront.length_eq])
      rw [decide_of_path (hchain A), decide_of_path (hchain B),
        accepted_alike hne (completing?_alike hsame hdates front)]

/-- Anchors that are listed in another order, or more than once, make no difference to any policy
when those with one name are one certificate. Without a predicate it is enough that those with one
name are all valid at the time or all not. -/
theorem decide_of_same_anchors (hsame : ∀ a, a ∈ A ↔ a ∈ B) (leaf : Bytes)
    (intermediates : List Bytes) (path : Except Tls.HandshakeError Unit) (clock : Moment)
    (now : Nat) :
    (AlikeByName Eq A → ∀ {m : Type → Type} [Monad m] (policy : Policy m),
      decide A policy leaf intermediates path clock now =
        decide B policy leaf intermediates path clock now) ∧
    (AlikeByName (fun a b => a.isValidAt (policyTime clock now) =
        b.isValidAt (policyTime clock now)) A →
      ∀ {m : Type → Type} [Monad m] [LawfulMonad m] (hostname : Option String),
        Decision.result <$> decide A (⟨hostname, none⟩ : Policy m) leaf intermediates path clock
            now =
          Decision.result <$> decide B (⟨hostname, none⟩ : Policy m) leaf intermediates path clock
            now) :=
  ⟨fun hunique _ _ policy => decide_of_unique hsame hunique policy,
    fun hdates _ _ _ hostname => decide_without_alike hsame hdates hostname⟩

theorem alikeByName_pair {R : Certificate → Certificate → Prop} {a b : Certificate}
    (hrefl : ∀ c, R c c) (h : a.subject.text = b.subject.text → R a b ∧ R b a) :
    AlikeByName R [a, b] := by
  intro c hc e he hname
  rcases List.mem_pair.1 hc with rfl | rfl <;> rcases List.mem_pair.1 he with rfl | rfl
  · exact hrefl _
  · exact (h hname).1
  · exact (h hname.symm).2
  · exact hrefl _

def issued (subject issuer : Bytes) : Bytes :=
  let algorithm := Asn1.Element.encodeSequence [Asn1.Element.encode 6 [42]]
  let name (cn : Bytes) := Asn1.Element.encodeSequence
    [Asn1.Element.encode 49 (Asn1.Element.encodeSequence
      [Asn1.Element.encode 6 [85, 4, 3], Asn1.Element.encode 12 cn])]
  let time (t : String) := Asn1.Element.encode 23 (Bytes.ofString t)
  let bits := Asn1.Element.encode 3 [0]
  Asn1.Element.encodeSequence
    [Asn1.Element.encodeSequence
      [Asn1.Element.encode 2 [1], algorithm, name issuer,
        Asn1.Element.encodeSequence [time "000101000000Z", time "490101000000Z"], name subject,
        Asn1.Element.encodeSequence [algorithm, bits]],
      algorithm, bits]

def root (name : String) (first last : Nat) : Certificate :=
  let newYear (year : Nat) : CivilTime := { year, month := 1, day := 1, hour := 0, minute := 0 }
  ⟨⟨[⟨"CN", name⟩]⟩, ⟨[⟨"CN", name⟩]⟩, newYear first, newYear last, []⟩

theorem decide_of_same_anchors_swapped :
    let leaf := issued (Bytes.ofString "L") (Bytes.ofString "R")
    (∀ ask, decide [root "R" 2020 2049, root "S" 2000 2001] (⟨none, some ask⟩ : Policy Id) leaf []
        (.ok ()) ⟨0, 0⟩ 1735689600 =
      decide [root "S" 2000 2001, root "R" 2020 2049] ⟨none, some ask⟩ leaf [] (.ok ()) ⟨0, 0⟩
        1735689600) ∧
    (decide [root "R" 2020 2049, root "R" 2000 2030] (⟨none, none⟩ : Policy Id) leaf [] (.ok ())
        ⟨0, 0⟩ 1735689600).result =
      (decide [root "R" 2000 2030, root "R" 2020 2049] (⟨none, none⟩ : Policy Id) leaf [] (.ok ())
        ⟨0, 0⟩ 1735689600).result := by
  intro leaf
  have hswap : ∀ a b c : Certificate, c ∈ [a, b] ↔ c ∈ [b, a] := fun a b c =>
    (List.Perm.swap b a []).mem_iff
  refine ⟨fun ask => ?_, ?_⟩
  · refine (decide_of_same_anchors (hswap _ _) leaf [] (.ok ()) ⟨0, 0⟩ 1735689600).1
      (alikeByName_pair (fun _ => rfl) fun hname => ?_) _
    exact absurd hname (by decide)
  · exact (decide_of_same_anchors (hswap _ _) leaf [] (.ok ()) ⟨0, 0⟩ 1735689600).2
      (alikeByName_pair (fun _ => rfl) fun _ => ⟨by decide, by decide⟩) (m := Id) none

/-- A renewed root and its expired predecessor have one name, and the one that is listed first
completes the chain: the peer is accepted in one order and refused in the other. -/
theorem predecessor_first_refuses :
    let result (anchors : List Certificate) := (decide anchors (⟨none, none⟩ : Policy Id)
      (issued (Bytes.ofString "L") (Bytes.ofString "R")) [] (.ok ()) ⟨0, 0⟩ 1735689600).result
    let renewed := root "R" 2020 2049
    let expired := root "R" 2000 2001
    [expired, renewed].Perm [renewed, expired] ∧ result [renewed, expired] = .ok () ∧
      result [expired, renewed] = .error (.certificate .application) := by
  intro result renewed expired
  refine ⟨List.Perm.swap .., ?_, ?_⟩
  · decide +kernel
  · decide +kernel

end Parley.Trust
