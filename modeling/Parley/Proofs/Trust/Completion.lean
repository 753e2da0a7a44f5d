import Mathlib
import Parley.Proofs.Trust.Anchors

/-!
# The chain that is judged

The policy judges the presented certificates, each at the place where it was presented, and behind
them at most one anchor: the first one that has the name of the last issuer and is not there yet. If
a presented certificate cannot be read, nothing is judged and the peer is refused.
-/

namespace Parley
namespace Certificate

structure Same (a b : Certificate) : Prop where
  subject : a.subject = b.subject
  issuer : a.issuer = b.issuer
  notBefore : a.notBefore.moment = b.notBefore.moment
  notAfter : a.notAfter.moment = b.notAfter.moment
  alternateNames : a.alternateNames = b.alternateNames

theorem beq_iff_same {a b : Certificate} : (a == b) = true ↔ Same a b := by
  change (a.subject == b.subject && a.issuer == b.issuer
    && a.notBefore.moment == b.notBefore.moment && a.notAfter.moment == b.notAfter.moment
    && a.alternateNames == b.alternateNames) = true ↔ Same a b
  simp only [Bool.and_eq_true, beq_iff_eq]
  constructor
  · rintro ⟨⟨⟨⟨hsubject, hissuer⟩, hbefore⟩, hafter⟩, hnames⟩
    exact ⟨hsubject, hissuer, hbefore, hafter, hnames⟩
  · intro h
    exact ⟨⟨⟨⟨h.subject, h.issuer⟩, h.notBefore⟩, h.notAfter⟩, h.alternateNames⟩

end Certificate

namespace Trust
variable {anchors front : List Certificate} {last a : Certificate}

/-- The anchor has the name of the last issuer, and no certificate of the chain is the same. -/
structure Extends (front : List Certificate) (last a : Certificate) : Prop where
  named : a.subject.text = last.issuer.text
  absent : ∀ c ∈ front, ¬ Certificate.Same a c

/-- What stands behind a chain that ends in `last`: an anchor when the chain does not end in a
self-issued certificate and some anchor extends it, and then the first of those. -/
structure Completed (anchors front : List Certificate) (last : Certificate)
    (extra : Option Certificate) : Prop where
  present : extra.isSome = true ↔
    last.subject.text ≠ last.issuer.text ∧ ∃ a ∈ anchors, Extends front last a
  first : ∀ a ∈ extra, Extends front last a ∧
    ∃ before after, anchors = before ++ a :: after ∧ ∀ b ∈ before, ¬ Extends front last b

theorem extends_iff :
    (a.subject.text == last.issuer.text && !front.contains a) = true ↔ Extends front last a := by
  have habsent : front.contains a = false ↔ ∀ c ∈ front, ¬ Certificate.Same a c := by
    simp only [List.contains_eq_any_beq, List.any_eq_false, Certificate.beq_iff_same]
  rw [Bool.and_eq_true, beq_iff_eq, Bool.not_eq_true', habsent]
  exact ⟨fun h => ⟨h.1, h.2⟩, fun h => ⟨h.named, h.absent⟩⟩

theorem find?_extends (h : last.subject.text ≠ last.issuer.text) :
    Completed anchors front last
      (anchors.find? fun a => a.subject.text == last.issuer.text && !front.contains a) := by
  constructor
  · rw [List.find?_isSome]
    simp only [extends_iff]
    exact ⟨fun hex => ⟨h, hex⟩, fun hex => hex.2⟩
  · intro a ha
    obtain ⟨hpa, before, after, hsplit, hbefore⟩ := List.find?_eq_some_iff_append.1 ha
    refine ⟨extends_iff.1 hpa, before, after, hsplit, fun b hb hextends => ?_⟩
    have hnot := hbefore b hb
    rw [extends_iff.2 hextends] at hnot
    exact absurd hnot Bool.false_ne_true

theorem completed_completing? (h : front.getLast? = some last) :
    Completed anchors front last (completing? anchors front) := by
  simp only [completing?, h]
  split_ifs with hself
  · constructor
    · exact iff_of_false Bool.false_ne_true fun hissued => hissued.1 hself
    · exact nofun
  · exact find?_extends hself

theorem readable_eq_false_iff {presented : List Bytes} :
    readable presented = false ↔ ∃ der ∈ presented, ∃ f, Certificate.read der = .error f := by
  rw [readable, List.all_eq_false]
  refine exists_congr fun der => and_congr_right fun _ => ?_
  cases Certificate.read der with
  | error f => simp [Except.toOption]
  | ok c => simp [Except.toOption]

theorem decide_unreadable {m : Type → Type} [Monad m] {leaf : Bytes} {intermediates : List Bytes}
    (h : readable (leaf :: intermediates) = false) (policy : Policy m)
    (path : Except Tls.HandshakeError Unit) (clock : Moment) (now : Nat) :
    decide anchors policy leaf intermediates path clock now =
      pure ⟨.error (.certificate .badEncoding), []⟩ := by
  simp only [decide, presentedChain_error h]

/-- If one of the presented certificates cannot be read, that is the error, and the peer is refused
with nothing judged, whatever the path check found. Otherwise the chain is the presented
certificates in their order and at most one anchor behind them: there is one exactly when the last
certificate is issued under another name than its own and some anchor of that name is not in the
chain yet, and it is the first such anchor. -/
theorem presentedChain_completed (anchors : List Certificate) (leaf : Bytes)
    (intermediates : List Bytes) :
    (presentedChain anchors (leaf :: intermediates) = .error (.certificate .badEncoding) ↔
      ∃ der ∈ leaf :: intermediates, ∃ f, Certificate.read der = .error f) ∧
    ((∃ der ∈ leaf :: intermediates, ∃ f, Certificate.read der = .error f) →
      ∀ {m : Type → Type} [Monad m] (policy : Policy m) (path : Except Tls.HandshakeError Unit)
        (clock : Moment) (now : Nat),
        decide anchors policy leaf intermediates path clock now =
          pure ⟨.error (.certificate .badEncoding), []⟩) ∧
    ((∀ der ∈ leaf :: intermediates, ∃ c, Certificate.read der = .ok c) →
      ∃ front last extra,
        presentedChain anchors (leaf :: intermediates) = .ok (front ++ extra.toList) ∧
        List.Forall₂ (fun der c => Certificate.read der = .ok c) (leaf :: intermediates) front ∧
        front.getLast? = some last ∧ Completed anchors front last extra) := by
  refine ⟨?_, fun h _ _ policy path clock now => ?_, fun h => ?_⟩
  · rw [← readable_eq_false_iff]
    cases hread : readable (leaf :: intermediates) with
    | false => exact iff_of_true (presentedChain_error hread) rfl
    | true =>
      obtain ⟨front, -, hchain⟩ := presentedChain_of_readable hread
      rw [hchain anchors]
      exact iff_of_false nofun nofun
  · exact decide_unreadable (readable_eq_false_iff.2 h) policy path clock now
  · have hread : readable (leaf :: intermediates) = true := by
      rw [← Bool.not_eq_false, readable_eq_false_iff]
      rintro ⟨der, hder, f, hf⟩
      obtain ⟨c, hc⟩ := h der hder
      exact nomatch hc.symm.trans hf
    obtain ⟨front, hfront, hchain⟩ := presentedChain_of_readable hread
    have hne : front ≠ [] := List.ne_nil_of_length_pos (by simp [← hfront.length_eq])
    have hlast := List.getLast?_eq_some_getLast hne
    exact ⟨front, _, _, hchain anchors, hfront, hlast, completed_completing? hlast⟩

theorem presentedChain_completed_issued :
    let leaf := issued (Bytes.ofString "L") (Bytes.ofString "R")
    let anchors := [root "S" 2020 2049, root "R" 2000 2001, root "R" 2020 2049]
    (∀ der ∈ [leaf], ∃ c, Certificate.read der = .ok c) ∧
      (∃ front a, presentedChain anchors [leaf] = .ok (front ++ [a]) ∧ front.length = 1 ∧
        a.subject.text = "/CN=R") ∧
      (∃ der ∈ [leaf, []], ∃ f, Certificate.read der = .error f) ∧
      decide anchors (⟨none, none⟩ : Policy Id) leaf [[]] (.ok ()) ⟨0, 0⟩ 1735689600 =
        pure ⟨.error (.certificate .badEncoding), []⟩ := by
  intro leaf anchors
  have hleaf : ∃ c, Certificate.read leaf = .ok c ∧ c.subject.text = "/CN=L" ∧
      c.issuer.text = "/CN=R" := by
    have hread : (Certificate.read leaf).toOption.map (fun c => (c.subject.text, c.issuer.text)) =
        some ("/CN=L", "/CN=R") := by
      decide +kernel
    obtain ⟨c, hc, htexts⟩ := Option.map_eq_some_iff.1 hread
    exact ⟨c, toOption_eq_some_iff.1 hc, congrArg Prod.fst htexts, congrArg Prod.snd htexts⟩
  obtain ⟨c, hc, hsubject, hissuer⟩ := hleaf
  have hall : ∀ der ∈ [leaf], ∃ c, Certificate.read der = .ok c := by
    simpa using ⟨c, hc⟩
  have hbad : ∃ der ∈ [leaf, []], ∃ f, Certificate.read der = .error f :=
    ⟨[], by simp, .malformed, rfl⟩
  obtain ⟨-, -, hgood⟩ := presentedChain_completed anchors leaf []
  obtain ⟨-, hrefused, -⟩ := presentedChain_completed anchors leaf [[]]
  refine ⟨hall, ?_, hbad, hrefused hbad (⟨none, none⟩ : Policy Id) (.ok ()) ⟨0, 0⟩ 1735689600⟩
  obtain ⟨front, last, extra, hchain, hfront, hlast, hcompleted⟩ := hgood hall
  have hone : front = [c] := by
    cases hfront with
    | cons hread hrest =>
      cases hrest
      rw [Except.ok.inj (hread.symm.trans hc)]
  subst hone
  obtain rfl : c = last := Option.some.inj hlast
  have hextends : Extends [c] c (root "R" 2000 2001) := by
    refine ⟨hissuer.symm, fun d hd hsame => ?_⟩
    rw [List.mem_singleton.1 hd] at hsame
    have hname := congrArg Certificate.Name.text hsame.subject
    rw [hsubject] at hname
    exact absurd hname (by decide)
  have hissued : c.subject.text ≠ c.issuer.text := by
    rw [hsubject, hissuer]
    decide
  have hpresent := hcompleted.present.2 ⟨hissued, _, by simp [anchors], hextends⟩
  obtain ⟨a, rfl⟩ := Option.isSome_iff_exists.1 hpresent
  exact ⟨[c], a, hchain, rfl, (hcompleted.first a rfl).1.named.trans hissuer⟩

end Trust
end Parley
