import Mathlib
import Parley.Proofs.Certificate.Reader
import Parley.Proofs.Trust.Completion

/-!
# Names that are compared by their texts

Whether a certificate is self-issued, and which anchor issued the last one, is read off the texts of
names. For names that are told apart by their texts that is the same as comparing names. A value
that ends in the text of an attribute breaks it: two names have one text, and a certificate that
somebody else issued is taken for self-issued.
-/

namespace Parley
open Certificate (Name IsType)

theorem Certificate.isType_commonName : IsType "CN" :=
  ⟨Asn1.Oid.ofArcs [2, 5, 4, 3], by decide +kernel⟩

theorem Certificate.isType_organization : IsType "O" :=
  ⟨Asn1.Oid.ofArcs [2, 5, 4, 10], by decide +kernel⟩

structure Certificate.Legible (c : Certificate) : Prop where
  read : ∃ der, Certificate.read der = .ok c
  subject : c.subject.Plain
  issuer : c.issuer.Plain

theorem Certificate.Legible.issues_iff {a c : Certificate} (ha : a.Legible) (hc : c.Legible) :
    a.subject.text = c.issuer.text ↔ a.subject = c.issuer := by
  obtain ⟨der, hread⟩ := ha.read
  obtain ⟨der', hread'⟩ := hc.read
  exact Name.text_eq_text_iff (Certificate.typed_of_read hread).1
    (Certificate.typed_of_read hread').2 ha.subject hc.issuer

namespace Trust

theorem completing?_by_name {anchors front : List Certificate} {last : Certificate}
    (hlast : front.getLast? = some last) (hlegible : last.Legible)
    (hanchors : ∀ a ∈ anchors, a.Legible) :
    completing? anchors front =
      if last.subject = last.issuer then none
      else anchors.find? fun a => a.subject == last.issuer && !front.contains a := by
  simp only [completing?, hlast]
  apply if_congr (hlegible.issues_iff hlegible) rfl
  apply List.find?_congr
  intro a ha
  have hissues : (a.subject.text == last.issuer.text) = (a.subject == last.issuer) := by
    rw [Bool.eq_iff_iff, beq_iff_eq, beq_iff_eq]
    exact (hanchors a ha).issues_iff hlegible
  rw [hissues]

/-- Names in which no value ends in the text of an attribute are told apart by their texts, and
every other name shares its text with one of these. Where all names are such, the anchor that
completes a chain is looked up by name. -/
theorem plain_names_by_text (n n' : Name) (hn : n.Typed) (hn' : n'.Typed) :
    (n.Plain → n'.Plain → n.text = n'.text → n.attributes = n'.attributes) ∧
    (¬ n.Plain → ∃ p : Name, p.Typed ∧ p.Plain ∧ p.text = n.text ∧ p.attributes ≠ n.attributes) ∧
    ∀ (anchors front : List Certificate) (last : Certificate), front.getLast? = some last →
      last.Legible → (∀ a ∈ anchors, a.Legible) →
      completing? anchors front =
        if last.subject = last.issuer then none
        else anchors.find? fun a => a.subject == last.issuer && !front.contains a := by
  refine ⟨fun hplain hplain' htext => ?_, fun hnot => ?_, ?_⟩
  · rw [Name.eq_of_text_eq hn hn' hplain hplain' htext]
  · obtain ⟨p, hp, hplain, htext⟩ := Name.exists_plain hn
    refine ⟨p, hp, hplain, htext, fun hsame => hnot ?_⟩
    unfold Name.Plain
    rw [← hsame]
    exact hplain
  · intro anchors front last hlast hlegible hanchors
    exact completing?_by_name hlast hlegible hanchors

theorem read_issued (cn issuer : Bytes) (s i : String)
    (h : (Certificate.read (issued cn issuer)).toOption.map (fun c => (c.subject, c.issuer)) =
      some (⟨[⟨"CN", s⟩]⟩, ⟨[⟨"CN", i⟩]⟩)) (hs : '/' ∉ s.toList) (hi : '/' ∉ i.toList) :
    ∃ c : Certificate, c.Legible ∧ c.subject = ⟨[⟨"CN", s⟩]⟩ ∧ c.issuer = ⟨[⟨"CN", i⟩]⟩ := by
  obtain ⟨c, hc, hnames⟩ := Option.map_eq_some_iff.1 h
  have hsubject : c.subject = ⟨[⟨"CN", s⟩]⟩ := congrArg Prod.fst hnames
  have hissuer : c.issuer = ⟨[⟨"CN", i⟩]⟩ := congrArg Prod.snd hnames
  refine ⟨c, ⟨⟨_, toOption_eq_some_iff.1 hc⟩, ?_, ?_⟩, hsubject, hissuer⟩
  · intro a ha
    rw [hsubject] at ha
    rw [List.mem_singleton.1 ha]
    exact Certificate.Attribute.plain_of_notMem (.inl rfl) hs
  · intro a ha
    rw [hissuer] at ha
    rw [List.mem_singleton.1 ha]
    exact Certificate.Attribute.plain_of_notMem (.inl rfl) hi

theorem plain_names_by_text_regrouped :
    let unit : Certificate.Attribute := ⟨"CN", "R&D/Ops"⟩
    let tag : Certificate.Attribute := ⟨"O", "x=1"⟩
    let together := Name.ofSets [[unit, tag]]
    let apart := Name.ofSets [[unit], [tag]]
    let whole : Name := ⟨[⟨"CN", "Vault CA/O=Communique Test"⟩]⟩
    together.Typed ∧ together.Plain ∧ apart.Typed ∧ apart.Plain ∧ together.text = apart.text ∧
      together.attributes = apart.attributes ∧
      whole.Typed ∧ ¬ whole.Plain ∧
      (∃ p : Name, p.Plain ∧ p.text = whole.text ∧ p.attributes ≠ whole.attributes) ∧
      ∃ leaf root : Certificate, leaf.Legible ∧ root.Legible ∧
        completing? [root] [leaf] = some root := by
  intro unit tag together apart whole
  have hattributes : ∀ a ∈ [unit, tag], a.Typed ∧ a.Plain := by
    intro a ha
    rcases List.mem_pair.1 ha with rfl | rfl
    · exact ⟨Certificate.isType_commonName,
        Certificate.Attribute.plain_of_notMem (.inr rfl) (by decide)⟩
    · exact ⟨Certificate.isType_organization,
        Certificate.Attribute.plain_of_notMem (.inl rfl) (by decide)⟩
  have htyped : Name.Typed ⟨[unit, tag]⟩ := fun a ha => (hattributes a ha).1
  have hplain : Name.Plain ⟨[unit, tag]⟩ := fun a ha => (hattributes a ha).2
  have hwhole : whole.Typed := by
    intro a ha
    rw [List.mem_singleton.1 ha]
    exact Certificate.isType_commonName
  have hnotPlain : ¬ whole.Plain := fun h =>
    h _ (List.mem_cons_self ..) "Vault CA" ⟨"O", "Communique Test"⟩
      Certificate.isType_organization (by decide)
  obtain ⟨htexts, -, hcompleting⟩ := plain_names_by_text together apart htyped htyped
  obtain ⟨-, hother, -⟩ := plain_names_by_text whole whole hwhole hwhole
  obtain ⟨p, -, hp, hptext, hne⟩ := hother hnotPlain
  obtain ⟨leaf, hleaf, hsubject, hissuer⟩ := read_issued (Bytes.ofString "L") (Bytes.ofString "R")
    "L" "R" (by decide +kernel) (by decide) (by decide)
  obtain ⟨root, hroot, hname, -⟩ := read_issued (Bytes.ofString "R") (Bytes.ofString "R")
    "R" "R" (by decide +kernel) (by decide) (by decide)
  have hissued : leaf.subject ≠ leaf.issuer := by
    rw [hsubject, hissuer]
    decide
  have habsent : [leaf].contains root = false := by
    rw [List.contains_eq_any_beq, List.any_eq_false]
    intro c hc hsame
    rw [List.mem_singleton.1 hc] at hsame
    have hsubjects := (Certificate.beq_iff_same.1 hsame).subject
    rw [hname, ← hissuer] at hsubjects
    exact hissued hsubjects.symm
  refine ⟨htyped, hplain, htyped, hplain, rfl, htexts hplain hplain rfl, hwhole, hnotPlain,
    ⟨p, hp, hptext, hne⟩, leaf, root, hleaf, hroot, ?_⟩
  rw [hcompleting [root] [leaf] leaf rfl hleaf (by simpa using hroot), if_neg hissued]
  apply List.find?_cons_of_pos
  rw [habsent, hname, hissuer]
  rfl

/-- A leaf whose only common name reads like the two attributes of the name that it was issued under
is taken for self-issued, and the anchor of that name is left out. -/
theorem one_text_for_two_names :
    let split : Name := ⟨[⟨"CN", "Vault CA"⟩, ⟨"O", "Communique Test"⟩]⟩
    let whole : Name := ⟨[⟨"CN", "Vault CA/O=Communique Test"⟩]⟩
    let start : CivilTime := { year := 2000, month := 1, day := 1, hour := 0, minute := 0 }
    let anchor : Certificate := ⟨split, split, start, { start with year := 2001 }, []⟩
    let leaf : Certificate := ⟨whole, split, start, { start with year := 2090 }, []⟩
    split.Typed ∧ whole.Typed ∧ split.text = whole.text ∧ split.attributes ≠ whole.attributes ∧
      leaf.subject ≠ leaf.issuer ∧ anchor.subject = leaf.issuer ∧
      completing? [anchor] [leaf] = none := by
  intro split whole start anchor leaf
  have hsplit : split.Typed := by
    intro a ha
    rcases List.mem_pair.1 ha with rfl | rfl
    · exact Certificate.isType_commonName
    · exact Certificate.isType_organization
  have hwhole : whole.Typed := by
    intro a ha
    rw [List.mem_singleton.1 ha]
    exact Certificate.isType_commonName
  have htext : split.text = whole.text := by decide
  refine ⟨hsplit, hwhole, htext, by decide, by decide, rfl, ?_⟩
  simp only [completing?, List.getLast?_singleton]
  exact if_pos htext.symm

end Trust
end Parley
