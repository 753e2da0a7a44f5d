import Mathlib
import Parley.Proofs.Trust.Acceptance

/-!
# Where a failure counts

A failure is pinned to a depth. It keeps the certificate there from passing, and with it the chain.
No other certificate feels it, so it counts nowhere in a chain that ends above its depth.
-/

namespace Parley.Trust.Policy
variable {hostname : Option String} {now : Moment} {f : Failure}

theorem findings_of_ne {depth : Nat} {c : Certificate} (h : f.depth ≠ depth) :
    findings hostname depth c (some f) now = findings hostname depth c none now := by
  have hpinned : (some f).filter (·.depth == depth) = none := by simp [h]
  rw [findings, hpinned]
  rfl

theorem check_of_ne {depth : Nat} {c : Certificate} (h : f.depth ≠ depth) :
    check hostname depth c (some f) now = check hostname depth c none now := by
  unfold check
  rw [findings_of_ne h]

theorem checks_beyond {chain : List Certificate} (h : chain.length ≤ f.depth) :
    (chain.zipIdx.reverse.map fun place => check hostname place.2 place.1 (some f) now) =
      chain.zipIdx.reverse.map fun place => check hostname place.2 place.1 none now := by
  refine List.map_congr_left fun place hplace => check_of_ne ?_
  have hlt : place.2 < chain.length := by
    have hat := List.mem_zipIdx_iff_getElem?.1 (List.mem_reverse.1 hplace)
    exact (List.getElem?_eq_some_iff.1 hat).1
  omega

/-- Without a predicate a chain is refused over every failure that is pinned to one of its
certificates, and an empty one over any. A failure that is pinned deeper than the chain goes leaves
the verdicts as they are without it. -/
theorem failure_counts_within {m : Type → Type} [Monad m] [LawfulMonad m]
    (hostname : Option String) (chain : List Certificate) (f : Failure) (now : Moment) :
    ∃ verdicts plain,
      (⟨hostname, none⟩ : Policy m).evaluate chain (some f) now = pure verdicts ∧
      (⟨hostname, none⟩ : Policy m).evaluate chain none now = pure plain ∧
      (chain = [] ∨ f.depth < chain.length → accepted verdicts = false) ∧
      (chain.length ≤ f.depth → verdicts = plain) := by
  refine ⟨_, _, evaluate_without hostname chain (some f) now,
    evaluate_without hostname chain none now, ?_, checks_beyond⟩
  rintro (rfl | hlt)
  · rfl
  · exact refused_at_failure hlt

theorem failure_counts_within_root :
    let start : CivilTime := { year := 2020, month := 1, day := 1, hour := 0, minute := 0 }
    let authority : Certificate :=
      ⟨⟨[⟨"CN", "Root"⟩]⟩, ⟨[⟨"CN", "Root"⟩]⟩, start, { start with year := 2090 }, []⟩
    let leaf := { authority with subject := ⟨[⟨"CN", "leaf"⟩]⟩ }
    let f : Failure := ⟨"invalid peer certificate: UnknownIssuer", true, 1⟩
    LawfulMonad Id ∧ f.depth < [leaf, authority].length ∧
      ∃ verdicts, (⟨none, none⟩ : Policy Id).evaluate [leaf, authority] (some f)
          ⟨1735689600, 0⟩ = pure verdicts ∧ accepted verdicts = false := by
  intro start authority leaf f
  have hlt : f.depth < [leaf, authority].length := by decide
  obtain ⟨verdicts, -, heval, -, hrefused, -⟩ :=
    failure_counts_within (m := Id) none [leaf, authority] f ⟨1735689600, 0⟩
  exact ⟨inferInstance, hlt, verdicts, heval, hrefused (.inr hlt)⟩

/-- The root alone is accepted over the same failure: there is no certificate at its depth. -/
theorem accepted_over_failure_beyond :
    let start : CivilTime := { year := 2020, month := 1, day := 1, hour := 0, minute := 0 }
    let authority : Certificate :=
      ⟨⟨[⟨"CN", "Root"⟩]⟩, ⟨[⟨"CN", "Root"⟩]⟩, start, { start with year := 2090 }, []⟩
    let f : Failure := ⟨"invalid peer certificate: UnknownIssuer", true, 1⟩
    accepted (Id.run ((⟨none, none⟩ : Policy Id).evaluate [authority] (some f)
      ⟨1735689600, 0⟩)) = true := by
  decide

end Parley.Trust.Policy
