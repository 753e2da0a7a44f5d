import Mathlib
import Parley.Proofs.Trust.Predicate

/-!
# What a verdict records

A verdict tells one decision four times: by what it answers, by the first error of the built-in
checks, by its outcome and by its notes. These never contradict each other, whatever the checks
find and whatever a predicate says to it, and every certificate of a chain gets one verdict.
-/

namespace Parley.Trust

structure Verdict.Coherent (v : Verdict) : Prop where
  pass : v.outcome = .pass → v.accepted = true ∧ v.error = none
  fail : v.outcome = .fail → v.accepted = false ∧ v.error ≠ none
  override : v.outcome = .override → (v.accepted = true ↔ v.error ≠ none)
  notes : v.notes = [] ↔ v.outcome = .pass

namespace Policy
variable {hostname : Option String} {failure : Option Failure} {now : Moment} {depth : Nat}
  {c : Certificate} {v : Verdict} {answer : Bool}

/-- The verdict is on the certificate at the depth, and true to the built-in checks. -/
structure Describes (hostname : Option String) (failure : Option Failure) (now : Moment)
    (depth : Nat) (c : Certificate) (v : Verdict) : Prop where
  place : v.depth = depth
  subject : v.subject = c.subject.text
  issuer : v.issuer = c.issuer.text
  error : v.error = none ↔ Passes hostname failure now depth c
  coherent : v.Coherent

theorem check_accepted_iff_error :
    (check hostname depth c failure now).accepted = true ↔
      (check hostname depth c failure now).error = none :=
  tells_findings.ok.trans tells_findings.error.symm

theorem check_outcome_eq_pass (h : (check hostname depth c failure now).error = none) :
    (check hostname depth c failure now).outcome = .pass :=
  if_pos (check_accepted_iff_error.2 h)

theorem check_outcome_eq_fail (h : (check hostname depth c failure now).error ≠ none) :
    (check hostname depth c failure now).outcome = .fail :=
  if_neg (mt check_accepted_iff_error.1 h)

theorem check_notes_eq_nil_iff :
    (check hostname depth c failure now).notes = [] ↔
      (check hostname depth c failure now).error = none :=
  tells_findings.notes.trans tells_findings.error.symm

theorem coherent_check : (check hostname depth c failure now).Coherent := by
  cases herror : (check hostname depth c failure now).error with
  | none =>
    have haccepted := check_accepted_iff_error.2 herror
    have houtcome := check_outcome_eq_pass herror
    have hnotes := check_notes_eq_nil_iff.2 herror
    constructor
    · exact fun _ => ⟨haccepted, herror⟩
    · exact fun h => nomatch houtcome.symm.trans h
    · exact fun h => nomatch houtcome.symm.trans h
    · exact iff_of_true hnotes houtcome
  | some e =>
    have hsome : (check hostname depth c failure now).error ≠ none := by simp [herror]
    have houtcome := check_outcome_eq_fail hsome
    constructor
    · exact fun h => nomatch houtcome.symm.trans h
    · exact fun _ => ⟨Bool.eq_false_iff.2 (mt check_accepted_iff_error.1 hsome), hsome⟩
    · exact fun h => nomatch houtcome.symm.trans h
    · exact iff_of_false (mt check_notes_eq_nil_iff.1 hsome) fun h => nomatch houtcome.symm.trans h

theorem check_outcome_ne_override :
    (check hostname depth c failure now).outcome ≠ .override := by
  cases herror : (check hostname depth c failure now).error with
  | none => simp [check_outcome_eq_pass herror]
  | some e =>
    have hsome : (check hostname depth c failure now).error ≠ none := by simp [herror]
    simp [check_outcome_eq_fail hsome]

theorem describes_check : Describes hostname failure now depth c
    (check hostname depth c failure now) where
  place := rfl
  subject := rfl
  issuer := rfl
  error := check_accepted_iff_error.symm.trans check_accepted_iff_passes
  coherent := coherent_check

theorem settle_outcome_iff (h : v.outcome ≠ .override) :
    (settle v answer).outcome = .override ↔ answer ≠ v.accepted := by
  by_cases hsame : answer = v.accepted
  · rw [settle, if_pos hsame]
    exact iff_of_false h (not_not.2 hsame)
  · rw [settle, if_neg hsame]
    exact iff_of_true rfl hsame

theorem coherent_reversed (hv : v.Coherent) (h : v.outcome ≠ .override)
    (hne : answer ≠ v.accepted) : answer = true ↔ v.error ≠ none := by
  cases houtcome : v.outcome with
  | pass =>
    obtain ⟨haccepted, herror⟩ := hv.pass houtcome
    simpa [haccepted, herror] using hne
  | fail =>
    obtain ⟨haccepted, herror⟩ := hv.fail houtcome
    simpa [haccepted, herror] using hne
  | override => exact absurd houtcome h

theorem Describes.settle (hv : Describes hostname failure now depth c v)
    (h : v.outcome ≠ .override) :
    Describes hostname failure now depth c (settle v answer) := by
  by_cases hsame : answer = v.accepted
  · rw [Policy.settle, if_pos hsame]
    exact hv
  · rw [Policy.settle, if_neg hsame]
    have hreversed := coherent_reversed hv.coherent h hsame
    refine ⟨hv.place, hv.subject, hv.issuer, hv.error, ?_⟩
    constructor
    · intro hpass
      cases hpass
    · intro hfail
      cases hfail
    · exact fun _ => hreversed
    · simp

theorem getElem?_checks {chain : List Certificate} (hc : chain[depth]? = some c) :
    (chain.zipIdx.reverse.map fun place =>
        check hostname place.2 place.1 failure now)[chain.length - 1 - depth]? =
      some (check hostname depth c failure now) := by
  obtain ⟨hlt, rfl⟩ := List.getElem?_eq_some_iff.1 hc
  rw [List.getElem?_map, getElem?_places hlt, Option.map_some]

theorem getElem?_settled {places : List (Certificate × Nat)} {answers : List Bool} {i : Nat}
    {place : Certificate × Nat} (h : answers.length = places.length)
    (hplace : places[i]? = some place) :
    ∃ v q, (settled hostname failure now places answers)[i]? = some v ∧
      (questions hostname failure now places answers)[i]? = some q ∧ q.certificate = place.1 ∧
      (q.passed = true ↔ Passes hostname failure now place.2 place.1) ∧
      Describes hostname failure now place.2 place.1 v ∧ v.accepted = q.answer ∧
      (v.outcome = .override ↔ q.answer ≠ q.passed) := by
  have hlt : i < answers.length := h ▸ (List.getElem?_eq_some_iff.1 hplace).1
  have hanswer := List.getElem?_eq_getElem hlt
  refine ⟨_, _, List.getElem?_zipWith_eq_some.2 ⟨place, answers[i], hplace, hanswer, rfl⟩,
    List.getElem?_zipWith_eq_some.2 ⟨place, answers[i], hplace, hanswer, rfl⟩, rfl, ?_, ?_, ?_, ?_⟩
  · exact check_accepted_iff_passes
  · exact describes_check.settle check_outcome_ne_override
  · exact settle_accepted _ _
  · exact settle_outcome_iff check_outcome_ne_override

/-- A chain gets one verdict for each certificate, from the deepest to the leaf. Each names its
certificate, has an error unless all built-in checks passed, and tells in its outcome and its notes
what was decided: that the predicate reversed the checks exactly when its answer was not theirs, and
never where there is no predicate. -/
theorem verdicts_describe (hostname : Option String) (chain : List Certificate)
    (failure : Option Failure) (now : Moment) :
    (∀ {m : Type → Type} [Monad m] [LawfulMonad m], ∃ verdicts,
      (⟨hostname, none⟩ : Policy m).evaluate chain failure now = pure verdicts ∧
      verdicts.length = chain.length ∧
      ∀ depth c, chain[depth]? = some c → ∃ v, verdicts[chain.length - 1 - depth]? = some v ∧
        Describes hostname failure now depth c v ∧ v.outcome ≠ .override) ∧
    ∀ {σ : Type} (ask : Bool → Certificate → StateM σ Bool) (memory : σ),
      let r := ((⟨hostname, some ask⟩ : Policy _).evaluate chain failure now).run memory
      ∃ record, ((⟨hostname, some (recorded ask)⟩ : Policy _).evaluate chain failure now).run
          (memory, []) = (r.1, r.2, record) ∧
        r.1.length = chain.length ∧ record.length = chain.length ∧
        ∀ depth c, chain[depth]? = some c → ∃ v q, r.1[chain.length - 1 - depth]? = some v ∧
          record[chain.length - 1 - depth]? = some q ∧ q.certificate = c ∧
          (q.passed = true ↔ Passes hostname failure now depth c) ∧
          Describes hostname failure now depth c v ∧ v.accepted = q.answer ∧
          (v.outcome = .override ↔ q.answer ≠ q.passed) := by
  constructor
  · intro m _ _
    refine ⟨_, evaluate_without hostname chain failure now, by simp, fun depth c hc => ?_⟩
    exact ⟨_, getElem?_checks hc, describes_check, check_outcome_ne_override⟩
  · intro σ ask memory r
    obtain ⟨answers, memory', hlen, hplain, hrecorded⟩ :=
      judge_run hostname failure now ask chain.zipIdx.reverse memory
    have hr : r = (settled hostname failure now chain.zipIdx.reverse answers, memory') := hplain
    refine ⟨questions hostname failure now chain.zipIdx.reverse answers, ?_, ?_, ?_, ?_⟩
    · rw [hr]
      exact hrecorded []
    · rw [hr]
      simp [settled, hlen]
    · simp [questions, hlen]
    · intro depth c hc
      obtain ⟨hlt, rfl⟩ := List.getElem?_eq_some_iff.1 hc
      rw [hr]
      exact getElem?_settled hlen (getElem?_places hlt)

theorem verdicts_describe_expired_leaf :
    let start : CivilTime := { year := 2000, month := 1, day := 1, hour := 0, minute := 0 }
    let authority : Certificate :=
      ⟨⟨[⟨"CN", "Root"⟩]⟩, ⟨[⟨"CN", "Root"⟩]⟩, start, { start with year := 2090 }, []⟩
    let leaf : Certificate :=
      ⟨⟨[⟨"CN", "leaf"⟩]⟩, ⟨[⟨"CN", "Root"⟩]⟩, start, { start with year := 2001 }, []⟩
    let now : Moment := ⟨1735689600, 0⟩
    let ask : Bool → Certificate → StateM Nat Bool := fun _ _ asked => (true, asked + 1)
    let r : List Verdict × Nat :=
      ((⟨none, some ask⟩ : Policy _).evaluate [leaf, authority] none now).run 0
    LawfulMonad Id ∧ [leaf, authority][0]? = some leaf ∧
      (∃ (verdicts : List Verdict) (v : Verdict),
        (⟨none, none⟩ : Policy Id).evaluate [leaf, authority] none now = pure verdicts ∧
        verdicts[1]? = some v ∧ v.issuer = "/CN=Root" ∧ v.error ≠ none ∧
        v.outcome ≠ .override) ∧
      ∃ (record : List Question) (v : Verdict) (q : Question),
        ((⟨none, some (recorded ask)⟩ : Policy _).evaluate [leaf, authority] none now).run (0, []) =
          (r.1, r.2, record) ∧ r.1[1]? = some v ∧ record[1]? = some q ∧
        v.depth = 0 ∧ v.accepted = true ∧ v.error ≠ none ∧ v.outcome = .override ∧
        q.certificate = leaf ∧ q.answer = true ∧ q.passed = false := by
  intro start authority leaf now ask r
  have hleaf : [leaf, authority][0]? = some leaf := rfl
  have hexpired : ¬ Passes none none now 0 leaf := fun h => absurd h.dated.2 (by decide)
  obtain ⟨hwithout, hwith⟩ := verdicts_describe none [leaf, authority] none now
  obtain ⟨verdicts, heval, -, hplain⟩ := hwithout (m := Id)
  obtain ⟨v, hv, hdescribes, hnot⟩ := hplain 0 leaf hleaf
  obtain ⟨record, hrecord, -, -, hasked⟩ := hwith ask 0
  obtain ⟨v', q, hv', hq, hcertificate, hpassed, hdescribes', hanswer, houtcome⟩ :=
    hasked 0 leaf hleaf
  have hrefused : q.passed = false := Bool.eq_false_iff.2 (mt hpassed.1 hexpired)
  have hyes : v'.accepted = true := by
    have hrun : r.1[1]?.map (·.accepted) = some true := by decide
    have hplace : r.1[1]? = some v' := hv'
    rw [hplace] at hrun
    exact Option.some.inj hrun
  have hsaid : q.answer = true := hanswer.symm.trans hyes
  refine ⟨inferInstance, hleaf, ⟨verdicts, v, heval, hv, ?_, mt hdescribes.error.1 hexpired, hnot⟩,
    record, v', q, hrecord, hv', hq, hdescribes'.place, hyes, mt hdescribes'.error.1 hexpired,
    houtcome.2 ?_, hcertificate, hsaid, hrefused⟩
  · exact hdescribes.issuer
  · simp [hsaid, hrefused]

end Policy
end Parley.Trust
