import Mathlib
import Parley.Proofs.Trust.Acceptance

/-!
# What a predicate is asked

A predicate is asked once about each certificate of a chain, from the deepest to the leaf, whatever
it answered before. It hears whether the built-in checks passed, and its answer is the verdict.
-/

namespace Parley.Trust.Policy
variable {σ : Type} {hostname : Option String} {failure : Option Failure} {now : Moment}

structure Passes (hostname : Option String) (failure : Option Failure) (now : Moment) (depth : Nat)
    (c : Certificate) : Prop where
  shallow : depth ≤ maxDepth
  unpinned : ∀ f ∈ failure, f.depth ≠ depth
  dated : c.notBefore.moment.before now ∧ now.before c.notAfter.moment
  named : depth = 0 → ∀ host ∈ hostname,
    ∃ name ∈ c.subject.values "CN" ++ c.alternateNames, Hostname.matchesName host name

theorem check_accepted_iff_passes {depth : Nat} {c : Certificate} :
    (check hostname depth c failure now).accepted = true ↔
      Passes hostname failure now depth c := by
  rw [check_accepted_iff]
  simp only [Certificate.isValidAt_iff, Certificate.matchesHost_iff]
  exact ⟨fun ⟨hshallow, hunpinned, hdated, hnamed⟩ => ⟨hshallow, hunpinned, hdated, hnamed⟩,
    fun h => ⟨h.shallow, h.unpinned, h.dated, h.named⟩⟩

section answers
variable {places : List (Certificate × Nat)} {answers : List Bool}

theorem zipWith_answers (h : answers.length = places.length) :
    places.zipWith (fun _ answer => answer) answers = answers := by
  rw [← List.map_uncurry_zip_eq_zipWith]
  exact List.map_snd_zip h.le

theorem settled_answers (h : answers.length = places.length) :
    (settled hostname failure now places answers).map (·.accepted) = answers := by
  rw [settled, List.map_zipWith]
  simp only [settle_accepted]
  exact zipWith_answers h

theorem questions_answers (h : answers.length = places.length) :
    (questions hostname failure now places answers).map (·.answer) = answers := by
  rw [questions, List.map_zipWith]
  exact zipWith_answers h

theorem getElem?_questions (h : answers.length = places.length) {i : Nat}
    {place : Certificate × Nat} (hplace : places[i]? = some place) :
    ∃ q, (questions hostname failure now places answers)[i]? = some q ∧
      q.certificate = place.1 ∧
      (q.passed = true ↔ Passes hostname failure now place.2 place.1) := by
  have hlt : i < answers.length := h ▸ (List.getElem?_eq_some_iff.1 hplace).1
  refine ⟨_, List.getElem?_zipWith_eq_some.2
    ⟨place, answers[i], hplace, List.getElem?_eq_getElem hlt, rfl⟩, rfl, ?_⟩
  exact check_accepted_iff_passes

end answers

theorem accepted_iff_answers {verdicts : List Verdict} {record : List Question}
    (h : verdicts.map (·.accepted) = record.map (·.answer)) :
    accepted verdicts = true ↔ record ≠ [] ∧ ∀ q ∈ record, q.answer = true := by
  have hnil : verdicts = [] ↔ record = [] := by
    rw [← List.map_eq_nil_iff (f := (·.accepted)), h, List.map_eq_nil_iff]
  have hall : (∀ v ∈ verdicts, v.accepted = true) ↔ ∀ q ∈ record, q.answer = true := by
    have hmap : (∀ b ∈ verdicts.map (·.accepted), b = true) ↔
        ∀ b ∈ record.map (·.answer), b = true := by rw [h]
    simpa only [List.forall_mem_map] using hmap
  rw [accepted, Bool.and_eq_true, List.all_eq_true, Bool.not_eq_true', List.isEmpty_eq_false_iff,
    ne_eq, hnil, hall]

/-- A predicate, even one with memory, is asked once about each certificate, the deepest first and
the leaf last, and hears that it passed exactly when all built-in checks did. Each answer is the
verdict: the chain is accepted when it has a certificate and every answer was yes. -/
theorem predicate_decides (hostname : Option String) (ask : Bool → Certificate → StateM σ Bool)
    (chain : List Certificate) (failure : Option Failure) (now : Moment) (memory : σ) :
    let r := ((⟨hostname, some ask⟩ : Policy _).evaluate chain failure now).run memory
    ∃ record, ((⟨hostname, some (recorded ask)⟩ : Policy _).evaluate chain failure now).run
        (memory, []) = (r.1, r.2, record) ∧
      record.length = chain.length ∧
      (∀ depth c, chain[depth]? = some c →
        ∃ q, record[chain.length - 1 - depth]? = some q ∧ q.certificate = c ∧
          (q.passed = true ↔ Passes hostname failure now depth c)) ∧
      r.1.map (·.accepted) = record.map (·.answer) ∧
      (accepted r.1 = true ↔ chain ≠ [] ∧ ∀ q ∈ record, q.answer = true) := by
  intro r
  obtain ⟨answers, memory', hlen, hplain, hrecorded⟩ :=
    judge_run hostname failure now ask chain.zipIdx.reverse memory
  have hr : r = (settled hostname failure now chain.zipIdx.reverse answers, memory') := hplain
  let record := questions hostname failure now chain.zipIdx.reverse answers
  have hcount : record.length = chain.length := by
    have hanswers : record.map (·.answer) = answers := questions_answers hlen
    rw [← List.length_map (f := (·.answer)), hanswers, hlen, List.length_reverse,
      List.length_zipIdx]
  have hfinal : r.1.map (·.accepted) = record.map (·.answer) := by
    rw [hr, settled_answers hlen, questions_answers hlen]
  refine ⟨record, ?_, hcount, fun depth c hc => ?_, hfinal, ?_⟩
  · rw [hr]
    exact hrecorded []
  · obtain ⟨hlt, rfl⟩ := List.getElem?_eq_some_iff.1 hc
    exact getElem?_questions hlen (getElem?_places hlt)
  · have hempty : record = [] ↔ chain = [] := by
      rw [← List.length_eq_zero_iff, hcount, List.length_eq_zero_iff]
    rw [accepted_iff_answers hfinal, ne_eq, hempty]

theorem predicate_decides_expired :
    let start : CivilTime := { year := 2000, month := 1, day := 1, hour := 0, minute := 0 }
    let authority : Certificate :=
      ⟨⟨[⟨"CN", "Root"⟩]⟩, ⟨[⟨"CN", "Root"⟩]⟩, start, { start with year := 2001 }, []⟩
    let chain := List.replicate 10 authority
    let ask : Bool → Certificate → StateM Nat Bool := fun _ _ asked => (true, asked + 1)
    let r := ((⟨none, some ask⟩ : Policy _).evaluate chain none ⟨1735689600, 0⟩).run 0
    chain[9]? = some authority ∧ r.2 = 10 ∧ accepted r.1 = true ∧
      ∃ record, ((⟨none, some (recorded ask)⟩ : Policy _).evaluate chain none
          ⟨1735689600, 0⟩).run (0, []) = (r.1, r.2, record) ∧
        ∃ q, record[0]? = some q ∧ q.certificate = authority ∧ q.passed = false := by
  intro start authority chain ask r
  have hdeepest : chain[9]? = some authority := rfl
  obtain ⟨record, hrun, -, hasked, -⟩ :=
    predicate_decides none ask chain none ⟨1735689600, 0⟩ 0
  obtain ⟨q, hq, hcertificate, hpassed⟩ := hasked 9 authority hdeepest
  refine ⟨hdeepest, by decide, by decide, record, hrun, q, hq, hcertificate, ?_⟩
  exact Bool.eq_false_iff.2 fun hyes => absurd (hpassed.1 hyes).shallow (by decide)

end Parley.Trust.Policy
