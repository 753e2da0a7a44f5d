import Mathlib
import Parley.Trust.Policy

/-!
# What a policy makes of a chain

Without a predicate the verdicts are those of the built-in checks. A predicate answers once for each
certificate, the deepest first, and its answer stands. The certificate that a failure is pinned to
does not pass the built-in checks.
-/

namespace Parley.Trust

structure Question where
  passed : Bool
  certificate : Certificate
  answer : Bool

/-- A predicate with memory, and a record of what it was asked. -/
def recorded {σ : Type} (ask : Bool → Certificate → StateM σ Bool) (passed : Bool)
    (c : Certificate) : StateM (σ × List Question) Bool := fun (memory, record) =>
  let (answer, memory) := ask passed c memory
  (answer, memory, record ++ [⟨passed, c, answer⟩])

/-- That all is well shows in each of the findings, or in none. -/
structure Findings.Tells (f : Findings) (fine : Prop) : Prop where
  ok : f.ok = true ↔ fine
  error : f.error = none ↔ fine
  notes : f.notes = [] ↔ fine

namespace Findings
variable {f : Findings} {fine : Prop} {depth : Nat} {c : Certificate} {now : Moment}

theorem Tells.congr {other : Prop} (h : f.Tells fine) (hsame : fine ↔ other) : f.Tells other :=
  ⟨h.ok.trans hsame, h.error.trans hsame, h.notes.trans hsame⟩

theorem tells_prior {failure : Option Failure} :
    (prior depth c failure).Tells (depth ≤ maxDepth ∧ failure = none) := by
  unfold prior
  by_cases hdeep : maxDepth < depth
  · constructor <;> simp [hdeep]
  · have hshallow : depth ≤ maxDepth := not_lt.1 hdeep
    cases failure with
    | none => constructor <;> simp [hdeep, hshallow]
    | some f => constructor <;> simp [hdeep]

theorem tells_reject (f : Findings) (e : String) : (f.reject e).Tells False := by
  constructor <;> simp [reject]

theorem Tells.checkHost (h : f.Tells fine) (hostname : Option String) (depth : Nat)
    (c : Certificate) : (f.checkHost hostname depth c).Tells
      (fine ∧ (depth = 0 → ∀ host ∈ hostname, c.matchesHost host = true)) := by
  cases hostname with
  | none => exact h.congr (by simp)
  | some host =>
    unfold Findings.checkHost
    dsimp only
    split_ifs with hno
    · exact (tells_reject f _).congr (by simp_all)
    · exact h.congr (by simp_all)

theorem Tells.checkDates (h : f.Tells fine) (c : Certificate) (now : Moment) :
    (f.checkDates c now).Tells (fine ∧ c.isValidAt now = true) := by
  unfold Findings.checkDates
  split_ifs with hvalid
  · exact h.congr (by simp [hvalid])
  · exact (tells_reject f _).congr (by simp [hvalid])

end Findings

namespace Policy
variable {σ : Type} {hostname : Option String} {now : Moment}

theorem tells_findings {depth : Nat} {c : Certificate} {failure : Option Failure} :
    (findings hostname depth c failure now).Tells
      (depth ≤ maxDepth ∧ (∀ f ∈ failure, f.depth ≠ depth) ∧ c.isValidAt now = true ∧
        (depth = 0 → ∀ host ∈ hostname, c.matchesHost host = true)) := by
  have hpinned : failure.filter (·.depth == depth) = none ↔ ∀ f ∈ failure, f.depth ≠ depth := by
    simp [Option.filter_eq_none_iff]
  refine ((Findings.tells_prior.checkHost hostname depth c).checkDates c now).congr ?_
  rw [hpinned]
  tauto

@[simp] theorem settle_accepted (v : Verdict) (answer : Bool) :
    (settle v answer).accepted = answer := by
  by_cases h : answer = v.accepted
  · rw [settle, if_pos h, h]
  · rw [settle, if_neg h]

theorem check_at_failure (hostname : Option String) (f : Failure) (c : Certificate) (now : Moment) :
    (check hostname f.depth c (some f) now).accepted = false :=
  Bool.eq_false_iff.2 fun haccepted => (tells_findings.ok.1 haccepted).2.1 f rfl rfl

theorem evaluate_without {m : Type → Type} [Monad m] [LawfulMonad m] (hostname : Option String)
    (chain : List Certificate) (failure : Option Failure) (now : Moment) :
    (⟨hostname, none⟩ : Policy m).evaluate chain failure now =
      pure (chain.zipIdx.reverse.map fun place => check hostname place.2 place.1 failure now) :=
  List.mapM_pure

theorem refused_at_failure {chain : List Certificate} {f : Failure} (hlt : f.depth < chain.length) :
    accepted (chain.zipIdx.reverse.map fun place =>
      check hostname place.2 place.1 (some f) now) = false := by
  have hmem : (chain[f.depth], f.depth) ∈ chain.zipIdx.reverse :=
    List.mem_reverse.2 (List.mk_mem_zipIdx_iff_getElem?.2 (List.getElem?_eq_getElem hlt))
  rw [accepted, Bool.and_eq_false_iff, List.all_eq_false]
  exact .inr ⟨_, List.mem_map_of_mem hmem, by simp only [check_at_failure, Bool.false_eq_true,
    not_false_eq_true]⟩

def settled (hostname : Option String) (failure : Option Failure) (now : Moment)
    (places : List (Certificate × Nat)) (answers : List Bool) : List Verdict :=
  places.zipWith (fun place => settle (check hostname place.2 place.1 failure now)) answers

def questions (hostname : Option String) (failure : Option Failure) (now : Moment)
    (places : List (Certificate × Nat)) (answers : List Bool) : List Question :=
  places.zipWith
    (fun place => .mk (check hostname place.2 place.1 failure now).accepted place.1) answers

theorem judge_run (hostname : Option String) (failure : Option Failure) (now : Moment)
    (ask : Bool → Certificate → StateM σ Bool) (places : List (Certificate × Nat)) (memory : σ) :
    ∃ answers memory', answers.length = places.length ∧
      (places.mapM ((⟨hostname, some ask⟩ : Policy _).judge failure now)).run memory =
        (settled hostname failure now places answers, memory') ∧
      ∀ record, (places.mapM ((⟨hostname, some (recorded ask)⟩ : Policy _).judge failure now)).run
          (memory, record) =
        (settled hostname failure now places answers, memory',
          record ++ questions hostname failure now places answers) := by
  induction places generalizing memory with
  | nil =>
    refine ⟨[], memory, rfl, rfl, fun record => ?_⟩
    rw [questions, List.zipWith_nil_left, List.append_nil]
    rfl
  | cons place rest ih =>
    let v := check hostname place.2 place.1 failure now
    let next := ask v.accepted place.1 memory
    obtain ⟨answers, memory', hlen, hplain, hrecorded⟩ := ih next.2
    refine ⟨next.1 :: answers, memory', by rw [List.length_cons, hlen, List.length_cons], ?_,
      fun record => ?_⟩
    · rw [List.mapM_cons, StateT.run_bind]
      change StateT.run (List.mapM _ rest >>= _) next.2 = _
      rw [StateT.run_bind, hplain]
      rfl
    · rw [List.mapM_cons, StateT.run_bind]
      change StateT.run (List.mapM _ rest >>= _)
        (next.2, record ++ [⟨v.accepted, place.1, next.1⟩]) = _
      rw [StateT.run_bind, hrecorded, List.append_assoc]
      rfl

theorem getElem?_places {chain : List Certificate} {depth : Nat} (h : depth < chain.length) :
    chain.zipIdx.reverse[chain.length - 1 - depth]? = some (chain[depth], depth) := by
  have hback : chain.length - 1 - (chain.length - 1 - depth) = depth := by omega
  rw [List.getElem?_reverse (by rw [List.length_zipIdx]; omega), List.length_zipIdx, hback]
  simp [h]

/-- A chain is not accepted over a failure unless the predicate was asked about the certificate that
the failure is pinned to, heard that it did not pass, and said yes. -/
theorem asked_at_failure (hostname : Option String) (now : Moment)
    (ask : Bool → Certificate → StateM σ Bool) {chain : List Certificate} {f : Failure}
    (hlt : f.depth < chain.length) (memory : σ) :
    let r := ((⟨hostname, some ask⟩ : Policy _).evaluate chain (some f) now).run memory
    ∃ record, ((⟨hostname, some (recorded ask)⟩ : Policy _).evaluate chain (some f) now).run
        (memory, []) = (r.1, r.2, record) ∧
      (accepted r.1 = true →
        record[chain.length - 1 - f.depth]? = some ⟨false, chain[f.depth], true⟩) := by
  intro r
  obtain ⟨answers, memory', hlen, hplain, hrecorded⟩ :=
    judge_run hostname (some f) now ask chain.zipIdx.reverse memory
  have hr : r = _ := hplain
  have hplace := getElem?_places hlt
  obtain ⟨answer, hanswer⟩ : ∃ answer, answers[chain.length - 1 - f.depth]? = some answer := by
    refine ⟨_, List.getElem?_eq_getElem ?_⟩
    rw [hlen, List.length_reverse, List.length_zipIdx]
    omega
  refine ⟨questions hostname (some f) now chain.zipIdx.reverse answers, ?_, fun hall => ?_⟩
  · rw [hr]
    exact hrecorded []
  · have hyes : answer = true := by
      rw [hr] at hall
      simp only [accepted, Bool.and_eq_true, List.all_eq_true] at hall
      have hverdict := hall.2 (settle (check hostname f.depth chain[f.depth] (some f) now) answer)
        (List.mem_of_getElem? (List.getElem?_zipWith_eq_some.2 ⟨_, _, hplace, hanswer, rfl⟩))
      rwa [settle_accepted] at hverdict
    refine List.getElem?_zipWith_eq_some.2 ⟨_, _, hplace, hanswer, ?_⟩
    simp only [check_at_failure, hyes]

end Policy
end Parley.Trust
