import Mathlib
import Parley.Proofs.Trust.Policy

/-!
# What the built-in checks accept

A certificate passes the built-in checks when it does not lie too deep, no failure is pinned to it,
it is valid and, in front of the chain, names the required host. Without a predicate a chain is
accepted when it has a certificate and all its certificates pass.
-/

namespace Parley

theorem Certificate.isValidAt_iff {c : Certificate} {now : Moment} :
    c.isValidAt now = true ↔
      c.notBefore.moment.before now = true ∧ now.before c.notAfter.moment = true :=
  Bool.and_eq_true_iff

theorem Certificate.matchesHost_iff {c : Certificate} {host : String} :
    c.matchesHost host = true ↔
      ∃ name ∈ c.subject.values "CN" ++ c.alternateNames, Hostname.matchesName host name = true :=
  List.any_eq_true

namespace Trust.Policy
variable {hostname : Option String} {now : Moment}

theorem check_accepted_iff {depth : Nat} {c : Certificate} {failure : Option Failure} :
    (check hostname depth c failure now).accepted = true ↔
      depth ≤ maxDepth ∧ (∀ f ∈ failure, f.depth ≠ depth) ∧ c.isValidAt now = true ∧
        (depth = 0 → ∀ host ∈ hostname, c.matchesHost host = true) :=
  tells_findings.ok

theorem accepted_iff_forall {chain : List Certificate} {failure : Option Failure} :
    accepted (chain.zipIdx.reverse.map fun place => check hostname place.2 place.1 failure now) =
        true ↔
      chain ≠ [] ∧ ∀ depth c, chain[depth]? = some c →
        (check hostname depth c failure now).accepted = true := by
  have hempty : (chain.zipIdx.reverse.map fun place =>
      check hostname place.2 place.1 failure now).isEmpty = chain.isEmpty := by
    cases chain <;> simp
  rw [accepted, hempty, Bool.and_eq_true, List.all_map, List.all_reverse, List.all_eq_true]
  simp only [Bool.not_eq_true', List.isEmpty_eq_false_iff, Prod.forall, Function.comp_apply,
    List.mk_mem_zipIdx_iff_getElem?]
  exact and_congr_right fun _ => forall_comm

theorem length_le_iff {chain : List Certificate} {n : Nat} :
    chain.length ≤ n + 1 ↔ ∀ depth c, chain[depth]? = some c → depth ≤ n := by
  constructor
  · intro h depth c hc
    have := (List.getElem?_eq_some_iff.1 hc).1
    omega
  · intro h
    by_contra hlt
    have := h (n + 1) _ (List.getElem?_eq_getElem (not_le.1 hlt))
    omega

theorem accepted_checks_iff {chain : List Certificate} {failure : Option Failure} :
    accepted (chain.zipIdx.reverse.map fun place => check hostname place.2 place.1 failure now) =
        true ↔
      chain ≠ [] ∧ chain.length ≤ maxDepth + 1 ∧ (∀ f ∈ failure, chain[f.depth]? = none) ∧
        (∀ c ∈ chain, c.isValidAt now = true) ∧
        ∀ host ∈ hostname, ∃ leaf ∈ chain.head?, leaf.matchesHost host = true := by
  rw [accepted_iff_forall, length_le_iff]
  simp only [check_accepted_iff]
  refine and_congr_right fun hne => ?_
  obtain ⟨leaf, rest, hchain⟩ := List.exists_cons_of_ne_nil hne
  have hleaf : chain[0]? = some leaf := by rw [hchain, List.getElem?_cons_zero]
  have hhead : chain.head? = some leaf := by rw [hchain, List.head?_cons]
  constructor
  · intro h
    refine ⟨fun depth c hc => (h depth c hc).1, fun f hf => ?_, fun c hc => ?_, fun host hhost =>
      ⟨leaf, hhead, (h 0 leaf hleaf).2.2.2 rfl host hhost⟩⟩
    · cases hc : chain[f.depth]? with
      | none => rfl
      | some c => exact absurd rfl ((h _ c hc).2.1 f hf)
    · obtain ⟨depth, hdepth⟩ := List.mem_iff_getElem?.1 hc
      exact (h depth c hdepth).2.2.1
  · rintro ⟨hlen, hfailure, hdates, hhosts⟩ depth c hc
    refine ⟨hlen depth c hc, fun f hf heq => ?_, hdates c (List.mem_of_getElem? hc), ?_⟩
    · have hnone := hfailure f hf
      simp [heq, hc] at hnone
    · rintro rfl host hhost
      obtain ⟨c', hc', hname⟩ := hhosts host hhost
      obtain rfl : c' = c := Option.some.inj (hc'.symm.trans (hhead.trans (hleaf.symm.trans hc)))
      exact hname

/-- A policy without a predicate accepts exactly the chains of one to nine certificates with none
where the failure is pinned, all of them valid, and the required host among the names of the one in
front. -/
theorem accepted_without_iff {m : Type → Type} [Monad m] [LawfulMonad m] (hostname : Option String)
    (chain : List Certificate) (failure : Option Failure) (now : Moment) :
    ∃ verdicts, (⟨hostname, none⟩ : Policy m).evaluate chain failure now = pure verdicts ∧
      (accepted verdicts = true ↔
        chain ≠ [] ∧ chain.length ≤ maxDepth + 1 ∧ (∀ f ∈ failure, chain[f.depth]? = none) ∧
        (∀ c ∈ chain, c.notBefore.moment.before now ∧ now.before c.notAfter.moment) ∧
        ∀ host ∈ hostname, ∃ leaf ∈ chain.head?,
          ∃ name ∈ leaf.subject.values "CN" ++ leaf.alternateNames,
            Hostname.matchesName host name) := by
  refine ⟨_, evaluate_without hostname chain failure now, ?_⟩
  simp only [accepted_checks_iff, Certificate.isValidAt_iff, Certificate.matchesHost_iff]

theorem accepted_without_iff_nine :
    let start : CivilTime := { year := 2020, month := 1, day := 1, hour := 0, minute := 0 }
    let authority : Certificate :=
      ⟨⟨[⟨"CN", "Root"⟩]⟩, ⟨[⟨"CN", "Root"⟩]⟩, start, { start with year := 2090 }, []⟩
    let leaf := { authority with subject := ⟨[⟨"CN", "*.Example"⟩]⟩ }
    let now : Moment := ⟨1735689600, 0⟩
    LawfulMonad Id ∧
      ∃ verdicts, (⟨some "mail.example", none⟩ : Policy Id).evaluate
          (leaf :: List.replicate 8 authority) (some ⟨"expired", false, 9⟩) now = pure verdicts ∧
        accepted verdicts = true := by
  intro start authority leaf now
  obtain ⟨verdicts, heval, haccepted⟩ := accepted_without_iff (m := Id) (some "mail.example")
    (leaf :: List.replicate 8 authority) (some ⟨"expired", false, 9⟩) now
  refine ⟨inferInstance, verdicts, heval, haccepted.2 ⟨?_, ?_, ?_, ?_, ?_⟩⟩ <;> decide

end Trust.Policy
end Parley
