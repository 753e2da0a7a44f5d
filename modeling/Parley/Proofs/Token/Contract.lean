import Mathlib
import Parley.Proofs.Token.Allocation

/-!
# The steps that the choice of a token takes

Tokens of a domain come with a step up and a step down, of which nothing is known at the two ends:
no token is above the highest and none below the lowest. The choice of a token never takes a step
from such an end. Its scan for a gap goes up over live tokens only and never past the one that it
looks at.
-/

namespace Parley.Token
variable {d : Domain} {α : Type u}

/-- A step up and a step down. From the highest token upwards and from the lowest downwards, and
outside the domain, they may come to anything. -/
structure Steps (d : Domain) where
  next : Nat → Nat
  prev : Nat → Nat
  next_eq {t : Nat} (h : d.Mem t) (ht : t ≠ d.hi) : next t = t + 1
  prev_eq {t : Nat} (h : d.Mem t) (ht : t ≠ d.lo) : prev t = t - 1

inductive Access where
  | next (t : Nat)
  | prev (t : Nat)
  | compare (candidate token : Nat)
deriving DecidableEq

abbrev Watched := StateM (List Access)

namespace Steps

theorem min_succ {t : Nat} (h : d.Mem t) (ht : t ≠ d.hi) : min (t + 1) d.hi = t + 1 :=
  min_eq_left (Nat.succ_le_of_lt (lt_of_le_of_ne h.2 ht))

theorem max_pred {t : Nat} (h : d.Mem t) (ht : t ≠ d.lo) : max (t - 1) d.lo = t - 1 :=
  max_eq_left (Nat.le_sub_one_of_lt (lt_of_le_of_ne h.1 ht.symm))

def saturating (d : Domain) : Steps d where
  next t := min (t + 1) d.hi
  prev t := max (t - 1) d.lo
  next_eq := min_succ
  prev_eq := max_pred

def up (o : Steps d) (t : Nat) : Watched Nat := do
  modify (· ++ [.next t])
  return o.next t

def down (o : Steps d) (t : Nat) : Watched Nat := do
  modify (· ++ [.prev t])
  return o.prev t

def differs (t candidate : Nat) : Watched Bool := do
  modify (· ++ [.compare candidate t])
  return t ≠ candidate

def scan (o : Steps d) (candidate : Nat) : List Nat → Watched (Option Nat)
  | [] => return none
  | t :: rest => do
    if ← differs t candidate then return some candidate
    else if t = d.hi then return none
    else o.scan (← o.up candidate) rest

def choose (o : Steps d) (tokens : List Nat) : Watched (Option Nat) :=
  match tokens.head?, tokens.getLast? with
  | some lowest, some highest => do
    if highest < d.hi then return some (← o.up highest)
    else if d.lo < lowest then return some (← o.down lowest)
    else o.scan d.lo tokens
  | _, _ => return some d.lo

variable {o : Steps d} {candidate t lowest highest : Nat}

theorem run_scan_cons (o : Steps d) (candidate t : Nat) (rest : List Nat) (log : List Access) :
    (o.scan candidate (t :: rest)).run log =
      if t ≠ candidate then (some candidate, log ++ [.compare candidate t])
      else if t = d.hi then (none, log ++ [.compare candidate t])
      else (o.scan (o.next candidate) rest).run
        (log ++ [.compare candidate t] ++ [.next candidate]) := by
  -- the comparison is logged whatever comes of it
  change (if decide (t ≠ candidate) = true then pure (some candidate)
    else if t = d.hi then pure none
    else do o.scan (← o.up candidate) rest : Watched (Option Nat)).run
      (log ++ [.compare candidate t]) = _
  simp only [decide_eq_true_eq]
  split_ifs
  · rfl
  · rfl
  · rfl

theorem run_choose {tokens : List Nat} (hlowest : tokens.head? = some lowest)
    (hhighest : tokens.getLast? = some highest) (log : List Access) :
    (o.choose tokens).run log =
      if highest < d.hi then (some (o.next highest), log ++ [.next highest])
      else if d.lo < lowest then (some (o.prev lowest), log ++ [.prev lowest])
      else (o.scan d.lo tokens).run log := by
  simp only [choose, hlowest, hhighest]
  split_ifs
  · rfl
  · rfl
  · rfl

/-- An access that the choice among these live tokens may make. -/
def Allowed (d : Domain) (live : Set Nat) : Access → Prop
  | .next t => d.Mem t ∧ t ≠ d.hi
  | .prev t => d.Mem t ∧ t ≠ d.lo
  | .compare candidate t =>
    d.Mem candidate ∧ candidate ≤ t ∧ t ∈ live ∧ ∀ u, d.Mem u → u < candidate → u ∈ live

/-- A scan has these live tokens before it, and all tokens below its candidate are live. -/
structure Stands (d : Domain) (live : Set Nat) (candidate : Nat) (tokens : List Nat) : Prop where
  mem : d.Mem candidate
  ascending : tokens.Pairwise (· < ·)
  ahead : ∀ t ∈ tokens, candidate ≤ t ∧ t ∈ live
  below : ∀ u, d.Mem u → u < candidate → u ∈ live

variable {live : Set Nat} {tokens rest : List Nat} {log : List Access}

theorem Stands.compare (h : Stands d live candidate (t :: rest)) :
    Allowed d live (.compare candidate t) := by
  obtain ⟨hle, hlive⟩ := h.ahead t List.mem_cons_self
  exact ⟨h.mem, hle, hlive, h.below⟩

theorem Stands.next (h : Stands d live candidate (candidate :: rest)) (hhi : candidate ≠ d.hi) :
    Stands d live (o.next candidate) rest := by
  have hmem := h.mem
  have hascending := List.pairwise_cons.1 h.ascending
  rw [o.next_eq hmem hhi]
  refine ⟨?_, hascending.2, fun t ht => ?_, fun u hu hlt => ?_⟩
  · simp only [Domain.Mem] at *
    omega
  · exact ⟨hascending.1 t ht, (h.ahead t (List.mem_cons_of_mem _ ht)).2⟩
  · rcases Nat.lt_succ_iff_lt_or_eq.1 hlt with hlt | rfl
    · exact h.below u hu hlt
    · exact (h.ahead u List.mem_cons_self).2

theorem scan_spec (h : Stands d live candidate tokens) (hlog : ∀ a ∈ log, Allowed d live a) :
    let r := (o.scan candidate tokens).run log
    r.1 = Store.gapFrom d candidate tokens ∧ ∀ a ∈ r.2, Allowed d live a := by
  induction tokens generalizing candidate log with
  | nil => exact ⟨rfl, hlog⟩
  | cons t rest ih =>
    have hcompared : ∀ a ∈ log ++ [.compare candidate t], Allowed d live a :=
      List.forall_mem_append.2 ⟨hlog, List.forall_mem_singleton.2 h.compare⟩
    rw [run_scan_cons, Store.gapFrom]
    split_ifs with hne hhi
    · exact ⟨rfl, hcompared⟩
    · obtain rfl : t = candidate := not_not.1 hne
      exact ⟨by simp [Domain.next?, hhi], hcompared⟩
    · obtain rfl : t = candidate := not_not.1 hne
      have hnext : d.next? t = some (o.next t) := by
        have hmem := h.mem
        rw [o.next_eq hmem hhi]
        simp only [Domain.Mem] at hmem
        simp only [Domain.next?, if_pos (lt_of_le_of_ne hmem.2 hhi)]
      rw [hnext]
      refine ih (h.next hhi) (List.forall_mem_append.2 ⟨hcompared, ?_⟩)
      exact List.forall_mem_singleton.2 ⟨h.mem, hhi⟩

end Steps

namespace Store
variable {s : Store d α} {o : Steps d} {t : Nat}

theorem head?_tokens (hlowest : IsLeast s.live t) : s.tokens.head? = some t := by
  have hmem := mem_live_iff.1 hlowest.1
  have hascending := s.tokens_ascending
  have hleast : ∀ u ∈ s.tokens, t ≤ u := fun u hu => hlowest.2 (mem_live_iff.2 hu)
  cases htokens : s.tokens with
  | nil => simp [htokens] at hmem
  | cons u rest =>
    rw [htokens] at hmem hascending hleast
    refine congrArg some (le_antisymm ?_ (hleast u List.mem_cons_self))
    rcases List.mem_cons.1 hmem with rfl | hmem
    · exact le_rfl
    · exact ((List.pairwise_cons.1 hascending).1 t hmem).le

theorem getLast?_tokens (hhighest : IsGreatest s.live t) : s.tokens.getLast? = some t := by
  obtain ⟨v, hv⟩ := hhighest.1
  obtain ⟨e, rest, hs⟩ := List.exists_cons_of_ne_nil (List.ne_nil_of_mem (get?_eq_some_iff.1 hv))
  rw [tokens, toList, hs, List.getLast?_map, List.getLast?_reverse]
  exact congrArg some ((isGreatest_head hs).unique hhighest)

theorem stands_tokens (s : Store d α) : Steps.Stands d s.live d.lo s.tokens where
  mem := d.lo_mem
  ascending := s.tokens_ascending
  ahead t ht :=
    have hlive : t ∈ s.live := mem_live_iff.2 ht
    ⟨(mem_of_mem_live hlive).1, hlive⟩
  below _ hu hlt := absurd hlt (not_lt.2 hu.1)

theorem tokens_eq_nil_iff : s.tokens = [] ↔ s.live = ∅ := by
  simp only [List.eq_nil_iff_forall_not_mem, Set.eq_empty_iff_forall_notMem, mem_live_iff]

theorem choose_spec (o : Steps d) (s : Store d α) :
    let r := (o.choose s.tokens).run []
    r.1 = s.freeToken ∧ ∀ a ∈ r.2, Steps.Allowed d s.live a := by
  by_cases hlive : s.live = ∅
  · rw [tokens_eq_nil_iff.2 hlive, freeToken_first hlive]
    exact ⟨rfl, nofun⟩
  have hne : s.entries ≠ [] := fun h => hlive (live_eq_empty_iff.2 h)
  obtain ⟨e, rest, hs⟩ := List.exists_cons_of_ne_nil hne
  have highest := isGreatest_head hs
  have lowest := isLeast_getLast hne
  rw [Steps.run_choose (head?_tokens lowest) (getLast?_tokens highest)]
  by_cases hlt : e.1 < d.hi
  · have hmem := mem_of_mem_live highest.1
    rw [if_pos hlt, freeToken_above highest hlt, o.next_eq hmem hlt.ne]
    exact ⟨rfl, List.forall_mem_singleton.2 ⟨hmem, hlt.ne⟩⟩
  have htop : e.1 = d.hi := le_antisymm (mem_of_mem_live highest.1).2 (not_lt.1 hlt)
  rw [if_neg hlt, freeToken_of_hi (htop ▸ highest.1) lowest]
  split_ifs with hlo
  · have hmem := mem_of_mem_live lowest.1
    rw [o.prev_eq hmem hlo.ne']
    exact ⟨rfl, List.forall_mem_singleton.2 ⟨hmem, hlo.ne'⟩⟩
  · exact Steps.scan_spec s.stands_tokens nofun

theorem exists_live_eq {S : Set Nat} (h : ∀ t ∈ S, d.Mem t) (v : α) :
    ∃ s : Store d α, s.live = S := by
  classical
  let tokens := (List.range (d.hi + 1)).filter (· ∈ S)
  have hmem : ∀ t, t ∈ tokens ↔ t ∈ S := fun t => by
    simp only [tokens, List.mem_filter, List.mem_range, decide_eq_true_eq, and_iff_right_iff_imp]
    exact fun ht => Nat.lt_succ_of_le (h t ht).2
  refine ⟨⟨tokens.reverse.map (·, v), ?_, ?_⟩, Set.ext fun t => ?_⟩
  · have hascending : tokens.Pairwise (· < ·) := List.pairwise_lt_range.filter _
    simpa [List.pairwise_map, List.pairwise_reverse] using hascending
  · simpa [hmem] using h
  · rw [mem_live_iff, ← hmem]
    simp [Store.tokens, toList]

/-- Whatever tokens are live, one steps up from a token below the highest and down from one above
the lowest only, and the scan compares a candidate with a live token that is not below it, when all
tokens below the candidate are live. -/
theorem choice_keeps_contract (o : Steps d) (s : Store d α) :
    let r := (o.choose s.tokens).run []
    r.1 = s.freeToken ∧
      (∀ t, .next t ∈ r.2 → d.Mem t ∧ t ≠ d.hi) ∧
      (∀ t, .prev t ∈ r.2 → d.Mem t ∧ t ≠ d.lo) ∧
      ∀ candidate t, .compare candidate t ∈ r.2 →
        d.Mem candidate ∧ candidate ≤ t ∧ t ∈ s.live ∧
          ∀ u, d.Mem u → u < candidate → u ∈ s.live := by
  intro r
  obtain ⟨hfree, hallowed⟩ := choose_spec o s
  exact ⟨hfree, fun t ht => hallowed _ ht, fun t ht => hallowed _ ht,
    fun candidate t ht => hallowed _ ht⟩

theorem choice_keeps_contract_gap :
    let d : Domain := { lo := 3, hi := 5 }
    let s : Store d Unit := ⟨[(5, ()), (3, ())], by simp, by decide⟩
    let r := ((Steps.saturating d).choose s.tokens).run []
    r = (some 4, [.compare 3 3, .next 3, .compare 4 5]) ∧ r.1 = s.freeToken ∧
      3 ≠ d.hi ∧ 4 ≤ 5 ∧ 5 ∈ s.live ∧ ∀ u, d.Mem u → u < 4 → u ∈ s.live := by
  intro d s r
  have hrun : r = (some 4, [.compare 3 3, .next 3, .compare 4 5]) := rfl
  obtain ⟨hfree, hnext, -, hcompare⟩ := choice_keeps_contract (Steps.saturating d) s
  have hup : d.Mem 3 ∧ 3 ≠ d.hi := hnext 3 (by decide)
  obtain ⟨-, hle, hlive, hbelow⟩ := hcompare 4 5 (by decide)
  exact ⟨hrun, hfree, hup.2, hle, hlive, hbelow⟩

example : ((Steps.saturating { lo := 5, hi := 5 }).choose [5]).run [] = (none, [.compare 5 5]) :=
  rfl

end Store
end Parley.Token
