import Mathlib
import Parley.Proofs.Token.Store

/-!
# The choice of a token

A store that is not full gives the next value a token that was not live: the lowest of the domain
for the first value, the one above the highest live token, the one below the lowest, or else the
smallest that is free. Only a store whose whole domain is live refuses a value, and it stays as it
is.
-/

namespace Parley.Token.Store
variable {d : Domain} {α : Type u}

def live (s : Store d α) : Set Nat := {t | ∃ v, s.get? t = some v}

theorem mem_live_iff {s : Store d α} {t : Nat} : t ∈ s.live ↔ t ∈ s.tokens := mem_tokens_iff.symm

theorem not_mem_live_iff {s : Store d α} {t : Nat} : t ∉ s.live ↔ s.get? t = none := by
  simp [live, Option.eq_none_iff_forall_ne_some]

theorem mem_of_mem_live {s : Store d α} {t : Nat} (h : t ∈ s.live) : d.Mem t :=
  mem_of_get? h.choose_spec

theorem mem_live_of_mem {s : Store d α} {e : Nat × α} (h : e ∈ s.entries) : e.1 ∈ s.live :=
  ⟨e.2, get?_eq_some_iff.2 h⟩

theorem live_eq_empty_iff {s : Store d α} : s.live = ∅ ↔ s.entries = [] := by
  rw [← List.isEmpty_iff, ← isEmpty, isEmpty_iff]
  simp only [Set.eq_empty_iff_forall_notMem, not_mem_live_iff]

theorem isGreatest_head {s : Store d α} {e : Nat × α} {rest : List (Nat × α)}
    (h : s.entries = e :: rest) : IsGreatest s.live e.1 := by
  refine ⟨mem_live_of_mem (h ▸ List.mem_cons_self), fun t ht => ?_⟩
  obtain ⟨v, hv⟩ := ht
  exact le_highest (h ▸ s.descending) _ (h ▸ get?_eq_some_iff.1 hv)

theorem isLeast_getLast {s : Store d α} (hne : s.entries ≠ []) :
    IsLeast s.live (s.entries.getLast hne).1 := by
  refine ⟨mem_live_of_mem (List.getLast_mem hne), fun t ht => ?_⟩
  obtain ⟨v, hv⟩ := ht
  exact lowest_le hne s.descending _ (get?_eq_some_iff.1 hv)

/-- Below the gap, and without one in all of the domain, the scan passes over live tokens only. -/
theorem gapFrom_passes {candidate u : Nat} {tokens : List Nat} (hhi : d.hi ∈ tokens)
    (hle : candidate ≤ u) (hu : u ≤ d.hi) (hlt : ∀ t ∈ gapFrom d candidate tokens, u < t) :
    u ∈ tokens := by
  induction tokens generalizing candidate with
  | nil => simp at hhi
  | cons w rest ih =>
    simp only [gapFrom] at hlt
    split at hlt
    · have := hlt candidate rfl
      omega
    · rename_i heq
      simp only [ne_eq, Decidable.not_not] at heq
      by_cases hc : u = candidate
      · simp [hc, heq]
      · split at hlt
        · rename_i c hn
          simp only [Domain.next?, Option.ite_none_right_eq_some, Option.some.injEq] at hn
          -- the candidate was below the end, so the end is still ahead
          have hrest : d.hi ∈ rest := (List.mem_cons.1 hhi).resolve_left (by omega)
          exact List.mem_cons_of_mem _ (ih hrest (by omega) hlt)
        · rename_i hn
          simp only [Domain.next?, ite_eq_right_iff, reduceCtorEq, imp_false, not_lt] at hn
          omega

inductive Next (s : Store d α) : Nat → Prop where
  | first (hlive : s.live = ∅) : Next s d.lo
  | above {t : Nat} (highest : IsGreatest s.live t) (hlt : t < d.hi) : Next s (t + 1)
  | below {t : Nat} (hhi : d.hi ∈ s.live) (lowest : IsLeast s.live t) (hlt : d.lo < t) :
    Next s (t - 1)
  | gap {t : Nat} (hlo : d.lo ∈ s.live) (hhi : d.hi ∈ s.live)
    (smallest : IsLeast {u | d.Mem u ∧ u ∉ s.live} t) : Next s t

theorem live_cases (s : Store d α) :
    s.live = ∅ ∨ (∃ t, IsGreatest s.live t ∧ t < d.hi) ∨
      (d.hi ∈ s.live ∧ ∃ t, IsLeast s.live t ∧ d.lo < t) ∨ (d.lo ∈ s.live ∧ d.hi ∈ s.live) := by
  by_cases hne : s.entries = []
  · exact .inl (live_eq_empty_iff.2 hne)
  obtain ⟨e, rest, hs⟩ := List.exists_cons_of_ne_nil hne
  have highest := isGreatest_head hs
  have lowest := isLeast_getLast hne
  rcases (mem_of_mem_live highest.1).2.lt_or_eq with hlt | heq
  · exact .inr (.inl ⟨_, highest, hlt⟩)
  have hhi : d.hi ∈ s.live := heq ▸ highest.1
  rcases (mem_of_mem_live lowest.1).1.lt_or_eq with hlt | heq
  · exact .inr (.inr (.inl ⟨hhi, _, lowest, hlt⟩))
  · exact .inr (.inr (.inr ⟨heq ▸ lowest.1, hhi⟩))

theorem isGreatest_hi {s : Store d α} (h : d.hi ∈ s.live) : IsGreatest s.live d.hi :=
  ⟨h, fun _ ht => (mem_of_mem_live ht).2⟩

theorem isLeast_lo {s : Store d α} (h : d.lo ∈ s.live) : IsLeast s.live d.lo :=
  ⟨h, fun _ ht => (mem_of_mem_live ht).1⟩

theorem freeToken_first {s : Store d α} (h : s.live = ∅) : s.freeToken = some d.lo := by
  simp only [freeToken, live_eq_empty_iff.1 h]

theorem freeToken_above {s : Store d α} {t : Nat} (highest : IsGreatest s.live t) (hlt : t < d.hi) :
    s.freeToken = some (t + 1) := by
  obtain ⟨v, hv⟩ := highest.1
  obtain ⟨e, rest, hs⟩ := List.exists_cons_of_ne_nil (List.ne_nil_of_mem (get?_eq_some_iff.1 hv))
  obtain rfl := (isGreatest_head hs).unique highest
  simp only [freeToken, hs, Domain.next?, if_pos hlt]

theorem freeToken_of_hi {s : Store d α} {t : Nat} (hhi : d.hi ∈ s.live)
    (lowest : IsLeast s.live t) :
    s.freeToken = if d.lo < t then some (t - 1) else gapFrom d d.lo s.tokens := by
  obtain ⟨v, hv⟩ := hhi
  have hne := List.ne_nil_of_mem (get?_eq_some_iff.1 hv)
  obtain rfl := (isLeast_getLast hne).unique lowest
  obtain ⟨e, rest, hs⟩ := List.exists_cons_of_ne_nil hne
  have htop : e.1 = d.hi := (isGreatest_head hs).unique (isGreatest_hi ⟨v, hv⟩)
  simp only [freeToken, hs, Domain.next?, htop, lt_irrefl, if_false, Domain.prev?]
  split_ifs <;> rfl

theorem freeToken_eq_none_iff {s : Store d α} :
    s.freeToken = none ↔ ∀ t, d.Mem t → t ∈ s.live := by
  constructor
  · intro h t ht
    rcases s.live_cases with hlive | ⟨u, highest, hlt⟩ | ⟨hhi, u, lowest, hlt⟩ | ⟨hlo, hhi⟩
    · simp [freeToken_first hlive] at h
    · simp [freeToken_above highest hlt] at h
    · simp [freeToken_of_hi hhi lowest, hlt] at h
    · rw [freeToken_of_hi hhi (isLeast_lo hlo), if_neg (lt_irrefl _)] at h
      exact mem_live_iff.2 (gapFrom_passes (mem_live_iff.1 hhi) ht.1 ht.2 (by simp [h]))
  · intro h
    rw [Option.eq_none_iff_forall_ne_some]
    intro t ht
    exact not_mem_live_iff.2 (freeToken_free ht) (h t (freeToken_mem ht))

theorem exists_full (d : Domain) (v : α) : ∃ s : Store d α, ∀ t, d.Mem t → s.get? t = some v := by
  let tokens := (List.range (d.hi + 1)).filter (d.lo ≤ ·)
  have hmem : ∀ t, t ∈ tokens ↔ d.Mem t := fun t => by
    simp [tokens, Domain.Mem, and_comm]
  refine ⟨⟨tokens.reverse.map (·, v), ?_, ?_⟩, fun t ht => get?_eq_some_iff.2 ?_⟩
  · have hascending : tokens.Pairwise (· < ·) := List.pairwise_lt_range.filter _
    simpa [List.pairwise_map, List.pairwise_reverse] using hascending
  · simp [hmem]
  · simp [hmem, ht]

theorem isLeast_freeToken {s : Store d α} {t : Nat} (hlo : d.lo ∈ s.live) (hhi : d.hi ∈ s.live)
    (h : s.freeToken = some t) : IsLeast {u | d.Mem u ∧ u ∉ s.live} t := by
  refine ⟨⟨freeToken_mem h, not_mem_live_iff.2 (freeToken_free h)⟩, fun u hu => ?_⟩
  rw [freeToken_of_hi hhi (isLeast_lo hlo), if_neg (lt_irrefl _)] at h
  by_contra hlt
  exact hu.2 (mem_live_iff.2 (gapFrom_passes (mem_live_iff.1 hhi) hu.1.1 hu.1.2 (by
    rintro _ h'
    rw [h] at h'
    cases h'
    exact not_le.1 hlt)))

theorem freeToken_eq_some_iff {s : Store d α} {t : Nat} : s.freeToken = some t ↔ Next s t := by
  constructor
  · intro h
    rcases s.live_cases with hlive | ⟨u, highest, hlt⟩ | ⟨hhi, u, lowest, hlt⟩ | ⟨hlo, hhi⟩
    · obtain rfl := Option.some.inj ((freeToken_first hlive).symm.trans h)
      exact .first hlive
    · obtain rfl := Option.some.inj ((freeToken_above highest hlt).symm.trans h)
      exact .above highest hlt
    · rw [freeToken_of_hi hhi lowest, if_pos hlt] at h
      obtain rfl := Option.some.inj h
      exact .below hhi lowest hlt
    · exact .gap hlo hhi (isLeast_freeToken hlo hhi h)
  · intro h
    cases h with
    | first hlive => exact freeToken_first hlive
    | above highest hlt => exact freeToken_above highest hlt
    | below hhi lowest hlt => rw [freeToken_of_hi hhi lowest, if_pos hlt]
    | gap hlo hhi smallest =>
      -- the gap keeps the domain from being full, so there is a token, and it is the smallest too
      have hnone : s.freeToken ≠ none := fun h =>
        smallest.1.2 (freeToken_eq_none_iff.1 h t smallest.1.1)
      obtain ⟨u, hu⟩ := Option.ne_none_iff_exists'.1 hnone
      rw [hu, (isLeast_freeToken hlo hhi hu).unique smallest]

inductive Call (α : Type u) where
  | keep (v : α)
  | retrieve (t : Nat)
  | take (t : Nat)
  | contains (t : Nat)
  | drain

inductive Answer (α : Type u) where
  | token (r : Except Error Nat)
  | value (r : Except Error α)
  | taken (v : Option α)
  | present (b : Bool)
  | drained (entries : List (Nat × α))

def call (s : Store d α) : Call α → Answer α × Store d α
  | .keep v =>
    match s.add v with
    | .ok (t, r) => (.token (.ok t), r)
    | .error e => (.token (.error e), s)
  | .retrieve t =>
    match s.retrieve t with
    | .ok (v, r) => (.value (.ok v), r)
    | .error e => (.value (.error e), s)
  | .take t =>
    match s.take t with
    | some (v, r) => (.taken (some v), r)
    | none => (.taken none, s)
  | .contains t => (.present (s.contains t), s)
  | .drain => (.drained s.drain.1, s.drain.2)

def after (s : Store d α) (calls : List (Call α)) : Store d α :=
  calls.foldl (fun s c => (s.call c).2) s

theorem add_eq_error_iff {s : Store d α} {v : α} {e : Error} :
    s.add v = .error e ↔ (∀ t, d.Mem t → t ∈ s.live) ∧ e = .capacity := by
  rw [← freeToken_eq_none_iff, add]
  split
  · rename_i t h
    simp [h]
  · rename_i h
    simp [h, eq_comm]

theorem call_keep_cases (s : Store d α) (v : α) :
    (∃ t r, s.freeToken = some t ∧ s.call (.keep v) = (.token (.ok t), r) ∧ d.Mem t ∧ t ∉ s.live ∧
      ∀ u, r.get? u = if u = t then some v else s.get? u) ∨
    (s.freeToken = none ∧ s.call (.keep v) = (.token (.error .capacity), s)) := by
  cases h : s.add v with
  | ok p =>
    obtain ⟨t, r⟩ := p
    obtain ⟨hfree, hmem, hnew, hget, -⟩ := add_spec h
    exact .inl ⟨t, r, hfree, by simp only [call, h], hmem, not_mem_live_iff.2 hnew, hget⟩
  | error e =>
    obtain ⟨hfull, rfl⟩ := add_eq_error_iff.1 h
    exact .inr ⟨freeToken_eq_none_iff.2 hfull, by simp only [call, h]⟩

/-- After any run of calls a value gets the next token of the store, which lies in the domain and
was not live, and every other token keeps its value. There is no token for it exactly when the whole
domain is live, and the store is then as before. -/
theorem keep_fresh_or_full (d : Domain) (calls : List (Call α)) (v : α) :
    let s := (empty : Store d α).after calls
    let r := s.call (.keep v)
    (∀ t, r.1 = .token (.ok t) ↔ Next s t) ∧
    (r.1 = .token (.error .capacity) ↔ ∀ t, d.Mem t → t ∈ s.live) ∧
    ((∃ t, r.1 = .token (.ok t) ∧ d.Mem t ∧ t ∉ s.live ∧
        ∀ u, r.2.get? u = if u = t then some v else s.get? u) ∨
      r = (.token (.error .capacity), s)) := by
  intro s r
  simp only [← freeToken_eq_some_iff, ← freeToken_eq_none_iff]
  rcases s.call_keep_cases v with ⟨t, store, hfree, hcall, hmem, hnew, hget⟩ | ⟨hfull, hcall⟩
  · simp only [r, hcall, hfree]
    exact ⟨fun u => by simp, by simp, .inl ⟨t, rfl, hmem, hnew, hget⟩⟩
  · simp only [r, hcall, hfull]
    exact ⟨fun u => by simp, by simp, .inr trivial⟩

end Parley.Token.Store
