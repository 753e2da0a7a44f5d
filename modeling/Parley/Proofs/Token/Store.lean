import Mathlib
import Parley.Token.Store

/-!
# Token stores as maps

What the operations of a store do to `get?`, which says everything about the store: a token is live
when it has a value. The token that a store chooses was not live before.
-/

namespace Parley.Token.Store
variable {d : Domain} {α : Type u}

theorem get?_eq_some_iff {s : Store d α} {t : Nat} {v : α} :
    s.get? t = some v ↔ (t, v) ∈ s.entries := by
  have hd := s.descending
  simp only [get?]
  generalize s.entries = l at hd
  induction l with
  | nil => simp
  | cons e rest ih =>
    obtain ⟨hlt, hrest⟩ := List.pairwise_cons.1 hd
    obtain ⟨k, w⟩ := e
    by_cases hk : k = t
    · subst k
      have hnot : (t, v) ∉ rest := fun h => Nat.lt_irrefl t (hlt _ h)
      simp [hnot, eq_comm]
    · have hbeq : (k == t) = false := by simpa using hk
      simp only [List.find?_cons, hbeq, List.mem_cons, Prod.mk.injEq, Ne.symm hk, false_and,
        false_or]
      exact ih hrest

theorem get?_eq_none_iff {s : Store d α} {t : Nat} :
    s.get? t = none ↔ ∀ v, (t, v) ∉ s.entries := by
  simp only [Option.eq_none_iff_forall_ne_some, ne_eq, get?_eq_some_iff]

theorem mem_of_get? {s : Store d α} {t : Nat} {v : α} (h : s.get? t = some v) : d.Mem t :=
  s.bounded _ (get?_eq_some_iff.1 h)

@[simp] theorem get?_empty (t : Nat) : (empty : Store d α).get? t = none := rfl

theorem isEmpty_iff {s : Store d α} : s.isEmpty = true ↔ ∀ t, s.get? t = none := by
  simp only [isEmpty, List.isEmpty_iff, get?_eq_none_iff]
  constructor
  · intro h
    simp [h]
  · intro h
    exact List.eq_nil_iff_forall_not_mem.2 fun e he => h e.1 e.2 he

theorem mem_place_iff {t : Nat} {v : α} {l : List (Nat × α)}
    (h : l.Pairwise (fun a b => b.1 < a.1)) {e : Nat × α} :
    e ∈ place t v l ↔ e = (t, v) ∨ (e ∈ l ∧ e.1 ≠ t) := by
  induction l with
  | nil => simp [place]
  | cons x rest ih =>
    obtain ⟨hx, hrest⟩ := List.pairwise_cons.1 h
    have below : ∀ b ∈ rest, x.1 ≤ t → b.1 ≠ t := fun b hb hle heq => by
      have := hx b hb
      omega
    simp only [place]
    split_ifs with hlt heq
    · have hne : x.1 ≠ t := Nat.ne_of_lt hlt
      grind
    · grind
    · grind

@[simp] theorem get?_insert (s : Store d α) (t u : Nat) (ht : d.Mem t) (v : α) :
    (s.insert t ht v).get? u = if u = t then some v else s.get? u := by
  ext w
  rw [get?_eq_some_iff]
  change (u, w) ∈ place t v s.entries ↔ _
  rw [mem_place_iff s.descending]
  split_ifs with hu
  · simp [hu, eq_comm]
  · simp [hu, get?_eq_some_iff]

@[simp] theorem get?_erase (s : Store d α) (t u : Nat) :
    (s.erase t).get? u = if u = t then none else s.get? u := by
  ext w
  rw [get?_eq_some_iff]
  change (u, w) ∈ s.entries.filter (·.1 != t) ↔ _
  split_ifs with hu
  · simp [hu]
  · simp [hu, get?_eq_some_iff]

theorem erase_insert {s : Store d α} {t : Nat} (ht : d.Mem t) (v : α) (h : s.get? t = none) :
    (s.insert t ht v).erase t = s := by
  have hfree := get?_eq_none_iff.1 h
  have hd := s.descending
  apply Store.ext
  change (place t v s.entries).filter (·.1 != t) = s.entries
  generalize s.entries = l at hfree hd
  induction l with
  | nil => simp [place]
  | cons x rest ih =>
    have hne : x.1 ≠ t := fun hx => hfree x.2 (by simp [← hx])
    have hrest := ih (fun w hw => hfree w (List.mem_cons_of_mem _ hw)) (List.pairwise_cons.1 hd).2
    have hkeep : ∀ e ∈ rest, (e.1 != t) = true := fun e he => by
      have : e.1 ≠ t := fun heq => hfree e.2 (List.mem_cons_of_mem _ (by simpa [← heq] using he))
      simpa using this
    simp only [place]
    split_ifs with hlt
    · simp [hne, List.filter_eq_self.2 hkeep]
    · simp [hne, hrest]

theorem mem_tokens_iff {s : Store d α} {t : Nat} : t ∈ s.tokens ↔ ∃ v, s.get? t = some v := by
  simp [tokens, toList, get?_eq_some_iff]

theorem tokens_ascending (s : Store d α) : s.tokens.Pairwise (· < ·) := by
  simpa [tokens, toList, List.pairwise_map, List.pairwise_reverse] using s.descending

theorem gapFrom_free {candidate t : Nat} {live : List Nat} (hlive : live.Pairwise (· < ·))
    (hle : ∀ u ∈ live, candidate ≤ u) (h : gapFrom d candidate live = some t) :
    candidate ≤ t ∧ t ∉ live := by
  induction live generalizing candidate with
  | nil => simp [gapFrom] at h
  | cons u rest ih =>
    obtain ⟨hlt, hrest⟩ := List.pairwise_cons.1 hlive
    have hu := hle u List.mem_cons_self
    simp only [gapFrom] at h
    split at h
    · obtain rfl := Option.some.inj h
      refine ⟨Nat.le_refl _, fun hmem => ?_⟩
      rcases List.mem_cons.1 hmem with heq | hmem
      · simp_all
      · have := hlt _ hmem
        omega
    · rename_i heq
      simp only [ne_eq, Decidable.not_not] at heq
      split at h
      · rename_i c hc
        simp only [Domain.next?, Option.ite_none_right_eq_some, Option.some.injEq] at hc
        have hrec := ih hrest (fun w hw => by have := hlt w hw; omega) h
        refine ⟨by omega, fun hmem => ?_⟩
        rcases List.mem_cons.1 hmem with heq' | hmem
        · omega
        · exact hrec.2 hmem
      · simp at h

theorem le_highest {e : Nat × α} {rest : List (Nat × α)}
    (h : (e :: rest).Pairwise (fun a b => b.1 < a.1)) : ∀ x ∈ e :: rest, x.1 ≤ e.1 := by
  intro x hx
  rcases List.mem_cons.1 hx with rfl | hx
  · exact Nat.le_refl _
  · exact Nat.le_of_lt ((List.pairwise_cons.1 h).1 x hx)

theorem lowest_le {l : List (Nat × α)} (hne : l ≠ [])
    (h : l.Pairwise (fun a b => b.1 < a.1)) : ∀ x ∈ l, (l.getLast hne).1 ≤ x.1 := by
  intro x hx
  rw [← List.dropLast_concat_getLast hne] at h hx
  rcases List.mem_append.1 hx with hx | hx
  · exact Nat.le_of_lt ((List.pairwise_append.1 h).2.2 x hx _ List.mem_cons_self)
  · simp_all

theorem freeToken_free {s : Store d α} {t : Nat} (h : s.freeToken = some t) :
    s.get? t = none := by
  have hd := s.descending
  have hgap : gapFrom d d.lo s.tokens = some t → s.get? t = none := fun hg => by
    have hlo : ∀ u ∈ s.tokens, d.lo ≤ u := fun u hu => by
      obtain ⟨v, hv⟩ := mem_tokens_iff.1 hu
      exact (mem_of_get? hv).1
    have hnot := (gapFrom_free s.tokens_ascending hlo hg).2
    simpa [Option.eq_none_iff_forall_ne_some] using mt mem_tokens_iff.2 hnot
  rw [get?_eq_none_iff]
  simp only [freeToken] at h
  split at h
  · rename_i hs
    simp [hs]
  · rename_i highest rest hs
    rw [hs] at hd ⊢
    intro v hv
    split at h
    · rename_i u hn
      simp only [Domain.next?, Option.ite_none_right_eq_some, Option.some.injEq] at hn h
      have := le_highest hd _ hv
      simp only at this
      omega
    · split at h
      · rename_i u hp
        simp only [Domain.prev?, Option.ite_none_right_eq_some, Option.some.injEq] at hp h
        have := lowest_le (List.cons_ne_nil _ _) hd _ hv
        simp only at this
        omega
      · exact get?_eq_none_iff.1 (hgap h) v (hs ▸ hv)

theorem add_spec {s r : Store d α} {v : α} {t : Nat} (h : s.add v = .ok (t, r)) :
    s.freeToken = some t ∧ d.Mem t ∧ s.get? t = none ∧
      (∀ u, r.get? u = if u = t then some v else s.get? u) ∧ r.erase t = s := by
  simp only [add] at h
  split at h
  · rename_i u hu
    obtain ⟨rfl, rfl⟩ := Prod.mk.inj (Except.ok.inj h)
    have hfree := freeToken_free hu
    exact ⟨hu, freeToken_mem hu, hfree, fun w => get?_insert .., erase_insert _ v hfree⟩
  · simp at h

theorem take_eq_some_iff {s r : Store d α} {t : Nat} {v : α} :
    s.take t = some (v, r) ↔ s.get? t = some v ∧ r = s.erase t := by
  simp [take, eq_comm]

theorem take_eq_none_iff {s : Store d α} {t : Nat} : s.take t = none ↔ s.get? t = none := by
  simp [take]

end Parley.Token.Store
