import Mathlib
import Parley.Proofs.Token.Allocation

/-!
# Nothing is lost and nothing is given twice

What a run of calls does under one token is to keep a value, give that value out, keep the next one,
and so on. The first call that asks for a live token gives its value out, and no other call does.
-/

namespace Parley.Token.Store
variable {d : Domain} {α : Type u}

inductive Deed (α : Type u) where
  | kept (v : α)
  | given (v : α)
deriving DecidableEq

def deeds (t : Nat) : Call α → Answer α → List (Deed α)
  | .keep v, .token (.ok u) => if u = t then [.kept v] else []
  | .retrieve u, .value (.ok v) => if u = t then [.given v] else []
  | .take u, .taken (some v) => if u = t then [.given v] else []
  | .drain, .drained entries => (entries.filter (·.1 == t)).map fun e => .given e.2
  | _, _ => []

def diary (s : Store d α) (t : Nat) : List (Call α) → List (Deed α)
  | [] => []
  | c :: rest => deeds t c (s.call c).1 ++ (s.call c).2.diary t rest

def Call.Asks (t : Nat) : Call α → Prop
  | .retrieve u | .take u => u = t
  | .drain => True
  | .keep _ | .contains _ => False

/-- Deeds that take turns: what is there is given out before the next value is kept. The ends say
what is there before and after. -/
inductive Turns : Option α → List (Deed α) → Option α → Prop where
  | rest (o : Option α) : Turns o [] o
  | kept {v : α} {deeds : List (Deed α)} {o : Option α} (h : Turns (some v) deeds o) :
    Turns none (.kept v :: deeds) o
  | given {v : α} {deeds : List (Deed α)} {o : Option α} (h : Turns none deeds o) :
    Turns (some v) (.given v :: deeds) o

theorem Turns.append {a b c : Option α} {l r : List (Deed α)} (hl : Turns a l b)
    (hr : Turns b r c) : Turns a (l ++ r) c := by
  induction hl with
  | rest o => exact hr
  | kept h ih => exact .kept (ih hr)
  | given h ih => exact .given (ih hr)

section
variable {s : Store d α} {t : Nat} {v : α}

theorem call_retrieve_of_some (h : s.get? t = some v) :
    s.call (.retrieve t) = (.value (.ok v), s.erase t) := by
  simp only [call, retrieve, take_eq_some_iff.2 ⟨h, rfl⟩]

theorem call_retrieve_of_none (h : s.get? t = none) :
    s.call (.retrieve t) = (.value (.error (.notFound s!"correlation token {t}")), s) := by
  simp only [call, retrieve, take_eq_none_iff.2 h]

theorem call_take_of_some (h : s.get? t = some v) :
    s.call (.take t) = (.taken (some v), s.erase t) := by
  simp only [call, take_eq_some_iff.2 ⟨h, rfl⟩]

theorem call_take_of_none (h : s.get? t = none) : s.call (.take t) = (.taken none, s) := by
  simp only [call, take_eq_none_iff.2 h]

theorem call_drain (s : Store d α) : s.call .drain = (.drained s.toList, empty) := rfl

theorem mem_toList_iff : (t, v) ∈ s.toList ↔ s.get? t = some v := by
  rw [toList, List.mem_reverse, get?_eq_some_iff]

theorem filter_toList (s : Store d α) (t : Nat) :
    s.toList.filter (·.1 == t) = ((s.get? t).map (t, ·)).toList := by
  have hnodup : (s.toList.filter (·.1 == t)).Nodup :=
    (List.Nodup.of_map _ (s.tokens_ascending.imp Nat.ne_of_lt)).filter _
  cases hget : s.get? t with
  | none =>
    refine List.filter_eq_nil_iff.2 ?_
    rintro ⟨u, w⟩ hmem hu
    obtain rfl : u = t := beq_iff_eq.1 hu
    rw [mem_toList_iff, hget] at hmem
    simp at hmem
  | some w =>
    have honly : ∀ e, e ∈ s.toList.filter (·.1 == t) ↔ e ∈ [(t, w)] := by
      rintro ⟨u, x⟩
      rw [List.mem_filter, mem_toList_iff, List.mem_singleton, Prod.mk.injEq, beq_iff_eq]
      constructor
      · rintro ⟨hx, rfl⟩
        exact ⟨rfl, Option.some.inj (hx.symm.trans hget)⟩
      · rintro ⟨rfl, rfl⟩
        exact ⟨hget, rfl⟩
    exact List.perm_singleton.1 ((List.perm_ext_iff_of_nodup hnodup (by simp)).2 honly)

end

section
variable {s : Store d α} {t : Nat} {v : α} {c : Call α}

theorem gives (h : s.get? t = some v) (hc : c.Asks t) :
    deeds t c (s.call c).1 = [.given v] ∧ (s.call c).2.get? t = none := by
  cases c with
  | keep w => exact hc.elim
  | contains u => exact hc.elim
  | retrieve u =>
    obtain rfl : u = t := hc
    rw [call_retrieve_of_some h]
    simp [deeds]
  | take u =>
    obtain rfl : u = t := hc
    rw [call_take_of_some h]
    simp [deeds]
  | drain =>
    rw [call_drain]
    simp [deeds, filter_toList, h]

theorem spares (h : s.get? t = some v) (hc : ¬ c.Asks t) :
    deeds t c (s.call c).1 = [] ∧ (s.call c).2.get? t = some v := by
  cases c with
  | keep w =>
    rcases s.call_keep_cases w with ⟨u, r, -, hcall, -, hnew, hget⟩ | ⟨-, hcall⟩
    · have hne : t ≠ u := by
        rintro rfl
        exact hnew ⟨v, h⟩
      rw [hcall]
      exact ⟨if_neg hne.symm, by rw [hget, if_neg hne, h]⟩
    · rw [hcall]
      exact ⟨rfl, h⟩
  | contains u => exact ⟨rfl, h⟩
  | retrieve u =>
    have hne : u ≠ t := hc
    cases hu : s.get? u with
    | none =>
      rw [call_retrieve_of_none hu]
      exact ⟨rfl, h⟩
    | some w =>
      rw [call_retrieve_of_some hu]
      exact ⟨if_neg hne, by rw [get?_erase, if_neg hne.symm, h]⟩
  | take u =>
    have hne : u ≠ t := hc
    cases hu : s.get? u with
    | none =>
      rw [call_take_of_none hu]
      exact ⟨rfl, h⟩
    | some w =>
      rw [call_take_of_some hu]
      exact ⟨if_neg hne, by rw [get?_erase, if_neg hne.symm, h]⟩
  | drain => exact absurd trivial hc

theorem turns_of_none (h : s.get? t = none) (c : Call α) :
    Turns none (deeds t c (s.call c).1) ((s.call c).2.get? t) := by
  have hquiet : ∀ {l : List (Deed α)} {o : Option α}, l = [] → o = none → Turns none l o := by
    rintro _ _ rfl rfl
    exact .rest none
  cases c with
  | keep w =>
    rcases s.call_keep_cases w with ⟨u, r, -, hcall, -, -, hget⟩ | ⟨-, hcall⟩
    · rw [hcall]
      by_cases hu : u = t
      · subst u
        simpa [deeds, hget] using Turns.kept (.rest (some w))
      · exact hquiet (if_neg hu) (by rw [hget, if_neg (Ne.symm hu), h])
    · rw [hcall]
      exact hquiet rfl h
  | contains u => exact hquiet rfl h
  | retrieve u =>
    cases hu : s.get? u with
    | none =>
      rw [call_retrieve_of_none hu]
      exact hquiet rfl h
    | some w =>
      have hne : u ≠ t := by
        rintro rfl
        simp [h] at hu
      rw [call_retrieve_of_some hu]
      exact hquiet (if_neg hne) (by rw [get?_erase, if_neg hne.symm, h])
  | take u =>
    cases hu : s.get? u with
    | none =>
      rw [call_take_of_none hu]
      exact hquiet rfl h
    | some w =>
      have hne : u ≠ t := by
        rintro rfl
        simp [h] at hu
      rw [call_take_of_some hu]
      exact hquiet (if_neg hne) (by rw [get?_erase, if_neg hne.symm, h])
  | drain =>
    rw [call_drain]
    exact hquiet (by simp [deeds, filter_toList, h]) rfl

theorem turns_call (s : Store d α) (t : Nat) (c : Call α) :
    Turns (s.get? t) (deeds t c (s.call c).1) ((s.call c).2.get? t) := by
  cases hget : s.get? t with
  | none => exact turns_of_none hget c
  | some v =>
    by_cases hc : c.Asks t
    · obtain ⟨hdeeds, hafter⟩ := gives hget hc
      rw [hdeeds, hafter]
      exact .given (.rest none)
    · obtain ⟨hdeeds, hafter⟩ := spares hget hc
      rw [hdeeds, hafter]
      exact .rest (some v)

end

theorem turns_diary (s : Store d α) (t : Nat) (calls : List (Call α)) :
    Turns (s.get? t) (s.diary t calls) ((s.after calls).get? t) := by
  induction calls generalizing s with
  | nil => exact .rest (s.get? t)
  | cons c rest ih => exact (s.turns_call t c).append (ih (s.call c).2)

/-- What becomes of a live value in a run of calls: it stays, or else the first call that asks for
its token gives it out. -/
inductive Fate (s : Store d α) (t : Nat) (v : α) (calls : List (Call α)) : Prop where
  | stays (hquiet : ∀ c ∈ calls, ¬ c.Asks t) (hdiary : s.diary t calls = [])
    (hlive : (s.after calls).get? t = some v)
  | given (quiet : List (Call α)) (c : Call α) (rest : List (Call α))
    (hcalls : calls = quiet ++ c :: rest) (hquiet : ∀ b ∈ quiet, ¬ b.Asks t) (hc : c.Asks t)
    (hdiary : s.diary t quiet = []) (hgiven : deeds t c ((s.after quiet).call c).1 = [.given v])
    (hgone : ((s.after quiet).call c).2.get? t = none)

theorem fate_of_live {s : Store d α} {t : Nat} {v : α} (h : s.get? t = some v)
    (calls : List (Call α)) : Fate s t v calls := by
  induction calls generalizing s with
  | nil => exact .stays (by simp) rfl h
  | cons c rest ih =>
    by_cases hc : c.Asks t
    · obtain ⟨hdeeds, hafter⟩ := gives h hc
      exact .given [] c rest rfl (by simp) hc rfl hdeeds hafter
    · obtain ⟨hdeeds, hafter⟩ := spares h hc
      cases ih hafter with
      | stays hquiet hdiary hlive =>
        refine .stays (List.forall_mem_cons.2 ⟨hc, hquiet⟩) ?_ hlive
        rw [diary, hdeeds, hdiary, List.nil_append]
      | given quiet b later hrest hquiet hb hdiary hgiven hgone =>
        refine .given (c :: quiet) b later ?_ (List.forall_mem_cons.2 ⟨hc, hquiet⟩) hb ?_ hgiven
          hgone
        · rw [hrest, List.cons_append]
        · rw [diary, hdeeds, hdiary, List.nil_append]

theorem get?_of_kept {s : Store d α} {t : Nat} {v : α}
    (h : (s.call (.keep v)).1 = .token (.ok t)) : (s.call (.keep v)).2.get? t = some v := by
  rcases s.call_keep_cases v with ⟨u, r, -, hcall, -, -, hget⟩ | ⟨-, hcall⟩
  · rw [hcall] at h ⊢
    obtain rfl : u = t := by simpa using h
    exact (hget u).trans (if_pos rfl)
  · simp [hcall] at h

/-- A value that was kept under a token stays there until the first later call that asks for the
token, which gives it out. Under each token what is kept and what is given out take turns, so
that no value is given twice and no live token is chosen again. To retrieve a token fails exactly
when to take it gives nothing, and neither changes the store then. A drain lists what is live in
the order of the tokens, and the next value gets the lowest. -/
theorem each_given_once (calls : List (Call α)) :
    let s := (empty : Store d α).after calls
    (∀ before v rest t, calls = before ++ .keep v :: rest →
      let r := ((empty : Store d α).after before).call (.keep v)
      r.1 = .token (.ok t) → r.2.after rest = s ∧ Fate r.2 t v rest) ∧
    (∀ t, Turns none ((empty : Store d α).diary t calls) (s.get? t)) ∧
    (∀ t, ((∃ text, (s.call (.retrieve t)).1 = .value (.error (.notFound text))) ↔
        (s.call (.take t)).1 = .taken none) ∧
      ((s.call (.take t)).1 = .taken none →
        (s.call (.retrieve t)).2 = s ∧ (s.call (.take t)).2 = s)) ∧
    (s.call .drain).1 = .drained s.toList ∧ (∀ t v, (t, v) ∈ s.toList ↔ s.get? t = some v) ∧
    (s.toList.map (·.1)).Pairwise (· < ·) ∧
    ∀ v, ((s.call .drain).2.call (.keep v)).1 = .token (.ok d.lo) := by
  intro s
  refine ⟨?_, fun t => turns_diary empty t calls, fun t => ?_, rfl, fun t v => mem_toList_iff,
    s.tokens_ascending, fun v => rfl⟩
  · rintro before v rest t rfl r htoken
    refine ⟨?_, fate_of_live (get?_of_kept htoken) rest⟩
    simp only [s, r, after, List.foldl_append, List.foldl_cons]
  · cases hget : s.get? t with
    | none =>
      rw [call_retrieve_of_none hget, call_take_of_none hget]
      exact ⟨⟨fun _ => rfl, fun _ => ⟨_, rfl⟩⟩, fun _ => ⟨rfl, rfl⟩⟩
    | some v =>
      rw [call_retrieve_of_some hget, call_take_of_some hget]
      simp

theorem each_given_once_reused :
    let calls : List (Call Nat) := [.keep 10, .keep 20, .retrieve 0, .keep 30, .take 7]
    let s := (empty : Store (Domain.word 1) Nat).after calls
    (empty : Store (Domain.word 1) Nat).diary 0 calls = [.kept 10, .given 10, .kept 30] ∧
    s.get? 0 = some 30 ∧ Turns none [.kept 10, .given 10, .kept 30] (some 30) ∧
    Fate ((empty : Store (Domain.word 1) Nat).call (.keep 10)).2 0 10
      [.keep 20, .retrieve 0, .keep 30, .take 7] ∧
    (s.call (.take 7)).1 = .taken none ∧ (s.call (.retrieve 7)).2 = s := by
  intro calls s
  obtain ⟨hkept, hturns, hmissing, -⟩ := each_given_once (d := Domain.word 1) calls
  exact ⟨by decide, by decide, hturns 0, (hkept [] 10 _ 0 rfl rfl).2, rfl, ((hmissing 7).2 rfl).1⟩

end Parley.Token.Store
