import Mathlib
import Parley.Connection.Registry

/-!
# What is registered

A registry holds each value under an id of the value's own. Whatever was inserted and removed
before, it lists what was inserted since its last removal, and the count beside it agrees.
-/

namespace Parley.Registry
variable {α : Type} {r : Registry α} {k : Nat} {e : Nat × α}

theorem insert_live (r : Registry α) (id : Nat) (value : α) :
    (r.insert id value).live =
      if r.contains id then r.live.map fun e => if e.1 == id then (id, value) else e
      else r.live ++ [(id, value)] := by
  cases hthere : r.contains id <;> simp [insert, put, hthere, countUp]

theorem insert_count (r : Registry α) (id : Nat) (value : α) :
    (r.insert id value).count = if r.contains id then r.count else r.count + 1 := by
  cases hthere : r.contains id <;> simp [insert, put, hthere, countUp]

theorem mem_insert_self (r : Registry α) (id : Nat) (value : α) :
    (id, value) ∈ (r.insert id value).live := by
  rw [insert_live]
  split_ifs with hthere
  · obtain ⟨e, he, hid⟩ := List.any_eq_true.1 hthere
    exact List.mem_map.2 ⟨e, he, if_pos hid⟩
  · exact List.mem_append_right _ List.mem_cons_self

theorem mem_insert_of_ne (h : e ∈ r.live) (hne : e.1 ≠ k) (value : α) :
    e ∈ (r.insert k value).live := by
  rw [insert_live]
  split_ifs
  · exact List.mem_map.2 ⟨e, h, if_neg (by simpa using hne)⟩
  · exact List.mem_append_left _ h

theorem remove_fst (r : Registry α) (id : Nat) : (r.remove id).1 = r.get? id := by
  unfold remove take
  cases r.get? id <;> rfl

theorem remove_live (r : Registry α) (id : Nat) :
    (r.remove id).2.live = r.live.filter (·.1 != id) := by
  unfold remove take
  cases r.get? id <;> rfl

theorem remove_count (r : Registry α) (id : Nat) :
    (r.remove id).2.count = if (r.get? id).isSome then r.count - 1 else r.count := by
  unfold remove take
  cases r.get? id <;> rfl

theorem mem_remove_of_ne (h : e ∈ r.live) (hne : e.1 ≠ k) : e ∈ (r.remove k).2.live := by
  rw [remove_live]
  exact List.mem_filter.2 ⟨h, by simpa using hne⟩

section
variable (ident : α → Nat)

inductive Call (α : Type) where
  | insert (x : α)
  | remove (id : Nat)

def call (r : Registry α) : Call α → Option α × Registry α
  | .insert x => (none, r.insert (ident x) x)
  | .remove id => r.remove id

def run (r : Registry α) (calls : List (Call α)) : Registry α :=
  calls.foldl (fun r c => (r.call ident c).2) r

def Stays (x : α) (calls : List (Call α)) : Prop :=
  ∃ before after, calls = before ++ .insert x :: after ∧ .remove (ident x) ∉ after

/-- Each value stands under its own id, once, and the count is right. -/
structure Sound (r : Registry α) : Prop where
  keyed : ∀ e ∈ r.live, e.1 = ident e.2
  nodup : (r.live.map (·.1)).Nodup
  count : r.count = r.live.length

variable {ident}

theorem sound_empty : Sound ident empty := ⟨by simp [empty], by simp [empty], rfl⟩

theorem Sound.mem_iff (h : r.Sound ident) {x : α} :
    x ∈ r.snapshot ↔ (ident x, x) ∈ r.live := by
  refine ⟨fun hx => ?_, fun hx => List.mem_map.2 ⟨_, hx, rfl⟩⟩
  obtain ⟨e, he, rfl⟩ := List.mem_map.1 hx
  rwa [← h.keyed e he]

theorem Sound.get?_eq_some_iff (h : r.Sound ident) {x : α} :
    r.get? k = some x ↔ ident x = k ∧ x ∈ r.snapshot := by
  rw [h.mem_iff, get?, Option.map_eq_some_iff]
  constructor
  · rintro ⟨e, hfind, rfl⟩
    have hmem := List.mem_of_find?_eq_some hfind
    have hkey := h.keyed e hmem
    rw [← hkey]
    exact ⟨by simpa using List.find?_some hfind, hmem⟩
  · rintro ⟨rfl, hmem⟩
    cases hfind : r.live.find? (·.1 == ident x) with
    | none => exact absurd (List.find?_eq_none.1 hfind _ hmem) (by simp)
    | some e =>
      -- no second entry has the key
      have hkey : e.1 = ident x := by simpa using List.find?_some hfind
      have heq : e = (ident x, x) :=
        List.inj_on_of_nodup_map h.nodup (List.mem_of_find?_eq_some hfind) hmem hkey
      exact ⟨e, rfl, by rw [heq]⟩

theorem Sound.contains_iff (h : r.Sound ident) (hinj : Function.Injective ident) {x : α} :
    r.contains (ident x) = true ↔ (ident x, x) ∈ r.live := by
  refine ⟨fun hthere => ?_, fun hmem => List.any_eq_true.2 ⟨_, hmem, by simp⟩⟩
  obtain ⟨⟨t, y⟩, hmem, ht⟩ := List.any_eq_true.1 hthere
  obtain rfl : t = ident x := beq_iff_eq.1 ht
  obtain rfl : x = y := hinj (h.keyed _ hmem)
  exact hmem

theorem Sound.insert_of_contains (h : r.Sound ident) (hinj : Function.Injective ident) {x : α}
    (hthere : r.contains (ident x) = true) : r.insert (ident x) x = r := by
  have hlive : (r.insert (ident x) x).live = r.live := by
    rw [insert_live, if_pos hthere]
    refine (List.map_congr_left fun e he => ?_).trans (List.map_id _)
    split_ifs with hkey
    · have hx : x = e.2 := hinj ((beq_iff_eq.1 hkey).symm.trans (h.keyed e he))
      rw [hx, ← h.keyed e he]
      rfl
    · rfl
  have hcount : (r.insert (ident x) x).count = r.count := by rw [insert_count, if_pos hthere]
  calc r.insert (ident x) x
      = ⟨(r.insert (ident x) x).live, (r.insert (ident x) x).count⟩ := rfl
    _ = r := by rw [hlive, hcount]

theorem Sound.insert (h : r.Sound ident) (hinj : Function.Injective ident) (x : α) :
    (r.insert (ident x) x).Sound ident ∧
      ∀ y, y ∈ (r.insert (ident x) x).snapshot ↔ y = x ∨ y ∈ r.snapshot := by
  by_cases hthere : r.contains (ident x) = true
  · rw [h.insert_of_contains hinj hthere]
    refine ⟨h, fun y => ⟨.inr, ?_⟩⟩
    rintro (rfl | hy)
    · exact h.mem_iff.2 ((h.contains_iff hinj).1 hthere)
    · exact hy
  · have hlive : (r.insert (ident x) x).live = r.live ++ [(ident x, x)] := by
      rw [insert_live, if_neg hthere]
    refine ⟨⟨fun e he => ?_, ?_, ?_⟩, fun y => ?_⟩
    · rw [hlive, List.mem_append, List.mem_singleton] at he
      rcases he with he | rfl
      · exact h.keyed e he
      · rfl
    · rw [hlive, List.map_append, List.nodup_append]
      refine ⟨h.nodup, by simp, fun t ht u hu heq => hthere ?_⟩
      obtain ⟨e, he, rfl⟩ := List.mem_map.1 ht
      obtain rfl : u = ident x := by simpa using hu
      exact List.any_eq_true.2 ⟨e, he, beq_iff_eq.2 heq⟩
    · rw [hlive, insert_count, if_neg hthere, h.count, List.length_append, List.length_singleton]
    · rw [snapshot, hlive, List.map_append, List.mem_append, or_comm]
      simp [snapshot]

theorem Sound.length_remove (h : r.Sound ident) (id : Nat) :
    r.live.length = (r.remove id).2.live.length + if (r.get? id).isSome then 1 else 0 := by
  rw [remove_live]
  cases hget : r.get? id with
  | none =>
    have hall : ∀ e ∈ r.live, (e.1 != id) = true := by
      refine fun e he => bne_iff_ne.2 fun hid => ?_
      have hsome :=
        h.get?_eq_some_iff.2 ⟨(h.keyed e he).symm.trans hid, List.mem_map.2 ⟨e, he, rfl⟩⟩
      rw [hget] at hsome
      simp at hsome
    rw [List.filter_eq_self.2 hall]
    rfl
  | some x =>
    obtain ⟨rfl, hx⟩ := h.get?_eq_some_iff.1 hget
    have hone : r.live.countP (·.1 == ident x) = 1 := by
      have hcount := List.count_eq_one_of_mem h.nodup (List.mem_map.2 ⟨_, h.mem_iff.1 hx, rfl⟩)
      rwa [List.count, List.countP_map] at hcount
    rw [List.length_eq_countP_add_countP (·.1 == ident x), hone, Nat.add_comm,
      ← List.countP_eq_length_filter]
    refine congrArg (· + 1) (List.countP_congr fun e _ => ?_)
    simp

theorem Sound.remove (h : r.Sound ident) (id : Nat) :
    (r.remove id).2.Sound ident ∧
      ∀ y, y ∈ (r.remove id).2.snapshot ↔ y ∈ r.snapshot ∧ ident y ≠ id := by
  have hlive := r.remove_live id
  have hsound : (r.remove id).2.Sound ident := by
    refine ⟨fun e he => ?_, ?_, ?_⟩
    · rw [hlive] at he
      exact h.keyed e (List.mem_of_mem_filter he)
    · rw [hlive]
      exact h.nodup.sublist (List.filter_sublist.map _)
    · have hlength := h.length_remove id
      rw [remove_count, h.count]
      split_ifs at hlength ⊢ <;> omega
  refine ⟨hsound, fun y => ?_⟩
  rw [hsound.mem_iff, h.mem_iff, hlive, List.mem_filter, bne_iff_ne]

theorem stays_cons (x : α) (c : Call α) (rest : List (Call α)) :
    Stays ident x (c :: rest) ↔
      Stays ident x rest ∨ c = .insert x ∧ .remove (ident x) ∉ rest := by
  constructor
  · rintro ⟨before, after, heq, hno⟩
    cases before with
    | nil =>
      obtain ⟨rfl, rfl⟩ := List.cons.inj heq
      exact .inr ⟨rfl, hno⟩
    | cons d before =>
      obtain ⟨-, rfl⟩ := List.cons.inj heq
      exact .inl ⟨before, after, rfl, hno⟩
  · rintro (⟨before, after, rfl, hno⟩ | ⟨rfl, hno⟩)
    · exact ⟨c :: before, after, rfl, hno⟩
    · exact ⟨[], rest, rfl, hno⟩

theorem not_stays_nil (x : α) : ¬ Stays ident x [] := by
  rintro ⟨before, after, heq, -⟩
  cases before <;> cases heq

theorem Sound.run (h : r.Sound ident) (hinj : Function.Injective ident) (calls : List (Call α)) :
    (r.run ident calls).Sound ident ∧ ∀ x, x ∈ (r.run ident calls).snapshot ↔
      Stays ident x calls ∨ x ∈ r.snapshot ∧ .remove (ident x) ∉ calls := by
  -- what was listed before the calls is listed after them unless one of them removes it
  induction calls generalizing r with
  | nil => exact ⟨h, fun x => by simp [Registry.run, not_stays_nil]⟩
  | cons c rest ih =>
    cases c with
    | insert y =>
      obtain ⟨hsound, hmem⟩ := h.insert hinj y
      obtain ⟨hlast, hall⟩ := ih hsound
      refine ⟨hlast, fun x => ?_⟩
      change x ∈ ((r.insert (ident y) y).run ident rest).snapshot ↔ _
      have hno : .remove (ident x) ∉ Call.insert y :: rest ↔ .remove (ident x) ∉ rest := by simp
      rw [hall, hmem, stays_cons, hno, Call.insert.injEq, eq_comm (a := y)]
      tauto
    | remove id =>
      obtain ⟨hsound, hmem⟩ := h.remove id
      obtain ⟨hlast, hall⟩ := ih hsound
      refine ⟨hlast, fun x => ?_⟩
      change x ∈ ((r.remove id).2.run ident rest).snapshot ↔ _
      have hno : .remove (ident x) ∉ Call.remove id :: rest ↔
          ident x ≠ id ∧ .remove (ident x) ∉ rest := by simp
      have hother : Call.remove id ≠ .insert x := nofun
      rw [hall, hmem, stays_cons, hno]
      tauto

theorem Sound.snapshot_nodup (h : r.Sound ident) : r.snapshot.Nodup := by
  have hkeys : r.snapshot.map ident = r.live.map (·.1) := by
    rw [snapshot, List.map_map]
    exact List.map_congr_left fun e he => (h.keyed e he).symm
  exact .of_map ident (hkeys ▸ h.nodup)

theorem Sound.drained_iff (h : r.Sound ident) : r.drained = true ↔ r.isEmpty = true := by
  rw [drained, isEmpty, h.count, decide_eq_true_iff, List.isEmpty_iff, List.length_eq_zero_iff]

theorem Sound.count_remove (h : r.Sound ident) (hfound : (r.remove k).1.isSome) :
    (r.remove k).2.count + 1 = r.count := by
  have hlength := h.length_remove k
  rw [← remove_fst, if_pos hfound, ← (h.remove k).1.count, ← h.count] at hlength
  exact hlength.symm

/-- What is listed is what stays, whatever the calls were. A removal finds exactly what is listed,
and then there is something to count down from. -/
theorem lists_what_stays (hinj : Function.Injective ident) (calls : List (Call α)) :
    let r := empty.run ident calls
    r.snapshot.Nodup ∧
      (∀ x, x ∈ r.snapshot ↔ Stays ident x calls) ∧
      (∀ id x, (r.remove id).1 = some x ↔ ident x = id ∧ Stays ident x calls) ∧
      r.count = r.size ∧
      (r.drained = true ↔ r.isEmpty = true) ∧
      ∀ id, (r.remove id).1.isSome → (r.remove id).2.count + 1 = r.count := by
  intro r
  obtain ⟨hsound, hall⟩ := sound_empty.run hinj calls
  have hlisted (x : α) : x ∈ r.snapshot ↔ Stays ident x calls := by
    rw [hall]
    simp [empty, snapshot]
  refine ⟨hsound.snapshot_nodup, hlisted, fun id x => ?_, hsound.count, hsound.drained_iff,
    fun id => hsound.count_remove⟩
  rw [remove_fst, hsound.get?_eq_some_iff, hlisted]

theorem lists_what_stays_mixed :
    let calls : List (Call Nat) :=
      [.insert 1, .insert 2, .insert 1, .remove 1, .remove 7, .insert 3, .remove 1]
    let r := empty.run id calls
    r.snapshot = [2, 3] ∧ Stays id 2 calls ∧ Stays id 3 calls ∧ ¬ Stays id 1 calls ∧
      (r.remove 2).1 = some 2 ∧ r.count = r.size ∧ (r.remove 2).2.count + 1 = r.count := by
  intro calls r
  obtain ⟨-, hlisted, hremove, hcount, -, hdown⟩ :=
    lists_what_stays Function.injective_id calls
  have hsnapshot : r.snapshot = [2, 3] := rfl
  have htwo : Stays id 2 calls := (hlisted 2).1 (by decide)
  have hthree : Stays id 3 calls := (hlisted 3).1 (by decide)
  have hone : ¬ Stays id 1 calls := fun h => absurd ((hlisted 1).2 h) (by decide)
  have hfound : (r.remove 2).1 = some 2 := (hremove 2 2).2 ⟨rfl, htwo⟩
  exact ⟨hsnapshot, htwo, hthree, hone, hfound, hcount, hdown 2 (by rw [hfound]; rfl)⟩

end
end Parley.Registry
