import Mathlib
import Parley.Config
import Parley.Proofs.Trust.Decision

/-!
# Fields of a mapping

A mapping has fields when its keys are known texts and no two of them are the same; then a text
finds exactly what is written under it. So what a field has does not depend on where it stands.
-/

namespace Parley.Config
open Yaml (Node)

/-- Every key is one of the known texts, and none stands twice. -/
structure Strict (known : List String) (entries : List (Node × Node)) : Prop where
  known : ∀ e ∈ entries, ∃ key ∈ known, text? e.1 = some key
  distinct : (entries.map (text? ·.1)).Nodup

def named (entries : List (Node × Node)) : List (String × Node) :=
  entries.filterMap fun e => (text? e.1).map (·, e.2)

variable {known : List String} {tag : Option String} {entries others : List (Node × Node)}
  {key : String} {k v : Node}

theorem mem_named_iff : (key, v) ∈ named entries ↔ ∃ k, (k, v) ∈ entries ∧ text? k = some key := by
  simp [named]

theorem named_keys (h : entries.all fun e => (text? e.1).isSome) :
    (named entries).map (some ·.1) = entries.map (text? ·.1) := by
  induction entries with
  | nil => rfl
  | cons e rest ih =>
    rw [List.all_cons, Bool.and_eq_true] at h
    obtain ⟨key, hkey⟩ := Option.isSome_iff_exists.1 h.1
    have hcons : named (e :: rest) = (key, e.2) :: named rest := by simp [named, hkey]
    rw [hcons, List.map_cons, List.map_cons, ih h.2, hkey]

namespace Strict

theorem all_texts (h : Strict known entries) : entries.all fun e => (text? e.1).isSome := by
  rw [List.all_eq_true]
  intro e he
  obtain ⟨key, -, hkey⟩ := h.known e he
  rw [hkey, Option.isSome_some]

theorem nodup (h : Strict known entries) : ((named entries).map (·.1)).Nodup := by
  have hdistinct := h.distinct
  rw [← named_keys h.all_texts] at hdistinct
  refine List.Nodup.of_map some ?_
  rwa [List.map_map]

theorem perm (hperm : entries.Perm others) (h : Strict known entries) : Strict known others :=
  ⟨fun e he => h.known e (hperm.mem_iff.2 he), (hperm.map _).nodup_iff.1 h.distinct⟩

end Strict

theorem strict_iff : Strict known entries ↔ (entries.all fun e => (text? e.1).isSome) = true ∧
    (((named entries).map (·.1)).all known.contains && ((named entries).map (·.1)).Nodup) =
      true := by
  rw [Bool.and_eq_true, List.all_eq_true (l := List.map _ _), decide_eq_true_iff]
  constructor
  · intro h
    refine ⟨h.all_texts, fun key hkey => ?_, h.nodup⟩
    obtain ⟨f, hf, rfl⟩ := List.mem_map.1 hkey
    obtain ⟨k, hk, htext⟩ := mem_named_iff.1 hf
    obtain ⟨key, hknown, hsame⟩ := h.known _ hk
    obtain rfl : f.1 = key := Option.some.inj (htext.symm.trans hsame)
    exact List.contains_iff_mem.2 hknown
  · rintro ⟨htexts, hknown, hnodup⟩
    refine ⟨fun e he => ?_, ?_⟩
    · obtain ⟨key, hkey⟩ := Option.isSome_iff_exists.1 (List.all_eq_true.1 htexts e he)
      have hmem : (key, e.2) ∈ named entries := mem_named_iff.2 ⟨e.1, he, hkey⟩
      exact ⟨key, List.contains_iff_mem.1 (hknown key (List.mem_map_of_mem hmem)), hkey⟩
    · have hsome := hnodup.map (Option.some_injective String)
      rwa [List.map_map, Function.comp_def, named_keys htexts] at hsome

theorem fields?_mapping : fields? known (.mapping tag entries) =
    if entries.all fun e => (text? e.1).isSome then
      if ((named entries).map (·.1)).all known.contains && ((named entries).map (·.1)).Nodup then
        some (named entries)
      else none
    else none := by
  have hmap := Trust.mapM_option (fun e : Node × Node => (text? e.1).map (·, e.2)) entries
  simp only [Option.isSome_map] at hmap
  simp only [fields?, hmap]
  by_cases htexts : entries.all fun e => (text? e.1).isSome
  · rw [if_pos htexts, if_pos htexts]
    rfl
  · rw [if_neg htexts, if_neg htexts]
    rfl

theorem fields?_of_strict (h : Strict known entries) :
    fields? known (.mapping tag entries) = some (named entries) := by
  obtain ⟨htexts, hkeys⟩ := strict_iff.1 h
  rw [fields?_mapping, if_pos htexts, if_pos hkeys]

theorem fields?_of_not_strict (h : ¬ Strict known entries) :
    fields? known (.mapping tag entries) = none := by
  rw [fields?_mapping]
  split_ifs with htexts hkeys
  · exact absurd (strict_iff.2 ⟨htexts, hkeys⟩) h
  · rfl
  · rfl

theorem fields?_cases {n : Node} {fields : List (String × Node)}
    (h : fields? known n = some fields) :
    (∃ tag entries, n = .mapping tag entries ∧ Strict known entries ∧ named entries = fields) ∨
      (∃ tag, n = .scalar tag .plain "") ∧ fields = [] := by
  cases n with
  | scalar tag style text =>
    unfold fields? at h
    split at h
    · contradiction
    · rename_i heq
      cases heq
      exact .inr ⟨⟨tag, rfl⟩, (Option.some.inj h).symm⟩
    · cases h
  | sequence tag items => cases h
  | mapping tag entries =>
    by_cases hs : Strict known entries
    · rw [fields?_of_strict hs] at h
      exact .inl ⟨tag, entries, rfl, hs, Option.some.inj h⟩
    · rw [fields?_of_not_strict hs] at h
      cases h

theorem lookup_eq_some_iff_mem {fields : List (String × Node)} (h : (fields.map (·.1)).Nodup) :
    fields.lookup key = some v ↔ (key, v) ∈ fields := by
  induction fields with
  | nil => simp
  | cons f rest ih =>
    obtain ⟨first, w⟩ := f
    rw [List.map_cons, List.nodup_cons] at h
    rw [List.lookup_cons, List.mem_cons, Prod.mk.injEq]
    by_cases heq : key = first
    · subst heq
      have hnot : (key, v) ∉ rest := fun hmem => h.1 (List.mem_map.2 ⟨_, hmem, rfl⟩)
      simp [hnot, eq_comm]
    · have hbeq : (key == first) = false := beq_eq_false_iff_ne.2 heq
      simp [hbeq, heq, ih h.2]

theorem Strict.lookup_eq_some_iff (h : Strict known entries) :
    (named entries).lookup key = some v ↔ ∃ k, (k, v) ∈ entries ∧ text? k = some key := by
  rw [lookup_eq_some_iff_mem h.nodup, mem_named_iff]

theorem Strict.lookup_eq_none_iff (h : Strict known entries) :
    (named entries).lookup key = none ↔ ∀ e ∈ entries, text? e.1 ≠ some key := by
  rw [Option.eq_none_iff_forall_ne_some]
  constructor
  · rintro hnone ⟨k, v⟩ he hkey
    exact hnone v (h.lookup_eq_some_iff.2 ⟨k, he, hkey⟩)
  · intro hall v hsome
    obtain ⟨k, he, hkey⟩ := h.lookup_eq_some_iff.1 hsome
    exact hall (k, v) he hkey

theorem Strict.put {front back : List (Node × Node)} {v' : Node}
    (h : Strict known (front ++ (k, v) :: back)) : Strict known (front ++ (k, v') :: back) := by
  refine ⟨fun e he => ?_, by simpa using h.distinct⟩
  rcases List.mem_append.1 he with hfront | hback
  · exact h.known e (List.mem_append_left _ hfront)
  · rcases List.mem_cons.1 hback with rfl | hback
    · exact h.known (k, v) (List.mem_append_right _ List.mem_cons_self)
    · exact h.known e (List.mem_append_right _ (List.mem_cons_of_mem _ hback))

theorem lookup_put_of_ne {front back : List (Node × Node)} {v' : Node} {other : String}
    (hk : text? k = some key) (hne : other ≠ key) :
    (named (front ++ (k, v) :: back)).lookup other =
      (named (front ++ (k, v') :: back)).lookup other := by
  have hput (w : Node) :
      named (front ++ (k, w) :: back) = named front ++ (key, w) :: named back := by
    simp [named, hk]
  have hbeq : (other == key) = false := beq_eq_false_iff_ne.2 hne
  simp only [hput, List.lookup_append, List.lookup_cons, hbeq]

end Parley.Config
