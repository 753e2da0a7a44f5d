import Mathlib
import Parley.Server

/-!
# Waiting for the connections to go

A session puts its connection into the registry and counts it, and later takes it out and counts it
off: two steps each way. Who waits until all connections are gone looks at the count alone. It is
zero exactly when no session stands between the step that counts its connection and the one that
counts it off; what is still registered then belongs to sessions that have not counted theirs yet.
-/

namespace Parley

namespace Registry
variable {α : Type} {r : Registry α} {k : Nat}

def ids (r : Registry α) : List Nat := r.live.map (·.1)

@[simp] theorem ids_countUp (r : Registry α) : r.countUp.ids = r.ids := rfl

@[simp] theorem ids_countDown (r : Registry α) : r.countDown.ids = r.ids := rfl

theorem contains_iff_mem_ids : r.contains k = true ↔ k ∈ r.ids := by
  simp [contains, ids, List.any_eq_true]

theorem size_eq_length_ids (r : Registry α) : r.size = r.ids.length := by
  rw [size, ids, List.length_map]

theorem isEmpty_iff_ids : r.isEmpty = true ↔ ∀ k, k ∉ r.ids := by
  rw [isEmpty, List.isEmpty_iff, ← List.eq_nil_iff_forall_not_mem, ids, List.map_eq_nil_iff]

theorem isSome_get?_iff : (r.get? k).isSome = true ↔ k ∈ r.ids := by
  simp [get?, ids, List.find?_isSome]

theorem put_of_notMem (h : k ∉ r.ids) (value : α) :
    r.put k value = (true, { r with live := r.live ++ [(k, value)] }) := by
  rw [put, if_neg fun hthere => h (contains_iff_mem_ids.1 hthere)]

theorem ids_take (r : Registry α) (k : Nat) : (r.take k).2.ids = r.ids.filter (· != k) := by
  simp only [take, ids, List.filter_map]
  rfl

end Registry

namespace Draining
variable {ι κ ν : Type}

inductive Place where
  | outside
  /-- The connection is registered and not counted; whether its id was new is known. -/
  | put (fresh : Bool)
  | registered
  /-- The connection is registered no more and still counted, if it was found. -/
  | taken (found : Bool)
  | gone
deriving DecidableEq

namespace Place

def Inside : Place → Prop
  | .put _ | .registered => True
  | .outside | .taken _ | .gone => False

def Counted : Place → Prop
  | .registered | .taken _ => True
  | .outside | .put _ | .gone => False

def Entering : Place → Prop
  | .put _ => True
  | _ => False

def Leaving : Place → Prop
  | .taken _ => True
  | _ => False

theorem inside_iff {p : Place} : p.Inside ↔ p.Entering ∨ p = .registered := by
  cases p <;> simp [Inside, Entering]

theorem counted_iff {p : Place} : p.Counted ↔ p.Leaving ∨ p = .registered := by
  cases p <;> simp [Counted, Leaving]

end Place

inductive Halt where
  | idle
  | needless
  | vacated
  | raised
  | waiting
  | drained
  | expired
deriving DecidableEq

/-- Sessions and stops have numbers, and the connection of a session has its number as its id. -/
structure World (ι κ ν : Type) where
  server : Server ι κ ν := {}
  place : Nat → Place := fun _ => .outside
  halt : Nat → Halt := fun _ => .idle

inductive Event (ν : Type) where
  | listen (place : ν)
  | session (k : Nat)
  | stop (j : Nat)
  | expire (j : Nat)

namespace World

def visit (w : World ι κ ν) (k : Nat) (p : Place) (r : Registry Nat) : World ι κ ν :=
  { w with server := { w.server with registry := r }, place := Function.update w.place k p }

def reach (w : World ι κ ν) (j : Nat) (h : Halt) : World ι κ ν :=
  { w with halt := Function.update w.halt j h }

def session (w : World ι κ ν) (k : Nat) : World ι κ ν :=
  let r := w.server.registry
  match w.place k with
  | .outside => w.visit k (.put (r.put k k).1) (r.put k k).2
  | .put fresh => w.visit k .registered (if fresh then r.countUp else r)
  | .registered => w.visit k (.taken (r.take k).1.isSome) (r.take k).2
  | .taken found => w.visit k .gone (if found then r.countDown else r)
  | .gone => w

def stop (w : World ι κ ν) (j : Nat) : World ι κ ν :=
  match w.halt j with
  | .idle =>
    { w.reach j (if w.server.vacate.1.isSome then .vacated else .needless) with
      server := w.server.vacate.2 }
  | .vacated => { w.reach j .raised with server := w.server.raise }
  -- to close a connection does not take it out of the registry: its session does, later
  | .raised => w.reach j .waiting
  | .waiting => if w.server.registry.drained then w.reach j .drained else w
  | .needless | .drained | .expired => w

def expire (w : World ι κ ν) (j : Nat) : World ι κ ν :=
  match w.halt j with
  | .waiting => w.reach j .expired
  | _ => w

def step (w : World ι κ ν) : Event ν → World ι κ ν
  | .listen place =>
    if w.server.running.isSome then w else { w with server := w.server.lower.occupy place }
  | .session k => w.session k
  | .stop j => w.stop j
  | .expire j => w.expire j

def run (w : World ι κ ν) (events : List (Event ν)) : World ι κ ν := events.foldl step w

noncomputable def census (w : World ι κ ν) (P : Place → Prop) : ℕ∞ := {k | P (w.place k)}.encard

section
variable {w : World ι κ ν} {k : Nat}

@[simp] theorem visit_place_self (w : World ι κ ν) (k : Nat) (p : Place) (r : Registry Nat) :
    (w.visit k p r).place k = p :=
  Function.update_self ..

theorem visit_place_of_ne {i : Nat} (h : i ≠ k) (p : Place) (r : Registry Nat) :
    (w.visit k p r).place i = w.place i :=
  Function.update_of_ne h ..

theorem server_session_session_of_outside (h : w.place k = .outside) :
    ((w.session k).session k).server = w.server.enter k := by
  simp only [session, h, visit_place_self]
  rfl

theorem server_session_session_of_registered (h : w.place k = .registered) :
    ((w.session k).session k).server = w.server.leave k := by
  simp only [session, h, visit_place_self, Server.leave, Registry.remove]
  rw [Registry.take]
  cases w.server.registry.get? k <;> rfl

end

section
variable {w : World ι κ ν} {k : Nat} {p : Place} {r : Registry Nat} {P Q : Place → Prop}

theorem census_visit_of_iff (h : P p ↔ P (w.place k)) : (w.visit k p r).census P = w.census P := by
  refine congrArg Set.encard (Set.ext fun i => ?_)
  by_cases hi : i = k
  · subst hi
    simpa using h
  · simp [visit_place_of_ne hi]

theorem census_visit_add (hp : P p) (h : ¬ P (w.place k)) :
    (w.visit k p r).census P = w.census P + 1 := by
  rw [census, census, ← Set.encard_insert_of_notMem (a := k) h]
  refine congrArg Set.encard (Set.ext fun i => ?_)
  by_cases hi : i = k
  · subst hi
    simpa using hp
  · simp [visit_place_of_ne hi, hi]

theorem census_visit_sub (hp : ¬ P p) (h : P (w.place k)) :
    (w.visit k p r).census P + 1 = w.census P := by
  have hmem : k ∈ {i | P (w.place i)} := h
  rw [census, census, ← Set.encard_sdiff_singleton_add_one hmem]
  refine congrArg (Set.encard · + 1) (Set.ext fun i => ?_)
  by_cases hi : i = k
  · subst hi
    simpa using hp
  · simp [visit_place_of_ne hi, hi]

theorem census_or (h : ∀ p, P p → ¬ Q p) :
    w.census (fun p => P p ∨ Q p) = w.census P + w.census Q :=
  Set.encard_union_eq (Set.disjoint_left.2 fun _ hP hQ => h _ hP hQ)

theorem census_eq_zero_iff : w.census P = 0 ↔ ∀ k, ¬ P (w.place k) := by
  rw [census, Set.encard_eq_zero, Set.eq_empty_iff_forall_notMem]
  rfl

end

structure Sound (w : World ι κ ν) : Prop where
  nodup : w.server.registry.ids.Nodup
  listed : ∀ k, k ∈ w.server.registry.ids ↔ (w.place k).Inside
  counted : (w.server.registry.count : ℕ∞) = w.census Place.Counted
  /-- Nobody finds the own id there before, and everybody finds it afterwards. -/
  certain : ∀ k, w.place k ≠ .put false ∧ w.place k ≠ .taken false

section
variable {w later : World ι κ ν} {j k : Nat} {p : Place} {r : Registry Nat}

theorem sound_start : ({} : World ι κ ν).Sound where
  nodup := List.nodup_nil
  listed k := by simp [Registry.ids, Registry.empty, Place.Inside]
  counted := (census_eq_zero_iff.2 fun k => id).symm
  certain k := by simp

theorem Sound.visit (h : w.Sound) (hnodup : r.ids.Nodup) (hself : k ∈ r.ids ↔ p.Inside)
    (hother : ∀ i, i ≠ k → (i ∈ r.ids ↔ i ∈ w.server.registry.ids))
    (hcount : (r.count : ℕ∞) = (w.visit k p r).census Place.Counted)
    (hcertain : p ≠ .put false ∧ p ≠ .taken false) : (w.visit k p r).Sound where
  nodup := hnodup
  listed i := by
    by_cases hi : i = k
    · subst hi
      rwa [visit_place_self]
    · rw [visit_place_of_ne hi]
      exact (hother i hi).trans (h.listed i)
  counted := hcount
  certain i := by
    by_cases hi : i = k
    · subst hi
      rwa [visit_place_self]
    · rw [visit_place_of_ne hi]
      exact h.certain i

theorem Sound.put (h : w.Sound) (hp : w.place k = .outside) : (w.session k).Sound := by
  have hnew : k ∉ w.server.registry.ids := fun hk => by
    have hinside := (h.listed k).1 hk
    rwa [hp] at hinside
  have hids : (w.server.registry.put k k).2.ids = w.server.registry.ids ++ [k] := by
    simp [Registry.put_of_notMem hnew, Registry.ids]
  have hput : w.session k = w.visit k (.put true) (w.server.registry.put k k).2 := by
    simp only [session, hp, Registry.put_of_notMem hnew]
  rw [hput]
  refine h.visit ?_ ?_ (fun i hi => ?_) ?_ (by simp)
  · rw [hids]
    refine List.nodup_append.2 ⟨h.nodup, List.nodup_singleton k, ?_⟩
    simpa using fun a ha => ne_of_mem_of_not_mem ha hnew
  · simp [hids, Place.Inside]
  · simp [hids, hi]
  · rw [census_visit_of_iff (by simp [hp, Place.Counted]), ← h.counted,
      Registry.put_of_notMem hnew]

theorem Sound.countUp (h : w.Sound) (hp : w.place k = .put true) : (w.session k).Sound := by
  have hup : w.session k = w.visit k .registered w.server.registry.countUp := by
    simp only [session, hp, if_true]
  rw [hup]
  refine h.visit h.nodup ?_ (fun _ _ => .rfl) ?_ (by simp)
  · simpa [hp, Place.Inside] using h.listed k
  · rw [census_visit_add trivial (by simp [hp, Place.Counted]), ← h.counted]
    rfl

theorem Sound.take (h : w.Sound) (hp : w.place k = .registered) : (w.session k).Sound := by
  have hthere : (w.server.registry.get? k).isSome = true :=
    Registry.isSome_get?_iff.2 ((h.listed k).2 (by rw [hp]; trivial))
  have htake : w.session k = w.visit k (.taken true) (w.server.registry.take k).2 := by
    simp only [session, hp, Registry.take, hthere]
  rw [htake]
  refine h.visit ?_ ?_ (fun i hi => ?_) ?_ (by simp)
  · rw [Registry.ids_take]
    exact h.nodup.filter _
  · simp [Registry.ids_take, Place.Inside]
  · simp [Registry.ids_take, hi]
  · rw [census_visit_of_iff (by simp [hp, Place.Counted]), ← h.counted]
    rfl

theorem Sound.countDown (h : w.Sound) (hp : w.place k = .taken true) : (w.session k).Sound := by
  have hdown : w.session k = w.visit k .gone w.server.registry.countDown := by
    simp only [session, hp, if_true]
  rw [hdown]
  refine h.visit h.nodup ?_ (fun _ _ => .rfl) ?_ (by simp)
  · simpa [hp, Place.Inside] using h.listed k
  · have hsub := census_visit_sub (w := w) (k := k) (p := .gone)
      (r := w.server.registry.countDown) (P := Place.Counted) id (by rw [hp]; trivial)
    rw [← h.counted] at hsub
    -- the session itself is counted, so there is something to count down from
    generalize (w.visit k .gone w.server.registry.countDown).census Place.Counted = n at hsub ⊢
    cases n with
    | top => exact absurd hsub (by simp)
    | coe n =>
      have hcount : n + 1 = w.server.registry.count := by exact_mod_cast hsub
      simp [Registry.countDown, ← hcount]

theorem Sound.session (h : w.Sound) (k : Nat) : (w.session k).Sound := by
  cases hp : w.place k with
  | outside => exact h.put hp
  | put fresh =>
    cases fresh with
    | true => exact h.countUp hp
    | false => exact absurd hp (h.certain k).1
  | registered => exact h.take hp
  | taken found =>
    cases found with
    | true => exact h.countDown hp
    | false => exact absurd hp (h.certain k).2
  | gone => simpa only [World.session, hp] using h

theorem Sound.congr (h : w.Sound) (hregistry : later.server.registry = w.server.registry)
    (hplace : later.place = w.place) : later.Sound where
  nodup := hregistry ▸ h.nodup
  listed k := by rw [hregistry, hplace, h.listed]
  counted := by rw [hregistry, h.counted, census, census, hplace]
  certain k := by rw [hplace]; exact h.certain k

theorem stop_keeps (w : World ι κ ν) (j : Nat) :
    (w.stop j).server.registry = w.server.registry ∧ (w.stop j).place = w.place := by
  simp only [stop]
  split
  · exact ⟨rfl, rfl⟩
  · exact ⟨rfl, rfl⟩
  · exact ⟨rfl, rfl⟩
  · split_ifs <;> exact ⟨rfl, rfl⟩
  all_goals exact ⟨rfl, rfl⟩

theorem Sound.step (h : w.Sound) (e : Event ν) : (w.step e).Sound := by
  cases e with
  | listen place =>
    simp only [World.step]
    split_ifs
    · exact h
    · exact h.congr rfl rfl
  | session k => exact h.session k
  | stop j =>
    obtain ⟨hregistry, hplace⟩ := w.stop_keeps j
    exact h.congr hregistry hplace
  | expire j =>
    simp only [World.step, expire]
    split
    · exact h.congr rfl rfl
    · exact h

theorem Sound.run (h : w.Sound) (events : List (Event ν)) : (w.run events).Sound := by
  induction events generalizing w with
  | nil => exact h
  | cons e rest ih => exact ih (h.step e)

theorem Sound.size (h : w.Sound) : (w.server.registry.size : ℕ∞) = w.census Place.Inside := by
  have hset : {k | (w.place k).Inside} = ↑w.server.registry.ids.toFinset := by
    ext k
    simp [h.listed]
  rw [Registry.size_eq_length_ids, ← List.toFinset_card_of_nodup h.nodup, census, hset,
    Set.encard_coe_eq_coe_finsetCard]

/-- Registry and count differ by the sessions that have done one step of two. -/
theorem Sound.balance (h : w.Sound) :
    w.server.registry.size + w.census Place.Leaving =
      w.server.registry.count + w.census Place.Entering := by
  have hinside : w.census Place.Inside =
      w.census Place.Entering + w.census (· = .registered) := by
    rw [← census_or fun p hp => by rintro rfl; exact hp]
    exact congrArg w.census (funext fun p => propext Place.inside_iff)
  have hcounted : w.census Place.Counted =
      w.census Place.Leaving + w.census (· = .registered) := by
    rw [← census_or fun p hp => by rintro rfl; exact hp]
    exact congrArg w.census (funext fun p => propext Place.counted_iff)
  rw [h.size, h.counted, hinside, hcounted]
  ac_rfl

theorem Sound.drained_iff (h : w.Sound) :
    w.server.registry.drained = true ↔ ∀ k, ¬ (w.place k).Counted := by
  rw [← census_eq_zero_iff, ← h.counted, Registry.drained, decide_eq_true_iff, Nat.cast_eq_zero]

theorem Sound.entering_of_drained (h : w.Sound) (hdrained : w.server.registry.drained = true)
    (hk : w.server.registry.contains k = true) : (w.place k).Entering := by
  have hinside := (h.listed k).1 (Registry.contains_iff_mem_ids.1 hk)
  refine (Place.inside_iff.1 hinside).resolve_right fun hp => h.drained_iff.1 hdrained k ?_
  exact Place.counted_iff.2 (.inr hp)

theorem Sound.isEmpty_of_drained (h : w.Sound) (hdrained : w.server.registry.drained = true)
    (hnone : ∀ k, ¬ (w.place k).Entering) : w.server.registry.isEmpty = true := by
  refine Registry.isEmpty_iff_ids.2 fun k hk => hnone k ?_
  exact h.entering_of_drained hdrained (Registry.contains_iff_mem_ids.2 hk)

theorem stop_halt_eq_drained_iff (hj : w.halt j = .waiting) :
    (w.stop j).halt j = .drained ↔ w.server.registry.drained = true := by
  simp only [stop, hj]
  split_ifs with hdrained
  · simp [reach, hdrained]
  · simp [hj, hdrained]

end

/-- However the steps of sessions and stops are mixed, the count is zero exactly when no session is
counted, and whatever is registered then belongs to a session between the two steps of its
insertion. As long as no session stands there, nothing is registered when the count is zero. The
same holds at the moment at which a stop returns before its time is up. -/
theorem drained_leaves_entering (events : List (Event ν)) :
    let w := ({} : World ι κ ν).run events
    let r := w.server.registry
    (∀ k, r.contains k = true ↔ (w.place k).Inside) ∧
      r.size + w.census Place.Leaving = r.count + w.census Place.Entering ∧
      (r.drained = true ↔ ∀ k, ¬ (w.place k).Counted) ∧
      (r.drained = true → ∀ k, r.contains k = true → (w.place k).Entering) ∧
      (r.drained = true → (∀ k, ¬ (w.place k).Entering) → r.isEmpty = true) ∧
      ∀ j, w.halt j = .waiting → (w.stop j).halt j = .drained →
        (∀ k, r.contains k = true → (w.place k).Entering) ∧
          ((∀ k, ¬ (w.place k).Entering) → r.isEmpty = true) := by
  intro w r
  have hsound : w.Sound := sound_start.run events
  have hentering (hdrained : r.drained = true) (k : Nat) (hk : r.contains k = true) :
      (w.place k).Entering := hsound.entering_of_drained hdrained hk
  refine ⟨fun k => Registry.contains_iff_mem_ids.trans (hsound.listed k), hsound.balance,
    hsound.drained_iff, hentering, hsound.isEmpty_of_drained, fun j hj hreturned => ?_⟩
  have hdrained : r.drained = true := (stop_halt_eq_drained_iff hj).1 hreturned
  exact ⟨hentering hdrained, hsound.isEmpty_of_drained hdrained⟩

def crossing : List (Event Unit) :=
  [.listen (), .session 0, .session 0, .stop 0, .stop 0, .stop 0, .session 1, .session 0,
    .session 0]

theorem drained_leaves_entering_crossing :
    let w := ({} : World Unit Unit Unit).run crossing
    let later := ({} : World Unit Unit Unit).run (crossing ++ List.replicate 3 (.session 1))
    w.halt 0 = .waiting ∧ (w.stop 0).halt 0 = .drained ∧ w.server.registry.drained = true ∧
      (∀ k, w.server.registry.contains k = true → (w.place k).Entering) ∧
      w.server.registry.contains 1 = true ∧
      later.server.registry.drained = true ∧ (∀ k, ¬ (later.place k).Entering) ∧
      later.server.registry.isEmpty = true := by
  intro w later
  obtain ⟨-, -, -, -, -, hstop⟩ := drained_leaves_entering (ι := Unit) (κ := Unit) crossing
  obtain ⟨-, -, -, -, hempty, -⟩ := drained_leaves_entering (ι := Unit) (κ := Unit)
    (crossing ++ List.replicate 3 (.session 1))
  have hwaiting : w.halt 0 = .waiting := by decide
  have hreturned : (w.stop 0).halt 0 = .drained := by decide
  have hdrained : w.server.registry.drained = true := by decide
  have hlater : later.server.registry.drained = true := by decide
  have hnone : ∀ k, ¬ (later.place k).Entering
    | 0 => id
    | 1 => id
    | _ + 2 => id
  exact ⟨hwaiting, hreturned, hdrained, (hstop 0 hwaiting hreturned).1, by decide, hlater, hnone,
    hempty hlater hnone⟩

/-- The count is zero while a connection is registered, and a stop that waits returns with its time
not up. -/
theorem returns_with_one_registered :
    let w := ({} : World Unit Unit Unit).run crossing
    w.server.registry.drained = true ∧ w.server.registry.contains 1 = true ∧
      w.halt 0 = .waiting ∧ (w.stop 0).halt 0 = .drained ∧
      (w.stop 0).server.registry.contains 1 = true := by
  decide

end World
end Draining
end Parley
