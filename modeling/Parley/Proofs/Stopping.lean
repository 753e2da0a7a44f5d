import Mathlib
import Parley.Proofs.Connection.Registry
import Parley.Proofs.Pump
import Parley.Server

/-!
# Stopping a server

Every session registers its connection and then reads the flag; a stop raises the flag and then
reads the registry. Whichever comes first, one of the two sees the other. Sessions and stops take
their steps in any order, and the traffic of the sessions goes on in between.
-/

namespace Parley

namespace Stopping
variable {ω ι κ ν ε : Type}

inductive Place where
  | outside
  | entered
  | looked (stopping : Bool)
  | serving
  | left
deriving DecidableEq

def Place.Inside : Place → Prop
  | .entered | .looked _ | .serving => True
  | .outside | .left => False

/-- The look at the flag is over, and nothing will come of it any more. -/
def Place.Passed : Place → Prop
  | .looked stopping => stopping = false
  | .serving | .left => True
  | .outside | .entered => False

instance : (p : Place) → Decidable p.Passed
  | .looked stopping => inferInstanceAs (Decidable (stopping = false))
  | .serving | .left => .isTrue trivial
  | .outside | .entered => .isFalse id

theorem Place.Passed.ne_outside {p : Place} (h : p.Passed) : p ≠ .outside := by
  rintro rfl
  exact h

/-- Anyone may use a connection that is registered, or was. The pump runs last. -/
def Place.takes : Place → Pump.Event ω ι κ ε → Bool
  | .outside, _ => false
  | .serving, _ => true
  | _, .use _ => true
  | _, _ => false

structure Visit (ω ι κ : Type) where
  place : Place := .outside
  line : Pump.Line ω ι κ
  asked : Bool := false

def Visit.state (v : Visit ω ι κ) : Lifecycle := v.line.connection.state

def Visit.shut (v : Visit ω ι κ) : Visit ω ι κ :=
  { v with line := v.line.use .close, asked := true }

inductive Halt where
  | idle
  | needless
  | vacated
  | raised
  | closing (rest : List Nat)
  | done
deriving DecidableEq

/-- Sessions and stops have numbers, and the connection of a session has its number as its id. One
that has not begun may never come. -/
structure World (ω ι κ ν : Type) where
  server : Server ι κ ν := {}
  visit : Nat → Visit ω ι κ := fun _ => { line := .start { state := .opened } }
  halt : Nat → Halt := fun _ => .idle

inductive Event (ω ι κ ν ε : Type) where
  | listen (place : ν)
  | install (info : Option ι) (request : Option κ)
  | session (k : Nat)
  | traffic (k : Nat) (e : Pump.Event ω ι κ ε)
  | stop (j : Nat)

def Event.Listens : Event ω ι κ ν ε → Prop
  | .listen _ => True
  | _ => False

namespace World

def put (w : World ω ι κ ν) (k : Nat) (v : Visit ω ι κ) : World ω ι κ ν :=
  { w with visit := Function.update w.visit k v }

def reach (w : World ω ι κ ν) (j : Nat) (h : Halt) : World ω ι κ ν :=
  { w with halt := Function.update w.halt j h }

def listen (w : World ω ι κ ν) (place : ν) : World ω ι κ ν :=
  if w.server.running.isSome then w else { w with server := w.server.lower.occupy place }

def session (w : World ω ι κ ν) (k : Nat) : World ω ι κ ν :=
  let v := w.visit k
  match v.place with
  | .outside =>
    let fresh := w.server.furnish { state := .opened }
    { w.put k { place := .entered, line := .start fresh } with server := w.server.enter k }
  | .entered => w.put k { v with place := .looked w.server.stopping }
  | .looked stopping => w.put k { if stopping then v.shut else v with place := .serving }
  | .serving =>
    if v.line.phase = .done then
      { w.put k { v with place := .left } with server := w.server.leave k }
    else w
  | .left => w

def traffic (w : World ω ι κ ν) (k : Nat) (e : Pump.Event ω ι κ ε) : World ω ι κ ν :=
  let v := w.visit k
  if v.place.takes e then w.put k { v with line := v.line.step e } else w

def stop (w : World ω ι κ ν) (j : Nat) : World ω ι κ ν :=
  match w.halt j with
  | .idle =>
    { w.reach j (if w.server.vacate.1.isSome then .vacated else .needless) with
      server := w.server.vacate.2 }
  | .vacated => { w.reach j .raised with server := w.server.raise }
  | .raised => w.reach j (.closing w.server.registry.snapshot)
  | .closing [] => w.reach j .done
  | .closing (k :: rest) => (w.put k (w.visit k).shut).reach j (.closing rest)
  | .needless | .done => w

def step (w : World ω ι κ ν) : Event ω ι κ ν ε → World ω ι κ ν
  | .listen place => w.listen place
  | .install info request => { w with server := { w.server with info, request } }
  | .session k => w.session k
  | .traffic k e => w.traffic k e
  | .stop j => w.stop j

def run (w : World ω ι κ ν) (events : List (Event ω ι κ ν ε)) : World ω ι κ ν := events.foldl step w

end World

def Visit.Answered (v : Visit ω ι κ) : Prop := v.asked = true ∨ v.place = .left

inductive Changes (stopping : Bool) (v : Visit ω ι κ) : Visit ω ι κ → Prop where
  | same : Changes stopping v v
  | entered (c : Connection ω ι κ) (h : v.place = .outside) :
    Changes stopping v { place := .entered, line := .start c }
  | looked (h : v.place = .entered) : Changes stopping v { v with place := .looked stopping }
  | acted (saw : Bool) (h : v.place = .looked saw) :
    Changes stopping v { if saw then v.shut else v with place := .serving }
  | left (h : v.place = .serving) (done : v.line.phase = .done) :
    Changes stopping v { v with place := .left }
  | moved (e : Pump.Event ω ι κ ε) : Changes stopping v { v with line := v.line.step e }
  | shut : Changes stopping v v.shut

namespace World
variable {w : World ω ι κ ν} {j k m : Nat}

@[simp] theorem put_visit_self (w : World ω ι κ ν) (k : Nat) (v : Visit ω ι κ) :
    (w.put k v).visit k = v :=
  Function.update_self ..

@[simp] theorem reach_halt_self (w : World ω ι κ ν) (j : Nat) (h : Halt) :
    (w.reach j h).halt j = h :=
  Function.update_self ..

theorem put_visit_of_ne (h : k ≠ m) (v : Visit ω ι κ) : (w.put m v).visit k = w.visit k :=
  Function.update_of_ne h ..

theorem session_visit_of_ne (h : k ≠ m) : (w.session m).visit k = w.visit k := by
  simp only [session]
  split
  · exact put_visit_of_ne h _
  · exact put_visit_of_ne h _
  · exact put_visit_of_ne h _
  · split_ifs
    · exact put_visit_of_ne h _
    · rfl
  · rfl

theorem session_changes (w : World ω ι κ ν) (k : Nat) :
    Changes (ε := ε) w.server.stopping (w.visit k) ((w.session k).visit k) := by
  cases hp : (w.visit k).place with
  | outside => simpa [session, hp] using Changes.entered _ hp
  | entered => simpa [session, hp] using Changes.looked hp
  | looked saw => simpa [session, hp] using Changes.acted saw hp
  | serving =>
    by_cases hdone : (w.visit k).line.phase = .done
    · simpa [session, hp, hdone] using Changes.left hp hdone
    · simpa [session, hp, hdone] using Changes.same
  | left => simpa [session, hp] using Changes.same

theorem stop_changes (w : World ω ι κ ν) (j k : Nat) (stopping : Bool) :
    Changes (ε := ε) stopping (w.visit k) ((w.stop j).visit k) := by
  cases hh : w.halt j with
  | closing rest =>
    cases rest with
    | nil => simpa [stop, hh, reach] using Changes.same
    | cons m rest =>
      simp only [stop, hh, reach]
      by_cases hk : k = m
      · subst k
        simpa using Changes.shut
      · rw [put_visit_of_ne hk]
        exact .same
  | _ => simpa [stop, hh, reach] using Changes.same

theorem step_changes (w : World ω ι κ ν) (e : Event ω ι κ ν ε) (k : Nat) :
    Changes (ε := ε) w.server.stopping (w.visit k) ((w.step e).visit k) := by
  cases e with
  | listen place =>
    simp only [step, listen]
    split_ifs <;> exact .same
  | install info request => exact .same
  | session m =>
    by_cases hk : k = m
    · subst k
      exact w.session_changes m
    · rw [step, session_visit_of_ne hk]
      exact .same
  | traffic m e =>
    simp only [step, traffic]
    split_ifs with htakes
    · by_cases hk : k = m
      · subst k
        simpa using Changes.moved e
      · rw [put_visit_of_ne hk]
        exact .same
    · exact .same
  | stop j => exact w.stop_changes j k _

end World

namespace Visit

structure Sound (v : Visit ω ι κ) : Prop where
  asked : v.asked = true → .closing ≤ v.state
  left : v.place = .left → v.state = .closed
  line : v.line.Settled

theorem Sound.moved {v : Visit ω ι κ} (h : v.Sound) (e : Pump.Event ω ι κ ε) :
    { v with line := v.line.step e }.Sound := by
  have hle : v.state ≤ (v.line.step e).connection.state := v.line.state_le_step e
  refine ⟨fun ha => Lifecycle.le_trans (h.asked ha) hle, fun hl => ?_, h.line.step e⟩
  rw [h.left hl] at hle
  exact Lifecycle.le_antisymm (Lifecycle.le_closed _) hle

theorem Sound.shut {v : Visit ω ι κ} (h : v.Sound) : v.shut.Sound :=
  have hmoved := h.moved (.use .close : Pump.Event ω ι κ Unit)
  ⟨fun _ => v.line.connection.closing_le_close, hmoved.left, hmoved.line⟩

theorem Sound.place {v : Visit ω ι κ} (h : v.Sound) {p : Place}
    (hp : p = .left → v.state = .closed) : { v with place := p }.Sound :=
  ⟨h.asked, hp, h.line⟩

theorem Answered.not_opened {v : Visit ω ι κ} (h : v.Sound) (ha : v.Answered) :
    v.state ≠ .opened := by
  intro hopened
  rcases ha with hasked | hleft
  · have hle := h.asked hasked
    rw [hopened] at hle
    exact absurd hle (by decide)
  · have hclosed := h.left hleft
    rw [hopened] at hclosed
    exact absurd hclosed (by decide)

end Visit

namespace Changes
variable {stopping : Bool} {v v' : Visit ω ι κ}

theorem sound (h : Changes (ε := ε) stopping v v') (hv : v.Sound) : v'.Sound := by
  cases h with
  | same => exact hv
  | entered c => exact ⟨by simp, by simp, fun h => by simp [Pump.Line.start] at h⟩
  | looked => exact hv.place (by simp)
  | acted saw =>
    cases saw with
    | true => exact hv.shut.place (by simp)
    | false => exact hv.place (by simp)
  | left h done => exact hv.place fun _ => (hv.line done).1
  | moved e => exact hv.moved e
  | shut => exact hv.shut

theorem answered (h : Changes (ε := ε) stopping v v') (hplace : v.place ≠ .outside)
    (hv : v.Answered) : v'.Answered := by
  cases h with
  | same => exact hv
  | entered c h => exact absurd h hplace
  | looked h => exact hv.imp_right fun hl => by simp [h] at hl
  | acted saw h =>
    cases saw with
    | true => exact .inl rfl
    | false => exact hv.imp_right fun hl => by simp [h] at hl
  | left => exact .inr rfl
  | moved e => exact hv
  | shut => exact .inl rfl

theorem passed (h : Changes (ε := ε) true v v') (hp : v'.place.Passed) :
    v.place.Passed ∨ v'.Answered := by
  cases h with
  | entered c => exact hp.elim
  | looked => exact absurd hp (by simp [Place.Passed])
  | acted saw h =>
    cases saw with
    | true => exact .inr (.inl rfl)
    | false =>
      rw [h]
      exact .inl rfl
  | left h =>
    rw [h]
    exact .inl trivial
  | shut => exact .inr (.inl rfl)
  | _ => exact .inl hp

end Changes

namespace World
variable {w : World ω ι κ ν} {j k m : Nat} {e : Event ω ι κ ν ε}

structure Sound (w : World ω ι κ ν) : Prop where
  visit : ∀ k, (w.visit k).Sound
  listed : ∀ k, (w.visit k).place.Inside → (k, k) ∈ w.server.registry.live

theorem sound_start : ({} : World ω ι κ ν).Sound :=
  ⟨fun _ => ⟨by simp, by simp, fun h => by simp [Pump.Line.start] at h⟩, fun _ h => h.elim⟩

theorem put_place {v : Visit ω ι κ} (k : Nat) (h : v.place = (w.visit m).place) :
    ((w.put m v).visit k).place = (w.visit k).place := by
  by_cases hk : k = m
  · subst k
    rw [put_visit_self, h]
  · rw [put_visit_of_ne hk]

theorem stop_place (w : World ω ι κ ν) (j k : Nat) :
    ((w.stop j).visit k).place = (w.visit k).place := by
  cases hh : w.halt j with
  | closing rest =>
    cases rest with
    | nil => simp [stop, hh, reach]
    | cons m rest =>
      simp only [stop, hh, reach]
      exact put_place k rfl
  | _ => simp [stop, hh, reach]

theorem stop_registry (w : World ω ι κ ν) (j : Nat) :
    (w.stop j).server.registry = w.server.registry := by
  simp only [stop]
  split <;> rfl

theorem listed_session (h : w.Sound) (m k : Nat) (hin : ((w.session m).visit k).place.Inside) :
    (k, k) ∈ (w.session m).server.registry.live := by
  by_cases hk : k = m
  · subst k
    revert hin
    cases hp : (w.visit m).place with
    | outside =>
      intro _
      simpa [session, hp, Server.enter] using Registry.mem_insert_self _ m m
    | entered =>
      intro _
      simpa [session, hp, put] using h.listed m (by rw [hp]; trivial)
    | looked saw =>
      intro _
      simpa [session, hp, put] using h.listed m (by rw [hp]; trivial)
    | serving =>
      by_cases hdone : (w.visit m).line.phase = .done
      · simp [session, hp, hdone, Place.Inside]
      · intro _
        simpa [session, hp, hdone] using h.listed m (by rw [hp]; trivial)
    | left => simp [session, hp, Place.Inside]
  · rw [session_visit_of_ne hk] at hin
    have hlive := h.listed k hin
    simp only [session]
    split
    · exact Registry.mem_insert_of_ne hlive hk m
    · exact hlive
    · exact hlive
    · split_ifs
      · exact Registry.mem_remove_of_ne hlive hk
      · exact hlive
    · exact hlive

theorem Sound.step (h : w.Sound) (e : Event ω ι κ ν ε) : (w.step e).Sound := by
  refine ⟨fun k => (w.step_changes e k).sound (h.visit k), fun k hin => ?_⟩
  have hsame : (w.step e).server.registry = w.server.registry →
      ((w.step e).visit k).place = (w.visit k).place →
      (k, k) ∈ (w.step e).server.registry.live := by
    intro hr hp
    rw [hr]
    exact h.listed k (hp ▸ hin)
  cases e with
  | session m => exact listed_session h m k hin
  | install info request => exact hsame rfl rfl
  | stop j => exact hsame (w.stop_registry j) (w.stop_place j k)
  | listen place =>
    simp only [World.step, listen] at hsame ⊢
    split_ifs at hsame ⊢ <;> exact hsame rfl rfl
  | traffic m e =>
    simp only [World.step, traffic] at hsame ⊢
    split_ifs at hsame ⊢
    · exact hsame rfl (put_place k rfl)
    · exact hsame rfl rfl

theorem sound_run (h : w.Sound) (events : List (Event ω ι κ ν ε)) : (w.run events).Sound := by
  induction events generalizing w with
  | nil => exact h
  | cons e rest ih => exact ih (h.step e)

/-- How a stop stands once it has raised the flag, and with it the sessions that have passed. -/
inductive Heard (w : World ω ι κ ν) : Halt → Prop where
  | raised : Heard w .raised
  | closing {rest : List Nat}
      (h : ∀ k, (w.visit k).place.Passed → (w.visit k).Answered ∨ k ∈ rest) :
    Heard w (.closing rest)
  | done (h : ∀ k, (w.visit k).place.Passed → (w.visit k).Answered) : Heard w .done

structure Heeded (w : World ω ι κ ν) (j : Nat) : Prop where
  sound : w.Sound
  flag : w.server.stopping = true
  heard : Heard w (w.halt j)

theorem passed_step (hflag : w.server.stopping = true) {P : Prop}
    (h : (w.visit k).place.Passed → (w.visit k).Answered ∨ P) (e : Event ω ι κ ν ε)
    (hp : ((w.step e).visit k).place.Passed) : ((w.step e).visit k).Answered ∨ P := by
  have hchanges := w.step_changes e k
  rw [hflag] at hchanges
  rcases hchanges.passed hp with hpassed | hanswered
  · exact (h hpassed).imp_left (hchanges.answered hpassed.ne_outside)
  · exact .inl hanswered

theorem Heard.step {h : Halt} (hh : Heard w h) (hflag : w.server.stopping = true)
    (e : Event ω ι κ ν ε) : Heard (w.step e) h := by
  cases hh with
  | raised => exact .raised
  | closing h => exact .closing fun k => passed_step hflag (h k) e
  | done h =>
    refine .done fun k hp => ?_
    have hstep := passed_step (P := False) hflag (fun hp => .inl (h k hp)) e hp
    exact hstep.resolve_right id

theorem Sound.passed (h : w.Sound) (hp : (w.visit k).place.Passed) :
    (w.visit k).Answered ∨ k ∈ w.server.registry.snapshot := by
  have hlisted : (w.visit k).place.Inside → k ∈ w.server.registry.snapshot := fun hin =>
    List.mem_map.2 ⟨(k, k), h.listed k hin, rfl⟩
  cases hplace : (w.visit k).place with
  | outside => exact absurd hplace hp.ne_outside
  | left => exact .inl (.inr hplace)
  | entered => exact .inr (hlisted (by rw [hplace]; trivial))
  | looked saw => exact .inr (hlisted (by rw [hplace]; trivial))
  | serving => exact .inr (hlisted (by rw [hplace]; trivial))

theorem Heeded.stop (h : w.Heeded j) : Heard (w.stop j) ((w.stop j).halt j) := by
  have hstep := h.heard.step h.flag (.stop j : Event ω ι κ ν Unit)
  have hheard := h.heard
  generalize hh : w.halt j = now at hstep hheard
  cases hheard with
  | raised =>
    have heq : w.stop j = w.reach j (.closing w.server.registry.snapshot) := by
      simp only [World.stop, hh]
    -- whoever is not on the list registers later and finds the flag up
    rw [heq, reach_halt_self]
    exact .closing fun k => h.sound.passed
  | @closing rest hrest =>
    cases rest with
    | nil =>
      have heq : w.stop j = w.reach j .done := by simp only [World.stop, hh]
      rw [heq, reach_halt_self]
      exact .done fun k hp => (hrest k hp).resolve_right List.not_mem_nil
    | cons m rest =>
      have heq : w.stop j = (w.put m (w.visit m).shut).reach j (.closing rest) := by
        simp only [World.stop, hh]
      have hlater : ∀ k, ((w.stop j).visit k).place.Passed →
          ((w.stop j).visit k).Answered ∨ k ∈ m :: rest := by
        cases hstep with
        | closing h => exact h
      rw [heq] at hlater ⊢
      rw [reach_halt_self]
      refine .closing fun k hp => ?_
      rcases hlater k hp with hanswered | hmem
      · exact .inl hanswered
      · rcases List.mem_cons.1 hmem with rfl | hmem
        · exact .inl (.inl (by simp [reach, Visit.shut]))
        · exact .inr hmem
  | done hall =>
    have heq : w.stop j = w := by simp only [World.stop, hh]
    rw [heq, hh]
    exact .done hall

theorem flag_step (h : w.server.stopping = true) (hquiet : ¬ e.Listens) :
    (w.step e).server.stopping = true := by
  cases e with
  | listen place => exact absurd trivial hquiet
  | install info request => exact h
  | session m =>
    simp only [step, session]
    split
    · exact h
    · exact h
    · exact h
    · split_ifs <;> exact h
    · exact h
  | traffic m e =>
    simp only [step, traffic]
    split_ifs <;> exact h
  | stop i =>
    simp only [step, stop]
    split <;> first | exact h | rfl

theorem halt_step (w : World ω ι κ ν) (h : e ≠ .stop j) : (w.step e).halt j = w.halt j := by
  cases e with
  | listen place =>
    simp only [step, listen]
    split_ifs <;> rfl
  | install info request => rfl
  | session m =>
    simp only [step, session]
    split
    · rfl
    · rfl
    · rfl
    · split_ifs <;> rfl
    · rfl
  | traffic m e =>
    simp only [step, traffic]
    split_ifs <;> rfl
  | stop i =>
    have hne : j ≠ i := by
      rintro rfl
      exact h rfl
    simp only [step, stop]
    split <;> first | exact Function.update_of_ne hne .. | rfl

theorem Heeded.step (h : w.Heeded j) (hquiet : ¬ e.Listens) : (w.step e).Heeded j := by
  refine ⟨h.sound.step e, flag_step h.flag hquiet, ?_⟩
  by_cases he : e = .stop j
  · subst e
    exact h.stop
  · rw [w.halt_step he]
    exact h.heard.step h.flag e

theorem heeded_run (h : w.Heeded j) {events : List (Event ω ι κ ν ε)}
    (hquiet : ∀ e ∈ events, ¬ e.Listens) : (w.run events).Heeded j := by
  induction events generalizing w with
  | nil => exact h
  | cons e rest ih =>
    obtain ⟨hfirst, hrest⟩ := List.forall_mem_cons.1 hquiet
    exact ih (h.step hfirst) hrest

theorem Sound.heeded (h : w.Sound) (hh : w.halt j = .vacated) : (w.stop j).Heeded j := by
  have heq : w.stop j = { w.reach j .raised with server := w.server.raise } := by
    simp only [stop, hh]
  refine ⟨h.step (.stop j : Event ω ι κ ν Unit), by rw [heq]; rfl, ?_⟩
  have hraised : (w.stop j).halt j = .raised := by
    rw [heq]
    exact w.reach_halt_self j .raised
  rw [hraised]
  exact .raised

theorem session_heed (w : World ω ι κ ν) (h : (w.visit k).place = .entered) :
    (((w.session k).session k).visit k).line.connection =
      w.server.heed (w.visit k).line.connection := by
  have hlooked :
      (w.session k).visit k = { w.visit k with place := .looked w.server.stopping } := by
    simp [session, h]
  have hacted : (((w.session k).session k).visit k) =
      { if w.server.stopping then (w.visit k).shut else w.visit k with place := .serving } := by
    rw [session]
    simp only [hlooked, put_visit_self]
    cases w.server.stopping <;> rfl
  rw [hacted, Server.heed]
  cases w.server.stopping <;> rfl

/-- Once a stop has raised the flag and closed what was registered then, with no call of listen in
between, every session that has passed its look at the flag is past being open: the session or a
stop has asked for the close, unless the session was over by itself. -/
theorem none_slips_past (before after : List (Event ω ι κ ν ε)) (j k : Nat) :
    let w := ({} : World ω ι κ ν).run before
    let later := (w.stop j).run after
    w.halt j = .vacated → (∀ e ∈ after, ¬ e.Listens) → later.halt j = .done →
      (later.visit k).place.Passed →
      (later.visit k).state ≠ .opened ∧
        ((later.visit k).asked = true ∨
          (later.visit k).place = .left ∧ (later.visit k).state = .closed) := by
  intro w later hvacated hquiet hdone hpassed
  have hsound : w.Sound := sound_run sound_start before
  have hheeded : later.Heeded j := heeded_run (hsound.heeded hvacated) hquiet
  have hheard := hheeded.heard
  rw [hdone] at hheard
  have hanswered : (later.visit k).Answered := by
    cases hheard with
    | done h => exact h k hpassed
  have hvisit : (later.visit k).Sound := hheeded.sound.visit k
  exact ⟨hanswered.not_opened hvisit, hanswered.imp_right fun hl => ⟨hl, hvisit.left hl⟩⟩

def arrivals : List (Event Unit Unit Unit Unit Unit) :=
  [.listen (), .session 0, .session 0, .session 0, .session 1, .session 1, .session 2, .stop 0]

def departures : List (Event Unit Unit Unit Unit Unit) :=
  [.stop 0, .session 3, .stop 0, .stop 0, .stop 0, .stop 0, .session 1, .session 3, .session 3]

theorem none_slips_past_late :
    let w := ({} : World Unit Unit Unit Unit).run arrivals
    let later := (w.stop 0).run departures
    w.halt 0 = .vacated ∧ (∀ e ∈ departures, ¬ e.Listens) ∧ later.halt 0 = .done ∧
      ∀ k ∈ [0, 1, 3], (later.visit k).place.Passed ∧ (later.visit k).state ≠ .opened ∧
        ((later.visit k).asked = true ∨
          (later.visit k).place = .left ∧ (later.visit k).state = .closed) := by
  intro w later
  have hvacated : w.halt 0 = .vacated := by decide
  have hquiet : ∀ e ∈ departures, ¬ e.Listens := by simp [departures, Event.Listens]
  have hdone : later.halt 0 = .done := by decide
  have hpassed : ∀ k ∈ [0, 1, 3], (later.visit k).place.Passed := by decide
  refine ⟨hvacated, hquiet, hdone, fun k hk => ⟨hpassed k hk, ?_⟩⟩
  exact none_slips_past arrivals departures 0 k hvacated hquiet hdone (hpassed k hk)

example :
    let w := ((({} : World Unit Unit Unit Unit).run arrivals).stop 0).run departures
    ((w.session 4).visit 4).state = .opened := by
  decide

end World
end Stopping
end Parley
