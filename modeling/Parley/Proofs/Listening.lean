import Mathlib
import Parley.Server

/-!
# Listening and stopping at once

To listen and to stop both hold the lock of the server's place while they look at it and change it.
To listen lowers the flag under the lock; to stop raises it after the lock is given back. Calls take
their steps in any order, and sessions come and go in between.
-/

namespace Parley.Listening
variable {ω ι κ ν : Type}

inductive Op (ν : Type) where
  | listen (bound : Except Error ν)
  | stop

inductive Stage (ν : Type) where
  | idle
  | waiting (op : Op ν)
  | admitted (op : Op ν)
  | lowered (place : ν)
  /-- The call is through with the place and about to give the lock back. A stop goes on if the
  server was listening. -/
  | leaving (found : Bool)
  | vacated
  | raised
  | closing (rest : List Nat)
  | done

def Stage.Owns : Stage ν → Prop
  | .admitted _ | .lowered _ | .leaving _ => True
  | _ => False

structure World (ω ι κ ν : Type) where
  server : Server ι κ ν := {}
  lock : Option Nat := none
  call : Nat → Stage ν := fun _ => .idle
  connection : Nat → Connection ω ι κ := fun _ => { state := .opened }

inductive Event (ι κ ν : Type) where
  | begin (k : Nat) (op : Op ν)
  | advance (k : Nat)
  | install (info : Option ι) (request : Option κ)
  | enter (id : Nat)
  | heed (id : Nat)
  | leave (id : Nat)

namespace World

def reach (w : World ω ι κ ν) (k : Nat) (s : Stage ν) : World ω ι κ ν :=
  { w with call := Function.update w.call k s }

def put (w : World ω ι κ ν) (id : Nat) (c : Connection ω ι κ) : World ω ι κ ν :=
  { w with connection := Function.update w.connection id c }

def serve (w : World ω ι κ ν) (k : Nat) : Op ν → World ω ι κ ν
  | .listen bound =>
    if w.server.running.isSome then w.reach k (.leaving false)
    else match bound with
      | .ok place => { w.reach k (.lowered place) with server := w.server.lower }
      | .error _ => w.reach k (.leaving false)
  | .stop =>
    { w.reach k (.leaving w.server.vacate.1.isSome) with server := w.server.vacate.2 }

def advance (w : World ω ι κ ν) (k : Nat) : World ω ι κ ν :=
  match w.call k with
  | .waiting op => if w.lock = none then { w.reach k (.admitted op) with lock := some k } else w
  | .admitted op => w.serve k op
  | .lowered place => { w.reach k (.leaving false) with server := w.server.occupy place }
  | .leaving found => { w.reach k (if found then .vacated else .done) with lock := none }
  | .vacated => { w.reach k .raised with server := w.server.raise }
  | .raised => w.reach k (.closing w.server.registry.snapshot)
  | .closing (id :: rest) => (w.put id (w.connection id).close).reach k (.closing rest)
  | .closing [] => w.reach k .done
  | .idle | .done => w

def step (w : World ω ι κ ν) : Event ι κ ν → World ω ι κ ν
  | .begin k op =>
    match w.call k with
    | .idle => w.reach k (.waiting op)
    | _ => w
  | .advance k => w.advance k
  | .install info request => { w with server := { w.server with info, request } }
  | .enter id =>
    { w.put id (w.server.furnish { state := .opened }) with server := w.server.enter id }
  | .heed id => w.put id (w.server.heed (w.connection id))
  | .leave id => { w with server := w.server.leave id }

def run (w : World ω ι κ ν) (events : List (Event ι κ ν)) : World ω ι κ ν := events.foldl step w

def Listens (w : World ω ι κ ν) : Prop :=
  w.server.running ≠ none ∨ ∃ k place, w.call k = .lowered place

inductive Advances (w : World ω ι κ ν) (k : Nat) : World ω ι κ ν → Prop where
  | waits (h : w.call k = .idle ∨ w.call k = .done ∨ ∃ op, w.call k = .waiting op ∧ w.lock ≠ none) :
    Advances w k w
  | locked {op : Op ν} (h : w.call k = .waiting op) (free : w.lock = none) :
    Advances w k { w.reach k (.admitted op) with lock := some k }
  | refused {bound : Except Error ν} (h : w.call k = .admitted (.listen bound))
      (reason : w.server.running ≠ none ∨ ∃ e, bound = .error e) :
    Advances w k (w.reach k (.leaving false))
  | lowered {place : ν} (h : w.call k = .admitted (.listen (.ok place)))
      (vacant : w.server.running = none) :
    Advances w k { w.reach k (.lowered place) with server := w.server.lower }
  | occupied {place : ν} (h : w.call k = .lowered place) :
    Advances w k { w.reach k (.leaving false) with server := w.server.occupy place }
  | took (h : w.call k = .admitted .stop) :
    Advances w k { w.reach k (.leaving w.server.vacate.1.isSome) with server := w.server.vacate.2 }
  | unlocked {found : Bool} (h : w.call k = .leaving found) :
    Advances w k { w.reach k (if found then .vacated else .done) with lock := none }
  | raised (h : w.call k = .vacated) :
    Advances w k { w.reach k .raised with server := w.server.raise }
  | listed (h : w.call k = .raised) :
    Advances w k (w.reach k (.closing w.server.registry.snapshot))
  | closed {id : Nat} {rest : List Nat} (h : w.call k = .closing (id :: rest)) :
    Advances w k ((w.put id (w.connection id).close).reach k (.closing rest))
  | returned (h : w.call k = .closing []) : Advances w k (w.reach k .done)

theorem advances (w : World ω ι κ ν) (k : Nat) : Advances w k (w.advance k) := by
  cases hc : w.call k with
  | idle => simpa only [advance, hc] using Advances.waits (.inl hc)
  | waiting op =>
    by_cases hfree : w.lock = none
    · simpa only [advance, hc, if_pos hfree] using Advances.locked hc hfree
    · simpa only [advance, hc, if_neg hfree] using
        Advances.waits (.inr (.inr ⟨op, hc, hfree⟩))
  | admitted op =>
    cases op with
    | stop => simpa only [advance, hc, serve] using Advances.took hc
    | listen bound =>
      cases hr : w.server.running with
      | some place =>
        simpa [advance, hc, serve, hr] using Advances.refused hc (.inl (by simp [hr]))
      | none =>
        cases bound with
        | ok place => simpa [advance, hc, serve, hr] using Advances.lowered hc hr
        | error e => simpa [advance, hc, serve, hr] using Advances.refused hc (.inr ⟨e, rfl⟩)
  | lowered place => simpa only [advance, hc] using Advances.occupied hc
  | leaving found => simpa only [advance, hc] using Advances.unlocked hc
  | vacated => simpa only [advance, hc] using Advances.raised hc
  | raised => simpa only [advance, hc] using Advances.listed hc
  | closing rest =>
    cases rest with
    | nil => simpa only [advance, hc] using Advances.returned hc
    | cons id rest => simpa only [advance, hc] using Advances.closed hc
  | done => simpa only [advance, hc] using Advances.waits (.inr (.inl hc))

section
variable {w : World ω ι κ ν} {k : Nat} {s : Stage ν}

@[simp] theorem reach_call_self (w : World ω ι κ ν) (k : Nat) (s : Stage ν) :
    (w.reach k s).call k = s :=
  Function.update_self ..

theorem reach_call_of_ne {j : Nat} (h : j ≠ k) (s : Stage ν) : (w.reach k s).call j = w.call j :=
  Function.update_of_ne h ..

theorem call_of_reach {x : Stage ν} (hs : s ≠ x) {j : Nat} (hj : (w.reach k s).call j = x) :
    w.call j = x := by
  by_cases hjk : j = k
  · subst hjk
    rw [reach_call_self] at hj
    exact absurd hj hs
  · rwa [reach_call_of_ne hjk] at hj

def Locked (w : World ω ι κ ν) : Prop := ∀ k, (w.call k).Owns ↔ w.lock = some k

theorem Locked.eq (h : w.Locked) {j : Nat} (hj : (w.call j).Owns) (hk : (w.call k).Owns) : j = k :=
  Option.some.inj (((h j).1 hj).symm.trans ((h k).1 hk))

theorem Locked.reach (h : w.Locked) {lock : Option Nat} (hk : s.Owns ↔ lock = some k)
    (hother : ∀ j, j ≠ k → (w.lock = some j ↔ lock = some j)) (j : Nat) :
    ((w.reach k s).call j).Owns ↔ lock = some j := by
  by_cases hj : j = k
  · subst hj
    rwa [reach_call_self]
  · rw [reach_call_of_ne hj]
    exact (h j).trans (hother j hj)

theorem Locked.advance (h : w.Locked) (k : Nat) : (w.advance k).Locked := by
  have hkeep : ∀ {s : Stage ν}, (w.call k).Owns → s.Owns → ∀ j,
      ((w.reach k s).call j).Owns ↔ w.lock = some j :=
    fun hk hs => h.reach ⟨fun _ => (h k).1 hk, fun _ => hs⟩ fun _ _ => .rfl
  have hwithout : ∀ {s : Stage ν}, ¬ (w.call k).Owns → ¬ s.Owns → ∀ j,
      ((w.reach k s).call j).Owns ↔ w.lock = some j :=
    fun hk hs => h.reach ⟨fun hown => absurd hown hs, fun hl => absurd ((h k).2 hl) hk⟩
      fun _ _ => .rfl
  have hadvances := w.advances k
  generalize w.advance k = later at hadvances ⊢
  cases hadvances with
  | waits => exact h
  | locked hop free =>
    refine h.reach ⟨fun _ => rfl, fun _ => trivial⟩ fun j hj => ?_
    rw [free]
    exact ⟨nofun, fun heq => absurd (Option.some.inj heq).symm hj⟩
  | refused hop => exact hkeep (by rw [hop]; trivial) trivial
  | lowered hop => exact hkeep (by rw [hop]; trivial) trivial
  | occupied hop => exact hkeep (by rw [hop]; trivial) trivial
  | took hop => exact hkeep (by rw [hop]; trivial) trivial
  | unlocked hop =>
    rename_i found
    have hlock : w.lock = some k := (h k).1 (by rw [hop]; trivial)
    refine h.reach ⟨fun hs => ?_, nofun⟩ fun j hj => ?_
    · cases found <;> exact hs.elim
    · rw [hlock]
      exact ⟨fun heq => absurd (Option.some.inj heq).symm hj, nofun⟩
  | raised hop => exact hwithout (by rw [hop]; exact id) id
  | listed hop => exact hwithout (by rw [hop]; exact id) id
  | closed hop => exact hwithout (by rw [hop]; exact id) id
  | returned hop => exact hwithout (by rw [hop]; exact id) id

end

section
variable {w later : World ω ι κ ν} {k : Nat} {s : Stage ν}

/-- While the server listens the flag is down, and nobody is about to raise it. -/
structure Clear (w : World ω ι κ ν) : Prop where
  locked : w.Locked
  taken : ∀ k, w.call k = .leaving true → w.server.running = none
  flag : w.Listens → w.server.stopping = false
  quiet : w.Listens → ∀ k, w.call k ≠ .vacated

theorem clear_start : (({} : World ω ι κ ν)).Clear where
  locked k := ⟨fun h => h.elim, nofun⟩
  taken k h := by simp at h
  flag _ := rfl
  quiet _ k h := by simp at h

theorem Locked.not_listens (h : w.Locked) (hk : (w.call k).Owns)
    (hne : ∀ place, w.call k ≠ .lowered place) (hvacant : w.server.running = none) :
    ¬ w.Listens := by
  rintro (hrunning | ⟨j, place, hj⟩)
  · exact hrunning hvacant
  · obtain rfl := h.eq (k := k) (by rw [hj]; trivial) hk
    exact hne place hj

theorem listens_of_reach (hcall : later.call = (w.reach k s).call)
    (hrunning : later.server.running = w.server.running) (hs : ∀ place, s ≠ .lowered place)
    (h : later.Listens) : w.Listens := by
  rcases h with hplace | ⟨j, place, hj⟩
  · exact .inl (hrunning ▸ hplace)
  · rw [hcall] at hj
    exact .inr ⟨j, place, call_of_reach (hs place) hj⟩

theorem Clear.taken_of_reach (h : w.Clear) (hcall : later.call = (w.reach k s).call)
    (hrunning : later.server.running = w.server.running) (hs : s ≠ .leaving true) (j : Nat)
    (hj : later.call j = .leaving true) : later.server.running = none := by
  rw [hcall] at hj
  rw [hrunning]
  exact h.taken j (call_of_reach hs hj)

theorem Clear.reach (h : w.Clear) (hlocked : later.Locked)
    (hcall : later.call = (w.reach k s).call) (hserver : later.server = w.server)
    (hlowered : ∀ place, s ≠ .lowered place) (hleaving : s ≠ .leaving true)
    (hvacated : s ≠ .vacated) : later.Clear := by
  have hrunning : later.server.running = w.server.running := by rw [hserver]
  have hback : later.Listens → w.Listens := listens_of_reach hcall hrunning hlowered
  refine ⟨hlocked, h.taken_of_reach hcall hrunning hleaving, fun hlistens => ?_,
    fun hlistens j hj => ?_⟩
  · rw [hserver]
    exact h.flag (hback hlistens)
  · rw [hcall] at hj
    exact h.quiet (hback hlistens) j (call_of_reach hvacated hj)

theorem Clear.reach_of_not_listens (h : w.Clear) (hnot : ¬ w.Listens) (hlocked : later.Locked)
    (hcall : later.call = (w.reach k s).call)
    (hrunning : later.server.running = w.server.running)
    (hlowered : ∀ place, s ≠ .lowered place) (hleaving : s ≠ .leaving true) : later.Clear := by
  have hstill : ¬ later.Listens := fun hlistens =>
    hnot (listens_of_reach hcall hrunning hlowered hlistens)
  exact ⟨hlocked, h.taken_of_reach hcall hrunning hleaving, fun hl => absurd hl hstill,
    fun hl => absurd hl hstill⟩

def Lowers (w : World ω ι κ ν) : Event ι κ ν → Prop
  | .advance k => w.server.running = none ∧ ∃ place, w.call k = .admitted (.listen (.ok place))
  | _ => False

theorem Clear.advance (h : w.Clear) (k : Nat)
    (hapart : w.Lowers (.advance k) → ∀ j, w.call j ≠ .vacated) : (w.advance k).Clear := by
  have hlocked := h.locked.advance k
  have hadvances := w.advances k
  generalize w.advance k = later at hlocked hadvances ⊢
  cases hadvances with
  | waits => exact h
  | locked hop free => exact h.reach hlocked rfl rfl (by simp) (by simp) (by simp)
  | refused hop => exact h.reach hlocked rfl rfl (by simp) (by simp) (by simp)
  | lowered hop vacant =>
    refine ⟨hlocked, fun _ _ => vacant, fun _ => rfl, fun _ j hj => ?_⟩
    exact hapart ⟨vacant, _, hop⟩ j (call_of_reach (by simp) hj)
  | occupied hop =>
    have hlistens : w.Listens := .inr ⟨k, _, hop⟩
    refine ⟨hlocked, fun j hj => ?_, fun _ => h.flag hlistens, fun _ j hj => ?_⟩
    · -- only the call that has the lock can be leaving, and it found nothing
      obtain rfl := hlocked.eq (j := j) (k := k) (by rw [hj]; trivial) (by simp [Stage.Owns])
      simp at hj
    · exact h.quiet hlistens j (call_of_reach (by simp) hj)
  | took hop =>
    have hnot := hlocked.not_listens (k := k) (by simp [Stage.Owns]) (by simp) rfl
    exact ⟨hlocked, fun _ _ => rfl, fun hlistens => absurd hlistens hnot,
      fun hlistens => absurd hlistens hnot⟩
  | unlocked hop =>
    rename_i found
    cases found with
    | false => exact h.reach hlocked rfl rfl (by simp) (by simp) (by simp)
    | true =>
      have hnot : ¬ w.Listens :=
        h.locked.not_listens (by rw [hop]; trivial) (by simp [hop]) (h.taken k hop)
      exact h.reach_of_not_listens hnot hlocked rfl rfl (by simp) (by simp)
  | raised hop =>
    have hnot : ¬ w.Listens := fun hlistens => h.quiet hlistens k hop
    exact h.reach_of_not_listens hnot hlocked rfl rfl (by simp) (by simp)
  | listed hop => exact h.reach hlocked rfl rfl (by simp) (by simp) (by simp)
  | closed hop => exact h.reach hlocked rfl rfl (by simp) (by simp) (by simp)
  | returned hop => exact h.reach hlocked rfl rfl (by simp) (by simp) (by simp)

theorem Clear.congr (h : w.Clear) (hcall : later.call = w.call) (hlock : later.lock = w.lock)
    (hrunning : later.server.running = w.server.running)
    (hstopping : later.server.stopping = w.server.stopping) : later.Clear := by
  have hback : later.Listens → w.Listens := by
    rintro (hplace | ⟨j, place, hj⟩)
    · exact .inl (hrunning ▸ hplace)
    · exact .inr ⟨j, place, hcall ▸ hj⟩
  refine ⟨fun j => ?_, fun j hj => ?_, fun hlistens => ?_, fun hlistens j hj => ?_⟩
  · rw [hcall, hlock]
    exact h.locked j
  · rw [hrunning]
    exact h.taken j (hcall ▸ hj)
  · rw [hstopping]
    exact h.flag (hback hlistens)
  · exact h.quiet (hback hlistens) j (hcall ▸ hj)

theorem Clear.begin (h : w.Clear) (k : Nat) (op : Op ν) :
    (w.step (.begin k op : Event ι κ ν)).Clear := by
  cases hc : w.call k with
  | idle =>
    have hno : ¬ (w.call k).Owns := by simp [hc, Stage.Owns]
    simp only [step, hc]
    refine h.reach ?_ rfl rfl (by simp) (by simp) (by simp)
    exact h.locked.reach ⟨fun hs => hs.elim, fun hl => absurd ((h.locked k).2 hl) hno⟩
      fun _ _ => .rfl
  | _ => simpa only [step, hc] using h

theorem Clear.step (h : w.Clear) (e : Event ι κ ν)
    (hapart : w.Lowers e → ∀ j, w.call j ≠ .vacated) : (w.step e).Clear := by
  cases e with
  | begin k op => exact h.begin k op
  | advance k => exact h.advance k hapart
  | install info request => exact h.congr rfl rfl rfl rfl
  | enter id => exact h.congr rfl rfl rfl rfl
  | heed id => exact h.congr rfl rfl rfl rfl
  | leave id => exact h.congr rfl rfl rfl rfl

/-- No flag is lowered between the moment at which a stop gives the lock back and the one at which
it raises the flag. -/
def Apart (w : World ω ι κ ν) : List (Event ι κ ν) → Prop
  | [] => True
  | e :: rest => (w.Lowers e → ∀ j, w.call j ≠ .vacated) ∧ (w.step e).Apart rest

theorem Clear.run (h : w.Clear) {events : List (Event ι κ ν)} (hapart : w.Apart events) :
    (w.run events).Clear := by
  induction events generalizing w with
  | nil => exact h
  | cons e rest ih => exact ih (h.step e hapart.1) hapart.2

end

def Busy (w : World ω ι κ ν) (k : Nat) : Prop := w.call k ≠ .idle ∧ w.call k ≠ .done

theorem apart_of_solo {w : World ω ι κ ν} {events : List (Event ι κ ν)}
    (h : ∀ n j k, (w.run (events.take n)).Busy j → (w.run (events.take n)).Busy k → j = k) :
    w.Apart events := by
  induction events generalizing w with
  | nil => trivial
  | cons e rest ih =>
    refine ⟨fun hlowers j hj => ?_, ih fun n => h (n + 1)⟩
    cases e with
    | advance k =>
      obtain ⟨-, place, hk⟩ := hlowers
      have hbusy : w.Busy k := by simp [Busy, hk]
      obtain rfl : j = k := h 0 j k (by simp [Busy, run, hj]) hbusy
      simp [hk] at hj
    | _ => exact hlowers

def accepted (w : World ω ι κ ν) (id : Nat) : Connection ω ι κ :=
  ((w.step (.enter id)).step (.heed id : Event ι κ ν)).connection id

theorem accepted_state (w : World ω ι κ ν) (id : Nat) :
    (w.accepted id).state = if w.server.stopping then .closing else .opened := by
  have hstopping : (w.server.enter id).stopping = w.server.stopping := rfl
  simp only [accepted, step, put, Function.update_self, Server.heed, hstopping]
  split_ifs <;> rfl

/-- As long as no listen lowers the flag while a stop is about to raise it, a server that listens
has its flag down, and a session that begins then is not closed. -/
theorem listens_with_flag_down (events : List (Event ι κ ν))
    (h : ({} : World ω ι κ ν).Apart events) :
    let w := ({} : World ω ι κ ν).run events
    w.server.running ≠ none →
      w.server.stopping = false ∧ ∀ id, (w.accepted id).state = .opened := by
  intro w hrunning
  have hflag : w.server.stopping = false := (clear_start.run h).flag (.inl hrunning)
  refine ⟨hflag, fun id => ?_⟩
  rw [accepted_state, hflag]
  rfl

def steps (k : Nat) (op : Op ν) (n : Nat) : List (Event ι κ ν) :=
  .begin k op :: List.replicate n (.advance k)

def timely : List (Event Unit Unit Unit) :=
  steps 0 (.listen (.ok ())) 4 ++ steps 1 .stop 4 ++ steps 2 (.listen (.ok ())) 4

theorem listens_with_flag_down_timely :
    let w := ({} : World Nat Unit Unit Unit).run timely
    ({} : World Nat Unit Unit Unit).Apart timely ∧ w.server.running ≠ none ∧
      w.server.stopping = false ∧ ∀ id, (w.accepted id).state = .opened := by
  intro w
  have hfirst : ∀ j, (({} : World Nat Unit Unit Unit).run (timely.take 2)).call j ≠ .vacated
    | 0 => nofun
    | _ + 1 => nofun
  have hsecond : ∀ j, (({} : World Nat Unit Unit Unit).run (timely.take 12)).call j ≠ .vacated
    | 0 => nofun
    | 1 => nofun
    | 2 => nofun
    | _ + 3 => nofun
  -- the flag is lowered twice, by the second step of each listen
  have hapart : ({} : World Nat Unit Unit Unit).Apart timely :=
    ⟨nofun, nofun, fun _ => hfirst, nofun, nofun, nofun, nofun, nofun, nofun, nofun, nofun, nofun,
      fun _ => hsecond, nofun, nofun, trivial⟩
  have hrunning : w.server.running ≠ none := by decide
  exact ⟨hapart, hrunning, listens_with_flag_down timely hapart hrunning⟩

def overtaken : List (Event Unit Unit Unit) :=
  steps 0 (.listen (.ok ())) 4 ++ steps 1 .stop 3 ++ steps 2 (.listen (.ok ())) 4 ++
    List.replicate 3 (.advance 1)

/-- Every call is over, the server listens, and the flag is up: whoever connects is closed. -/
theorem flag_up_when_overtaken :
    let w := ({} : World Nat Unit Unit Unit).run overtaken
    (∀ k, w.call k = .idle ∨ w.call k = .done) ∧ w.server.running = some () ∧
      w.server.stopping = true ∧ ∀ id, (w.accepted id).state = .closing := by
  intro w
  have hup : w.server.stopping = true := by decide
  refine ⟨fun k => ?_, by decide, hup, fun id => ?_⟩
  · match k with
    | 0 => exact .inr rfl
    | 1 => exact .inr rfl
    | 2 => exact .inr rfl
    | k + 3 => exact .inl rfl
  · rw [accepted_state, hup]
    rfl

end World
end Parley.Listening
