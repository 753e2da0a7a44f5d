import Mathlib
import Parley.Proofs.Client

/-!
# How the driving task settles its connection

While its client dials, the task waits for the handshake and for a close at once, and goes on with
either of the two that has come. A close that comes later is found when the connection is to be
marked open. However it goes on, the connection is closed in the end, and it has been open only if
its pump was to run.
-/

namespace Parley

section
variable {ω ι κ : Type} {c : Connection ω ι κ}

theorem Connection.close_state (c : Connection ω ι κ) :
    c.close.state = if c.state = .closed then .closed else .closing := by
  unfold close
  cases hs : c.state <;> simp [hs]

theorem Connection.close_state_of_closing (h : .closing ≤ c.state) : c.close.state = c.state := by
  unfold close
  cases hs : c.state with
  | connecting => exact absurd (hs ▸ h) (by decide)
  | opened => exact absurd (hs ▸ h) (by decide)
  | closing => exact hs
  | closed => exact hs

def Pump.Use.asksClose : Pump.Use ω ι κ → Bool
  | .close => true
  | _ => false

theorem Pump.use_state (c : Connection ω ι κ) (u : Pump.Use ω ι κ) :
    (Pump.use c u).state = if u.asksClose then c.close.state else c.state := by
  cases u with
  | ask body waiter => exact c.sendRequest_state body waiter
  | tell body => exact c.sendInfo_state body
  | answer e => exact c.post_state _
  | setInfo handler => rfl
  | setRequest handler => rfl
  | close => rfl

end

namespace Client
variable {ω σ ι κ : Type}

def Event.asksClose : Event ω ι κ → Bool
  | .use u => u.asksClose
  | _ => false

def Stage.early : Stage → Bool
  | .dialing | .dialed _ => true
  | _ => false

def Stage.left : Stage → Nat
  | .dialing => 3
  | .dialed _ => 2
  | .pumping | .unwanted => 1
  | .finished => 0

theorem Stage.left_le (s : Stage) : s.left ≤ 3 := by
  cases s <;> simp [left]

def Drive.both : Client Unit Unit Unit :=
  { settings := (), info := some (), request := some () }

inductive Arm where
  | handshake
  | closing

structure Task (ω ι κ : Type) where
  drive : Drive ω ι κ
  handshake : Option (Except Error Unit) := none
  /-- A close was asked for while the connection was still to be marked open. -/
  asked : Bool := false
  pumped : Bool := false
  opened : Bool := false

namespace Task

inductive Event (ω ι κ : Type) where
  | handshake (r : Except Error Unit)
  | select (a : Arm)
  | other (e : Client.Event ω ι κ)

def start (c : Client σ ι κ) : Task ω ι κ := { drive := .start c }

def ready? (t : Task ω ι κ) : Arm → Option Bool
  | .handshake => t.handshake.map Except.isOk
  | .closing => if t.drive.connection.state.ending then some false else none

def record (t : Task ω ι κ) (d : Drive ω ι κ) : Task ω ι κ :=
  { t with
    drive := d
    pumped := t.pumped || d.stage = .pumping
    opened := t.opened || d.connection.state = .opened }

def other (t : Task ω ι κ) (e : Client.Event ω ι κ) : Task ω ι κ :=
  { t with asked := t.asked || (e.asksClose && t.drive.stage.early) }.record (t.drive.step e)

def step (t : Task ω ι κ) : Event ω ι κ → Task ω ι κ
  | .handshake r =>
    if t.drive.stage = .dialing ∧ t.handshake = none then { t with handshake := some r } else t
  | .select a =>
    match t.ready? a with
    | some socket => t.record (t.drive.step (.dialed socket))
    | none => t
  -- only the task itself says how the dialing ends
  | .other (.dialed _) => t
  | .other e => t.other e

def run (t : Task ω ι κ) (events : List (Event ω ι κ)) : Task ω ι κ := events.foldl step t

/-- There is a socket, and no close was asked for in time. -/
def Wanted (t : Task ω ι κ) : Prop := t.handshake = some (.ok ()) ∧ t.asked = false

structure Idle (t : Task ω ι κ) : Prop where
  pumped : t.pumped = false
  opened : t.opened = false
  written : t.drive.line.written = []
  handed : t.drive.line.handed = []

def earlyState (asked : Bool) : Lifecycle := if asked then .closing else .connecting

theorem earlyState_ne_opened (asked : Bool) : earlyState asked ≠ .opened := by
  cases asked <;> decide

theorem earlyState_eq_connecting_iff {asked : Bool} :
    earlyState asked = .connecting ↔ asked = false := by
  cases asked <;> decide

structure Early (t : Task ω ι κ) : Prop extends t.Idle where
  state : t.drive.connection.state = earlyState t.asked

def Known (t : Task ω ι κ) : Stage → Prop
  | .dialing => t.Early
  | .dialed true => t.Early ∧ t.handshake = some (.ok ())
  | .dialed false => t.Early ∧ ¬ t.Wanted
  | .pumping => t.pumped = true ∧ t.Wanted
  | .unwanted => t.Idle ∧ t.drive.connection.state = .closing ∧ t.asked = true
  | .finished => t.drive.connection.state = .closed ∧ (t.pumped = true ↔ t.Wanted) ∧
      (t.pumped = false → t.Idle)

def Fits (t : Task ω ι κ) : Prop := t.Known t.drive.stage

variable {t : Task ω ι κ} {d : Drive ω ι κ}

theorem fits_start (c : Client σ ι κ) : (start c : Task ω ι κ).Fits where
  pumped := rfl
  opened := rfl
  written := rfl
  handed := rfl
  state := rfl

theorem Fits.known {s : Stage} (h : t.Fits) (hstage : t.drive.stage = s) : t.Known s := hstage ▸ h

theorem Idle.record (h : t.Idle) (hstage : d.stage ≠ .pumping)
    (hstate : d.connection.state ≠ .opened) (hwritten : d.line.written = t.drive.line.written)
    (hhanded : d.line.handed = t.drive.line.handed) : (t.record d).Idle where
  pumped := by simp [Task.record, h.pumped, hstage]
  opened := by simp [Task.record, h.opened, hstate]
  written := hwritten.trans h.written
  handed := hhanded.trans h.handed

theorem Idle.asking (h : t.Idle) (asked : Bool) : ({ t with asked }).Idle :=
  ⟨h.pumped, h.opened, h.written, h.handed⟩

theorem Wanted.of_asking {asks : Bool} (h : ({ t with asked := t.asked || asks }).Wanted) :
    t.Wanted :=
  ⟨h.1, (Bool.or_eq_false_iff.1 h.2).1⟩

theorem not_wanted (h : t.asked = true) : ¬ t.Wanted := fun hwanted =>
  absurd (h.symm.trans hwanted.2) (by decide)

theorem Fits.other (h : t.Fits) (asks : Bool) (hstage : d.stage = t.drive.stage)
    (hwritten : d.line.written = t.drive.line.written)
    (hhanded : d.line.handed = t.drive.line.handed)
    (hstate : d.connection.state =
      if asks then t.drive.connection.close.state else t.drive.connection.state) :
    (({ t with asked := t.asked || (asks && t.drive.stage.early) }).record d).Fits := by
  have hearly : t.Early → d.stage ≠ .pumping →
      (({ t with asked := t.asked || (asks && true) }).record d).Early := by
    intro early hne
    rw [Bool.and_true]
    have hlater : d.connection.state = earlyState (t.asked || asks) := by
      rw [hstate, Connection.close_state, early.state]
      cases t.asked <;> cases asks <;> rfl
    refine ⟨(early.toIdle.asking _).record hne ?_ hwritten hhanded, hlater⟩
    exact hlater ▸ earlyState_ne_opened _
  have hstays : .closing ≤ t.drive.connection.state →
      d.connection.state = t.drive.connection.state := by
    intro hclosing
    rw [hstate]
    split_ifs
    · exact Connection.close_state_of_closing hclosing
    · rfl
  change Known _ d.stage
  rw [hstage]
  cases hs : t.drive.stage with
  | dialing =>
    rw [hs] at hstage
    exact hearly (h.known hs) (by simp [hstage])
  | dialed socket =>
    rw [hs] at hstage
    cases socket with
    | true =>
      obtain ⟨early, socket⟩ := h.known hs
      exact ⟨hearly early (by simp [hstage]), socket⟩
    | false =>
      obtain ⟨early, unwanted⟩ := h.known hs
      exact ⟨hearly early (by simp [hstage]), fun hwanted => unwanted (Wanted.of_asking hwanted)⟩
  | pumping =>
    obtain ⟨pumped, wanted⟩ := h.known hs
    exact ⟨by simp [Task.record, pumped], by simpa [Task.record, Wanted, Stage.early] using wanted⟩
  | unwanted =>
    obtain ⟨idle, state, asked⟩ := h.known hs
    have hclosing := (hstays (state ▸ Lifecycle.le_refl _)).trans state
    refine ⟨(idle.asking _).record ?_ ?_ hwritten hhanded, hclosing, by simp [Task.record, asked]⟩
    · simp [hstage, hs]
    · simp [hclosing]
  | finished =>
    obtain ⟨state, pumped, idle⟩ := h.known hs
    have hclosed := (hstays (state ▸ Lifecycle.le_closed _)).trans state
    have hpumped : (t.pumped || decide (d.stage = .pumping)) = t.pumped := by simp [hstage, hs]
    refine ⟨hclosed, ?_, fun hno => ?_⟩
    · simpa [Task.record, Wanted, Stage.early, hpumped] using pumped
    · refine ((idle (hpumped.symm.trans hno)).asking _).record ?_ ?_ hwritten hhanded
      · simp [hstage, hs]
      · simp [hclosed]

theorem other_eq {e : Client.Event ω ι κ} (h : e.asksClose = false) :
    t.other e = t.record (t.drive.step e) := by
  simp [Task.other, h]

theorem Fits.keeps (h : t.Fits) (hstage : d.stage = t.drive.stage) (hline : d.line = t.drive.line) :
    (t.record d).Fits := by
  have hstate := congrArg (·.connection.state) hline
  simpa using h.other false hstage (hline ▸ rfl) (hline ▸ rfl) hstate

theorem Fits.handshake (h : t.Fits) (hstage : t.drive.stage = .dialing)
    (r : Except Error Unit) : ({ t with handshake := some r }).Fits := by
  have early : t.Early := h.known hstage
  change Known _ t.drive.stage
  rw [hstage]
  exact ⟨⟨early.pumped, early.opened, early.written, early.handed⟩, early.state⟩

theorem ready?_cases {a : Arm} {socket : Bool} (h : t.ready? a = some socket)
    (hstate : t.drive.connection.state = earlyState t.asked) :
    (socket = true → t.handshake = some (.ok ())) ∧ (socket = false → ¬ t.Wanted) := by
  cases a with
  | handshake =>
    obtain ⟨r, hr, rfl⟩ := Option.map_eq_some_iff.1 h
    cases r with
    | ok u => exact ⟨fun _ => hr, nofun⟩
    | error e => exact ⟨nofun, fun _ hwanted => absurd (hr.symm.trans hwanted.1) (by simp)⟩
  | closing =>
    simp only [ready?] at h
    split_ifs at h with hending
    obtain rfl := Option.some.inj h
    refine ⟨nofun, fun _ hwanted => ?_⟩
    rw [hstate, hwanted.2] at hending
    exact absurd hending (by decide)

theorem step_select {a : Arm} {socket : Bool} (hready : t.ready? a = some socket) :
    t.step (.select a) = t.record (t.drive.step (.dialed socket)) := by
  simp only [Task.step, hready]

theorem Fits.select (h : t.Fits) {a : Arm} {socket : Bool} (hready : t.ready? a = some socket) :
    (t.record (t.drive.step (.dialed socket))).Fits := by
  by_cases hstage : t.drive.stage = .dialing
  · have early : t.Early := h.known hstage
    obtain ⟨hsocket, hnone⟩ := ready?_cases hready early.state
    rw [Drive.step, if_pos hstage]
    have hopened := early.state ▸ earlyState_ne_opened t.asked
    have hlater : (t.record { t.drive with stage := .dialed socket }).Early :=
      ⟨early.toIdle.record (by simp) hopened rfl rfl, early.state⟩
    cases socket with
    | true => exact ⟨hlater, hsocket rfl⟩
    | false => exact ⟨hlater, hnone rfl⟩
  · rw [Drive.step, if_neg hstage]
    exact h.keeps rfl rfl

theorem Fits.gives_up (h : t.Fits)
    (hstage : t.drive.stage = .dialed false ∨ t.drive.stage = .unwanted) :
    t.Idle ∧ ¬ t.Wanted := by
  rcases hstage with hfalse | hunwanted
  · obtain ⟨early, unwanted⟩ := h.known hfalse
    exact ⟨early.toIdle, unwanted⟩
  · obtain ⟨idle, -, asked⟩ := h.known hunwanted
    exact ⟨idle, not_wanted asked⟩

theorem Fits.proceed (h : t.Fits) (hsettled : t.drive.line.Settled) :
    (t.record t.drive.proceed).Fits := by
  have hproceeds := t.drive.proceeds
  generalize t.drive.proceed = later at hproceeds ⊢
  cases hproceeds with
  | waits => exact h.keeps rfl rfl
  | opened dialed connecting =>
    obtain ⟨early, socket⟩ := h.known dialed
    have hasked := earlyState_eq_connecting_iff.1 (early.state.symm.trans connecting)
    exact ⟨Bool.or_eq_true_iff.2 (.inr rfl), socket, hasked⟩
  | late dialed asked =>
    obtain ⟨early, -⟩ := h.known dialed
    have hasked : t.asked = true := by
      rwa [early.state, Ne, earlyState_eq_connecting_iff, Bool.not_eq_false] at asked
    have hopened := early.state ▸ earlyState_ne_opened t.asked
    have hclosing : t.drive.connection.state = .closing := by
      rw [early.state, hasked]
      rfl
    exact ⟨early.toIdle.record (by simp) hopened rfl rfl, hclosing, hasked⟩
  | gaveUp hgave =>
    obtain ⟨idle, unwanted⟩ := h.gives_up hgave
    have hlast : (t.record { t.drive.set t.drive.connection.markClosed.2.abandon with
        stage := .finished }).Idle := idle.record nofun nofun rfl rfl
    exact ⟨rfl, ⟨fun hp => by simp [hlast.pumped] at hp, fun hw => absurd hw unwanted⟩,
      fun _ => hlast⟩
  | pumped pumping done =>
    obtain ⟨pumped, wanted⟩ := h.known pumping
    have hpumped : (t.record { t.drive with stage := .finished }).pumped = true := by
      simp [Task.record, pumped]
    exact ⟨(hsettled done).1, ⟨fun _ => wanted, fun _ => hpumped⟩,
      fun hno => by simp [hpumped] at hno⟩

theorem Fits.turn (h : t.Fits) (turn : Pump.Turn) : (t.record (t.drive.turn turn)).Fits := by
  unfold Drive.turn
  split_ifs with hpumping
  · obtain ⟨pumped, wanted⟩ := h.known hpumping
    change Known _ t.drive.stage
    rw [hpumping]
    exact ⟨by simp [Task.record, pumped], wanted⟩
  · exact h.keeps rfl rfl

structure Sound (t : Task ω ι κ) : Prop where
  drive : t.drive.Sound
  fits : t.Fits

theorem sound_start (c : Client σ ι κ) : (start c : Task ω ι κ).Sound :=
  ⟨Drive.sound_start c, fits_start c⟩

theorem Sound.other (h : t.Sound) {e : Client.Event ω ι κ} (he : ∀ socket, e ≠ .dialed socket) :
    (t.other e).Sound := by
  refine ⟨h.drive.step e, ?_⟩
  cases e with
  | use u => exact h.fits.other u.asksClose rfl rfl rfl (Pump.use_state _ u)
  | dialed socket => exact absurd rfl (he socket)
  | proceed =>
    rw [other_eq rfl]
    exact h.fits.proceed h.drive.settled
  | turn turn =>
    rw [other_eq rfl]
    exact h.fits.turn turn
  | begin place =>
    rw [other_eq rfl, Drive.step, Drive.begin]
    split_ifs <;> exact h.fits.keeps rfl rfl

theorem Sound.step (h : t.Sound) (e : Event ω ι κ) : (t.step e).Sound := by
  cases e with
  | handshake r =>
    rw [Task.step]
    split_ifs with hdialing
    · exact ⟨h.drive, h.fits.handshake hdialing.1 r⟩
    · exact h
  | select a =>
    cases hready : t.ready? a with
    | none => simpa only [Task.step, hready] using h
    | some socket =>
      rw [step_select hready]
      exact ⟨h.drive.step (.dialed socket), h.fits.select hready⟩
  | other e =>
    cases e with
    | dialed socket => exact h
    | _ => exact h.other nofun

theorem Sound.run (h : t.Sound) (events : List (Event ω ι κ)) : (t.run events).Sound := by
  induction events generalizing t with
  | nil => exact h
  | cons e rest ih => exact ih (h.step e)

def Event.Own : Event ω ι κ → Prop
  | .select _ => True
  | .other .proceed => True
  | _ => False

/-- The task waits for the handshake and nobody has asked for a close, or it waits for the end of
its pump, or it has returned. -/
def Waits (t : Task ω ι κ) : Prop :=
  t.drive.stage = .dialing ∧ t.handshake = none ∧ t.asked = false ∨
    t.drive.stage = .pumping ∧ t.drive.line.phase ≠ .done ∨ t.drive.stage = .finished

theorem select_left {a : Arm} {socket : Bool} (hready : t.ready? a = some socket)
    (hstage : t.drive.stage = .dialing) :
    (t.step (.select a)).drive.stage.left < t.drive.stage.left := by
  have hlater : (t.step (.select a)).drive.stage = .dialed socket := by
    rw [step_select hready, Drive.step, if_pos hstage]
    rfl
  rw [hlater, hstage]
  exact Nat.lt_succ_self 2

theorem proceed_left (d : Drive ω ι κ) :
    (d.stage = .dialing ∨ d.stage = .finished ∨ d.stage = .pumping ∧ d.line.phase ≠ .done) ∨
      d.proceed.stage.left < d.stage.left := by
  have hproceeds := d.proceeds
  generalize d.proceed = later at hproceeds ⊢
  cases hproceeds with
  | waits h => exact .inl h
  | opened dialed => exact .inr (dialed ▸ Nat.one_lt_two)
  | late dialed => exact .inr (dialed ▸ Nat.one_lt_two)
  | gaveUp h =>
    refine .inr ?_
    rcases h with dialed | unwanted
    · exact dialed ▸ Nat.zero_lt_two
    · exact unwanted ▸ Nat.zero_lt_one
  | pumped pumping => exact .inr (pumping ▸ Nat.zero_lt_one)

/-- A task that waits for nothing is a step nearer to its end after a step of its own. -/
theorem goes_on (h : t.Fits) (hno : ¬ t.Waits) :
    ∃ e, Event.Own e ∧ (t.step e).drive.stage.left < t.drive.stage.left := by
  by_cases hdialing : t.drive.stage = .dialing
  · cases hshake : t.handshake with
    | some r =>
      have hready : t.ready? .handshake = some r.isOk := by
        rw [ready?, hshake]
        rfl
      exact ⟨.select .handshake, trivial, select_left hready hdialing⟩
    | none =>
      have hasked : t.asked = true := by
        rw [← Bool.not_eq_false]
        exact fun hasked => hno (.inl ⟨hdialing, hshake, hasked⟩)
      have early : t.Early := h.known hdialing
      have hready : t.ready? .closing = some false := by
        rw [ready?, early.state, hasked]
        rfl
      exact ⟨.select .closing, trivial, select_left hready hdialing⟩
  · rcases proceed_left t.drive with hstuck | hless
    · exact absurd (.inr (hstuck.resolve_left hdialing).symm) hno
    · exact ⟨.other .proceed, trivial, hless⟩

theorem comes_to_wait (h : t.Sound) :
    ∃ own, (∀ e ∈ own, Event.Own e) ∧ own.length ≤ t.drive.stage.left ∧ (t.run own).Waits := by
  induction hn : t.drive.stage.left using Nat.strong_induction_on generalizing t with
  | _ n ih =>
    subst hn
    by_cases hwaits : t.Waits
    · exact ⟨[], nofun, Nat.zero_le _, hwaits⟩
    · obtain ⟨e, hown, hless⟩ := goes_on h.fits hwaits
      obtain ⟨own, hall, hlength, hlast⟩ := ih _ hless (h.step e) rfl
      exact ⟨e :: own, List.forall_mem_cons.2 ⟨hown, hall⟩, Nat.lt_of_le_of_lt hlength hless, hlast⟩

/-- However the handshake ends, and whenever somebody asks for a close: a task that has returned
leaves a closed connection on which nobody waits. -/
theorem settles (c : Client σ ι κ) (events : List (Event ω ι κ)) :
    let t : Task ω ι κ := (start c).run events
    (t.drive.stage = .finished →
      t.drive.connection.state = .closed ∧ t.drive.connection.pending.isEmpty = true ∧
        t.drive.connection.state.settled = true ∧ t.drive.connection.state.still = true ∧
        (t.pumped = true ↔ t.handshake = some (.ok ()) ∧ t.asked = false) ∧
        (t.pumped = false →
          t.opened = false ∧ t.drive.line.written = [] ∧ t.drive.line.handed = [])) ∧
      ∃ own, (∀ e ∈ own, Event.Own e) ∧ own.length ≤ 3 ∧ (t.run own).Waits := by
  intro t
  have hsound : t.Sound := (sound_start c).run events
  obtain ⟨own, hown, hlength, hwaits⟩ := comes_to_wait hsound
  refine ⟨fun hover => ?_, own, hown, hlength.trans (Stage.left_le _), hwaits⟩
  obtain ⟨hclosed, hpending⟩ := hsound.drive.closed hover
  obtain ⟨-, hpumped, hidle⟩ := hsound.fits.known hover
  refine ⟨hclosed, hpending, by rw [hclosed]; rfl, by rw [hclosed]; rfl, hpumped, fun hno => ?_⟩
  exact ⟨(hidle hno).opened, (hidle hno).written, (hidle hno).handed⟩

def lateClose : List (Event Nat Unit Unit) :=
  [.handshake (.ok ()), .select .handshake, .other (.use .close), .other .proceed, .other .proceed]

def laterClose : List (Event Nat Unit Unit) :=
  [.handshake (.ok ()), .select .handshake, .other .proceed, .other (.use .close),
    .other (.turn (.command true)), .other (.turn .timeout), .other .proceed]

theorem settles_late_close :
    let late : Task Nat Unit Unit := (start Drive.both).run lateClose
    let later : Task Nat Unit Unit := (start Drive.both).run laterClose
    (late.drive.stage = .finished ∧ late.drive.connection.state = .closed ∧
      late.handshake = some (.ok ()) ∧ late.pumped = false ∧ late.opened = false) ∧
      later.drive.stage = .finished ∧ later.drive.connection.state = .closed ∧
        later.pumped = true := by
  intro late later
  have hlate : late.drive.stage = .finished := by decide
  have hlater : later.drive.stage = .finished := by decide
  have hno : late.pumped = false := by decide
  obtain ⟨hclosed, -, -, -, -, hidle⟩ := (settles Drive.both lateClose).1 hlate
  obtain ⟨hclosed', -, -, -, hpumped, -⟩ := (settles Drive.both laterClose).1 hlater
  exact ⟨⟨hlate, hclosed, rfl, hno, (hidle hno).1⟩, hlater, hclosed', hpumped.2 ⟨rfl, rfl⟩⟩

end Task
end Client
end Parley
