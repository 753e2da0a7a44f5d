import Mathlib
import Parley.Client
import Parley.Proofs.Pump

/-!
# A client's connection

One task drives the socket of a client's connection, from the handshake to the end of the pump. The
handlers that its frames are for run on tasks of their own, which begin whenever they are scheduled.
Once the connection is closed, no frame comes through the pump any more.
-/

namespace Parley.Client
variable {ω σ ι κ : Type}

inductive Stage where
  | dialing
  | dialed (socket : Bool)
  | pumping
  | unwanted
  | finished
deriving DecidableEq

structure Drive (ω ι κ : Type) where
  line : Pump.Line ω ι κ
  stage : Stage := .dialing
  dispatched : List (Dispatch ω ι κ) := []
  /-- The handlers that have begun, by their places in `dispatched`. -/
  begun : List Nat := []

inductive Event (ω ι κ : Type) where
  | use (u : Pump.Use ω ι κ)
  | dialed (socket : Bool)
  | proceed
  | turn (t : Pump.Turn)
  | begin (place : Nat)

namespace Drive

def start (c : Client σ ι κ) : Drive ω ι κ := { line := .start c.fresh }

def connection (d : Drive ω ι κ) : Connection ω ι κ := d.line.connection

def set (d : Drive ω ι κ) (c : Connection ω ι κ) : Drive ω ι κ :=
  { d with line := { d.line with connection := c } }

theorem set_connection (d : Drive ω ι κ) : d.set d.connection = d := rfl

def proceed (d : Drive ω ι κ) : Drive ω ι κ :=
  match d.stage with
  | .dialed true =>
    let (opened, c) := d.connection.markOpen
    { d.set c with stage := if opened then .pumping else .unwanted }
  | .dialed false | .unwanted => { d.set d.connection.markClosed.2.abandon with stage := .finished }
  | .pumping => if d.line.phase = .done then { d with stage := .finished } else d
  | .dialing | .finished => d

def turn (d : Drive ω ι κ) (t : Pump.Turn) : Drive ω ι κ :=
  if d.stage = .pumping then
    { d with
      line := d.line.turn t
      dispatched := d.dispatched ++ (Pump.step d.line.phase d.connection t).dispatch.toList }
  else d

def begin (d : Drive ω ι κ) (place : Nat) : Drive ω ι κ :=
  if place < d.dispatched.length ∧ place ∉ d.begun then { d with begun := d.begun ++ [place] }
  else d

def step (d : Drive ω ι κ) : Event ω ι κ → Drive ω ι κ
  | .use u => { d with line := d.line.use u }
  | .dialed socket => if d.stage = .dialing then { d with stage := .dialed socket } else d
  | .proceed => d.proceed
  | .turn t => d.turn t
  | .begin place => d.begin place

def run (d : Drive ω ι κ) (events : List (Event ω ι κ)) : Drive ω ι κ := events.foldl step d

def Closed (d : Drive ω ι κ) : Prop :=
  d.connection.state = .closed ∧ d.connection.pending.isEmpty = true

variable {d : Drive ω ι κ}

theorem Closed.use (h : d.Closed) (u : Pump.Use ω ι κ) : ({ d with line := d.line.use u }).Closed :=
  Pump.drained_use h.1 h.2 u

def Carries (bytes : Bytes) (x : Dispatch ω ι κ) : Prop :=
  ∃ c : Connection ω ι κ, (c.receive bytes).1 = some x

/-- Nothing comes through the pump any more. -/
def Inert (d : Drive ω ι κ) : Prop :=
  d.stage = .finished ∨ d.stage = .pumping ∧ d.line.phase = .done

structure Sound (d : Drive ω ι κ) : Prop where
  settled : d.line.Settled
  closed : d.stage = .finished → d.Closed
  inert : d.connection.state = .closed → d.Inert
  nodup : d.begun.Nodup
  known : ∀ n ∈ d.begun, n < d.dispatched.length
  carried : ∀ x ∈ d.dispatched, ∃ bytes ∈ d.line.handed, Carries bytes x

theorem sound_start (c : Client σ ι κ) : (start c : Drive ω ι κ).Sound where
  settled h := by simp [start, Pump.Line.start] at h
  closed h := by simp [start] at h
  inert := nofun
  nodup := .nil
  known := by simp [start]
  carried := by simp [start]

theorem Sound.use (h : d.Sound) (u : Pump.Use ω ι κ) : ({ d with line := d.line.use u }).Sound where
  settled hdone := Pump.drained_use (h.settled hdone).1 (h.settled hdone).2 u
  closed hfinished := (h.closed hfinished).use u
  inert hclosed := h.inert (Pump.closed_of_use hclosed)
  nodup := h.nodup
  known := h.known
  carried := h.carried

inductive Proceeds (d : Drive ω ι κ) : Drive ω ι κ → Prop where
  | waits (h : d.stage = .dialing ∨ d.stage = .finished ∨
      d.stage = .pumping ∧ d.line.phase ≠ .done) : Proceeds d d
  | opened (dialed : d.stage = .dialed true) (connecting : d.connection.state = .connecting) :
    Proceeds d { d.set { d.connection with state := .opened } with stage := .pumping }
  | late (dialed : d.stage = .dialed true) (asked : d.connection.state ≠ .connecting) :
    Proceeds d { d with stage := .unwanted }
  | gaveUp (h : d.stage = .dialed false ∨ d.stage = .unwanted) :
    Proceeds d { d.set d.connection.markClosed.2.abandon with stage := .finished }
  | pumped (pumping : d.stage = .pumping) (done : d.line.phase = .done) :
    Proceeds d { d with stage := .finished }

theorem proceeds (d : Drive ω ι κ) : Proceeds d d.proceed := by
  cases hs : d.stage with
  | dialing => simpa only [proceed, hs] using Proceeds.waits (.inl hs)
  | dialed socket =>
    cases socket with
    | true =>
      by_cases hc : d.connection.state = .connecting
      · simpa only [proceed, hs, Connection.markOpen, if_pos hc, if_true] using
          Proceeds.opened hs hc
      · simpa [proceed, hs, Connection.markOpen, if_neg hc, set_connection] using
          Proceeds.late hs hc
    | false => simpa only [proceed, hs] using Proceeds.gaveUp (.inl hs)
  | pumping =>
    by_cases hdone : d.line.phase = .done
    · simpa only [proceed, hs, if_pos hdone] using Proceeds.pumped hs hdone
    · simpa only [proceed, hs, if_neg hdone] using Proceeds.waits (.inr (.inr ⟨hs, hdone⟩))
  | unwanted => simpa only [proceed, hs] using Proceeds.gaveUp (.inr hs)
  | finished => simpa only [proceed, hs] using Proceeds.waits (.inr (.inl hs))

theorem Sound.not_closed (h : d.Sound) (hfinished : d.stage ≠ .finished)
    (hpumping : d.stage ≠ .pumping) : d.connection.state ≠ .closed := fun hclosed =>
  (h.inert hclosed).elim hfinished fun hdone => hpumping hdone.1

theorem Sound.proceed (h : d.Sound) : d.proceed.Sound := by
  have hproceeds := d.proceeds
  generalize d.proceed = later at hproceeds ⊢
  cases hproceeds with
  | waits => exact h
  | opened dialed connecting =>
    refine ⟨fun hdone => ?_, by simp, nofun, h.nodup, h.known, h.carried⟩
    have hclosed := (h.settled hdone).1
    rw [show d.line.connection.state = .connecting from connecting] at hclosed
    simp at hclosed
  | late dialed asked =>
    refine ⟨h.settled, by simp, fun hclosed => ?_, h.nodup, h.known, h.carried⟩
    exact absurd hclosed (h.not_closed (by simp [dialed]) (by simp [dialed]))
  | gaveUp hgave =>
    exact ⟨fun _ => ⟨rfl, rfl⟩, fun _ => ⟨rfl, rfl⟩, fun _ => .inl rfl, h.nodup, h.known,
      h.carried⟩
  | pumped pumping done =>
    exact ⟨h.settled, fun _ => h.settled done, fun _ => .inl rfl, h.nodup, h.known, h.carried⟩

theorem handed_of_dispatch {p : Pump.Phase} {c : Connection ω ι κ} {t : Pump.Turn}
    {x : Dispatch ω ι κ} (h : (Pump.step p c t).dispatch = some x) :
    ∃ bytes, (Pump.step p c t).handed = some bytes ∧ (c.receive bytes).1 = some x := by
  cases p with
  | running =>
    cases t with
    | command taken =>
      simp only [Pump.step, Pump.command] at h
      split at h
      · simp at h
      · split_ifs at h
        simp [Pump.finish] at h
      · simp at h
    | incoming m =>
      cases m with
      | data bytes => exact ⟨bytes, rfl, h⟩
      | _ => simp [Pump.step, Pump.incoming, Pump.finish] at h
    | timeout => simp [Pump.step] at h
  | draining =>
    cases t with
    | command taken => simp [Pump.step] at h
    | incoming m => cases m <;> simp [Pump.step, Pump.discard, Pump.finish] at h
    | timeout => simp [Pump.step, Pump.finish] at h
  | done => cases t <;> simp [Pump.step] at h

theorem Sound.turn (h : d.Sound) (t : Pump.Turn) : (d.turn t).Sound := by
  unfold Drive.turn
  split_ifs with hpumping
  · refine ⟨h.settled.turn t, fun hs => ?_, fun hclosed => .inr ⟨hpumping, ?_⟩, h.nodup,
      fun n hn => ?_, fun x hx => ?_⟩
    · simp [hpumping] at hs
    · rcases Pump.Line.closed_of_turn hclosed with hbefore | hdone
      · have hdone : d.line.phase = .done :=
          ((h.inert hbefore).resolve_left (by simp [hpumping])).2
        rw [Pump.Line.turn_of_done hdone, hdone]
      · exact hdone
    · rw [List.length_append]
      exact Nat.lt_add_right _ (h.known n hn)
    · rcases List.mem_append.1 hx with hold | hnew
      · obtain ⟨bytes, hmem, hcarries⟩ := h.carried x hold
        exact ⟨bytes, List.mem_append_left _ hmem, hcarries⟩
      · obtain ⟨bytes, hhanded, hreceive⟩ := handed_of_dispatch (Option.mem_toList.1 hnew)
        refine ⟨bytes, List.mem_append_right _ ?_, d.connection, hreceive⟩
        exact Option.mem_toList.2 hhanded
  · exact h

theorem Sound.begin (h : d.Sound) (place : Nat) : (d.begin place).Sound := by
  unfold Drive.begin
  split_ifs with hnew
  · have hnodup : (d.begun ++ [place]).Nodup := by
      rw [← List.concat_eq_append]
      exact h.nodup.concat hnew.2
    refine ⟨h.settled, h.closed, h.inert, hnodup, fun n hn => ?_, h.carried⟩
    rcases List.mem_append.1 hn with hold | hlast
    · exact h.known n hold
    · obtain rfl := List.mem_singleton.1 hlast
      exact hnew.1
  · exact h

theorem Sound.step (h : d.Sound) (e : Event ω ι κ) : (d.step e).Sound := by
  cases e with
  | use u => exact h.use u
  | dialed socket =>
    simp only [Drive.step]
    split_ifs with hdialing
    · refine ⟨h.settled, by simp, fun hclosed => ?_, h.nodup, h.known, h.carried⟩
      exact absurd hclosed (h.not_closed (by simp [hdialing]) (by simp [hdialing]))
    · exact h
  | proceed => exact h.proceed
  | turn t => exact h.turn t
  | begin place => exact h.begin place

theorem Sound.run (h : d.Sound) (events : List (Event ω ι κ)) : (d.run events).Sound := by
  induction events generalizing d with
  | nil => exact h
  | cons e rest ih => exact ih (h.step e)

/-- Once the connection is closed it stays so, and nothing is taken in or handed out. -/
structure Over (d later : Drive ω ι κ) : Prop where
  closed : later.connection.state = .closed
  dispatched : later.dispatched = d.dispatched
  handed : later.line.handed = d.line.handed
  begun : d.begun <+: later.begun

theorem Over.refl (h : d.connection.state = .closed) : Over d d :=
  ⟨h, rfl, rfl, List.prefix_refl _⟩

theorem Over.trans {later last : Drive ω ι κ} (h : Over d later) (h' : Over later last) :
    Over d last :=
  ⟨h'.closed, h'.dispatched.trans h.dispatched, h'.handed.trans h.handed, h.begun.trans h'.begun⟩

theorem Inert.turn (h : d.Inert) (t : Pump.Turn) : d.turn t = d := by
  unfold Drive.turn
  split_ifs with hpumping
  · have hdone : d.line.phase = .done := (h.resolve_left (by simp [hpumping])).2
    rw [Pump.Line.turn_of_done hdone, hdone]
    cases t <;> simp [Pump.step]
  · rfl

theorem Sound.drained (h : d.Sound) (hclosed : d.connection.state = .closed) :
    d.connection.pending.isEmpty = true :=
  (h.inert hclosed).elim (fun hfinished => (h.closed hfinished).2)
    fun hdone => (h.settled hdone.2).2

end Drive
end Parley.Client
