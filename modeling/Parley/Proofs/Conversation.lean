import Mathlib
import Parley.Proofs.Connection.Session

/-!
# Conversations

Two sessions, each the peer of the other. What leaves the queue of one side arrives at the other in
order, one frame at a time; what has not arrived when a run ends never does. A run is any
interleaving of moves of both sides and of arrivals.
-/

namespace Parley

inductive Party where
  | left | right
deriving DecidableEq, Repr

def Party.other : Party → Party
  | left => right
  | right => left

@[simp] theorem Party.other_other (p : Party) : p.other.other = p := by cases p <;> rfl

structure Conversation (ι κ : Type) where
  left : Session ι κ
  right : Session ι κ

namespace Conversation
variable {ι κ : Type}

inductive Event (ι κ : Type) where
  | move (p : Party) (m : Session.Move ι κ)
  /-- The first frame that the party has on the wire arrives at the other side. -/
  | deliver (p : Party)

def side (c : Conversation ι κ) : Party → Session ι κ
  | .left => c.left
  | .right => c.right

def put (c : Conversation ι κ) (p : Party) (s : Session ι κ) : Conversation ι κ :=
  match p with
  | .left => { c with left := s }
  | .right => { c with right := s }

def deliver (c : Conversation ι κ) (p : Party) : Conversation ι κ :=
  match (c.side p).wire with
  | [] => c
  | frame :: rest =>
    (c.put p { c.side p with wire := rest }).put p.other ((c.side p.other).receive frame)

def step (c : Conversation ι κ) : Event ι κ → Conversation ι κ
  | .move p m => c.put p ((c.side p).move m)
  | .deliver p => c.deliver p

def run (c : Conversation ι κ) (events : List (Event ι κ)) : Conversation ι κ :=
  events.foldl step c

def start (state : Party → Lifecycle) (info : Party → Option ι) (request : Party → Option κ) :
    Conversation ι κ where
  left := .start (state .left) (info .left) (request .left)
  right := .start (state .right) (info .right) (request .right)

theorem side_start (state : Party → Lifecycle) (info : Party → Option ι)
    (request : Party → Option κ) (p : Party) :
    (start state info request).side p = .start (state p) (info p) (request p) := by
  cases p <;> rfl

@[simp] theorem side_put (c : Conversation ι κ) (p : Party) (s : Session ι κ) :
    (c.put p s).side p = s := by
  cases p <;> rfl

@[simp] theorem side_put_other (c : Conversation ι κ) (p : Party) (s : Session ι κ) :
    (c.put p s).side p.other = c.side p.other := by
  cases p <;> rfl

@[simp] theorem side_other_put (c : Conversation ι κ) (p : Party) (s : Session ι κ) :
    (c.put p.other s).side p = c.side p := by
  cases p <;> rfl

theorem eq_or_eq_other (p q : Party) : p = q ∨ p = q.other := by
  cases p <;> cases q <;> decide

theorem side_keeps {P : Session ι κ → Prop} (hstep : ∀ s e, P s → P (s.step e))
    (hwire : ∀ s wire, P s → P { s with wire := wire }) {c : Conversation ι κ}
    (h : ∀ p, P (c.side p)) (e : Event ι κ) (p : Party) : P ((c.step e).side p) := by
  cases e with
  | move q m =>
    rcases eq_or_eq_other p q with rfl | rfl
    · rw [step, side_put]
      exact hstep _ (.move m) (h p)
    · rw [step, side_put_other]
      exact h q.other
  | deliver q =>
    simp only [step, deliver]
    split
    · exact h p
    · rename_i frame rest hw
      rcases eq_or_eq_other p q with rfl | rfl
      · rw [side_other_put, side_put]
        exact hwire _ rest (h p)
      · rw [side_put]
        exact hstep _ (.frame frame) (h q.other)

theorem run_keeps {P : Conversation ι κ → Prop} (hstep : ∀ c e, P c → P (c.step e))
    {c : Conversation ι κ} (h : P c) (events : List (Event ι κ)) : P (c.run events) := by
  induction events generalizing c with
  | nil => exact h
  | cons e rest ih => exact ih (hstep c e h)

end Conversation
end Parley
