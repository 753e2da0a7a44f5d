/-!
# Schedules

Work on virtual time. Tasks run one after another in the order in which they became ready. When none
is ready the blocking jobs run, all that there are; when there are none of these either, time moves
on to the next timer.
-/

namespace Parley.Simulation

structure Schedule (τ β : Type) where
  now : Nat := 0
  ready : List τ := []
  jobs : List β := []
  /-- In the order in which they are due. -/
  timers : List (Nat × τ) := []

namespace Schedule
variable {τ β : Type}

instance : Inhabited (Schedule τ β) := ⟨{}⟩

def spawn (s : Schedule τ β) (t : τ) : Schedule τ β := { s with ready := s.ready ++ [t] }

def block (s : Schedule τ β) (j : β) : Schedule τ β := { s with jobs := s.jobs ++ [j] }

def placed (due : Nat) (t : τ) : List (Nat × τ) → List (Nat × τ)
  | [] => [(due, t)]
  | e :: rest => if due < e.1 then (due, t) :: e :: rest else e :: placed due t rest

def after (s : Schedule τ β) (delay : Nat) (t : τ) : Schedule τ β :=
  { s with timers := placed (s.now + delay) t s.timers }

def fire (s : Schedule τ β) : Schedule τ β :=
  { s with ready := s.ready ++ (s.timers.takeWhile (·.1 ≤ s.now)).map (·.2),
           timers := s.timers.dropWhile (·.1 ≤ s.now) }

def next? (s : Schedule τ β) (limit : Nat) : Option Nat :=
  (s.timers.head?.map (·.1)).filter (· ≤ limit)

def moveTo (s : Schedule τ β) (t : Nat) : Schedule τ β := { s with now := max s.now t }

end Schedule
end Parley.Simulation
