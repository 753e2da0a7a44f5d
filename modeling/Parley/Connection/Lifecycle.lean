/-!
# Lifecycle

A connection connects, is open, closes, and is closed. It may skip stages and never goes back.
-/

namespace Parley

inductive Lifecycle where
  | connecting | opened | closing | closed
deriving DecidableEq, Repr

namespace Lifecycle

def name : Lifecycle → String
  | connecting => "connecting"
  | opened => "open"
  | closing => "closing"
  | closed => "closed"

def rank : Lifecycle → Nat
  | connecting => 0
  | opened => 1
  | closing => 2
  | closed => 3

instance : LE Lifecycle := ⟨fun a b => a.rank ≤ b.rank⟩

instance (a b : Lifecycle) : Decidable (a ≤ b) := inferInstanceAs (Decidable (a.rank ≤ b.rank))

theorem rank_injective {a b : Lifecycle} (h : a.rank = b.rank) : a = b := by
  revert h; cases a <;> cases b <;> decide

theorem le_refl (a : Lifecycle) : a ≤ a := Nat.le_refl a.rank

theorem le_trans {a b c : Lifecycle} (hab : a ≤ b) (hbc : b ≤ c) : a ≤ c := Nat.le_trans hab hbc

theorem le_antisymm {a b : Lifecycle} (hab : a ≤ b) (hba : b ≤ a) : a = b :=
  rank_injective (Nat.le_antisymm hab hba)

theorem le_closed (a : Lifecycle) : a ≤ closed := by cases a <;> decide

def settled (s : Lifecycle) : Bool := s != connecting

def still (s : Lifecycle) : Bool := s != closing

def ending (s : Lifecycle) : Bool := s = closing || s = closed

end Lifecycle
end Parley
