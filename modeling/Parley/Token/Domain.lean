/-!
# Token domains

A domain is a contiguous, non-empty range of numbers that tokens are drawn from. It steps up from
every token but the highest and down from every token but the lowest.
-/

namespace Parley.Token

structure Domain where
  lo : Nat
  hi : Nat
  lo_le_hi : lo ≤ hi := by omega
deriving DecidableEq, Repr

namespace Domain

def Mem (d : Domain) (t : Nat) : Prop := d.lo ≤ t ∧ t ≤ d.hi

instance (d : Domain) (t : Nat) : Decidable (d.Mem t) := inferInstanceAs (Decidable (_ ∧ _))

def word (bits : Nat) : Domain where
  lo := 0
  hi := (1 <<< bits) - 1
  lo_le_hi := Nat.zero_le _

def next? (d : Domain) (t : Nat) : Option Nat := if t < d.hi then some (t + 1) else none

def prev? (d : Domain) (t : Nat) : Option Nat := if d.lo < t then some (t - 1) else none

theorem lo_mem (d : Domain) : d.Mem d.lo := ⟨Nat.le_refl _, d.lo_le_hi⟩

theorem next?_mem {d : Domain} {t u : Nat} (ht : d.Mem t) (h : d.next? t = some u) : d.Mem u := by
  simp only [next?, Option.ite_none_right_eq_some, Option.some.injEq] at h
  simp only [Mem] at *
  omega

theorem prev?_mem {d : Domain} {t u : Nat} (ht : d.Mem t) (h : d.prev? t = some u) : d.Mem u := by
  simp only [prev?, Option.ite_none_right_eq_some, Option.some.injEq] at h
  simp only [Mem] at *
  omega

end Domain
end Parley.Token
