import Mathlib
import Parley.Text.Number

/-!
# The number that digits write

A reader of decimal numbers takes digits and nothing else, and gives their value. A bounded one also
takes a plus sign in front, and gives no number over its bound.
-/

namespace Parley.Text.Number

def value (c : Char) : Nat := c.toNat - 48

def decimal (digits : List Char) : Nat := Nat.ofDigits 10 (digits.reverse.map value)

theorem decimal_cons (c : Char) (rest : List Char) :
    decimal (c :: rest) = value c * 10 ^ rest.length + decimal rest := by
  rw [decimal, List.reverse_cons, List.map_append, Nat.ofDigits_append, List.length_map,
    List.length_reverse, List.map_singleton, Nat.ofDigits_singleton]
  exact (Nat.add_comm ..).trans (congrArg (· + _) (Nat.mul_comm ..))

theorem isDigit_iff {c : Char} : c.isDigit = true ↔ 48 ≤ c.toNat ∧ c.toNat ≤ 57 := by
  simp only [Char.isDigit, ge_iff_le, Bool.and_eq_true, decide_eq_true_eq, UInt32.le_iff_toNat_le]
  rfl

theorem digit?_ten_eq_some_iff {c : Char} {d : Nat} :
    digit? 10 c = some d ↔ c.isDigit = true ∧ d = value c := by
  have hle : ∀ a b : Char, a ≤ b ↔ a.toNat ≤ b.toNat := fun a b => UInt32.le_iff_toNat_le
  have hzero : ('0'.toNat, '9'.toNat, 'a'.toNat, 'A'.toNat) = (48, 57, 97, 65) := rfl
  simp only [Prod.mk.injEq] at hzero
  obtain ⟨h0, h9, ha, hA⟩ := hzero
  rw [digit?, Option.filter_eq_some_iff, isDigit_iff]
  simp only [hle, h0, h9, ha, hA, decide_eq_true_eq, value]
  split_ifs with hdec hlow hup
  · rw [Option.some.injEq]
    omega
  · rw [Option.some.injEq]
    omega
  · rw [Option.some.injEq]
    omega
  · exact ⟨fun h => h.1.elim, fun h => absurd h.1 hdec⟩

theorem foldlM_digits_iff {cs : List Char} {start n : Nat} :
    cs.foldlM (fun n c => (digit? 10 c).map (n * 10 + ·)) start = some n ↔
      (∀ c ∈ cs, c.isDigit = true) ∧ n = start * 10 ^ cs.length + decimal cs := by
  induction cs generalizing start with
  | nil =>
    have hstart : start * 10 ^ ([] : List Char).length + decimal [] = start := Nat.mul_one start
    rw [hstart]
    exact ⟨fun h => ⟨nofun, (Option.some.inj h).symm⟩, fun h => congrArg some h.2.symm⟩
  | cons c rest ih =>
    rw [List.foldlM_cons, Option.bind_eq_bind, Option.bind_eq_some_iff]
    simp only [Option.map_eq_some_iff, digit?_ten_eq_some_iff, ih, decimal_cons,
      List.forall_mem_cons, List.length_cons]
    constructor
    · rintro ⟨_, ⟨_, ⟨hc, rfl⟩, rfl⟩, hrest, rfl⟩
      exact ⟨⟨hc, hrest⟩, by ring⟩
    · rintro ⟨⟨hc, hrest⟩, rfl⟩
      exact ⟨_, ⟨_, ⟨hc, rfl⟩, rfl⟩, hrest, by ring⟩

theorem read?_eq_some_iff {cs : List Char} {n : Nat} :
    read? 10 cs = some n ↔ cs ≠ [] ∧ (∀ c ∈ cs, c.isDigit = true) ∧ n = decimal cs := by
  cases cs with
  | nil => simp [read?]
  | cons c rest =>
    rw [read?, foldlM_digits_iff, Nat.zero_mul, Nat.zero_add]
    · simp
    · simp

/-- One or more digits that write the number, with a plus sign in front or without. -/
def Writes (cs : List Char) (n : Nat) : Prop :=
  ∃ digits, (cs = digits ∨ cs = '+' :: digits) ∧ digits ≠ [] ∧
    (∀ c ∈ digits, c.isDigit = true) ∧ n = decimal digits

theorem bounded?_eq_some_iff {limit n : Nat} {cs : List Char} :
    bounded? 10 limit cs = some n ↔ Writes cs n ∧ n ≤ limit := by
  have hread : ∀ digits : List Char, (read? 10 digits).filter (decide <| · ≤ limit) = some n ↔
      (digits ≠ [] ∧ (∀ c ∈ digits, c.isDigit = true) ∧ n = decimal digits) ∧ n ≤ limit := by
    intro digits
    rw [Option.filter_eq_some_iff, read?_eq_some_iff, decide_eq_true_eq]
  unfold bounded?
  split
  case h_1 rest =>
    rw [hread rest]
    refine and_congr_left' ⟨fun h => ⟨rest, .inr rfl, h⟩, ?_⟩
    rintro ⟨digits, rfl | heq, hne, hdigits, hn⟩
    · exact absurd (hdigits '+' (List.mem_cons_self ..)) (by decide)
    · obtain rfl := List.cons_injective heq
      exact ⟨hne, hdigits, hn⟩
  case h_2 hno =>
    rw [hread cs]
    refine and_congr_left' ⟨fun h => ⟨cs, .inl rfl, h⟩, ?_⟩
    rintro ⟨digits, rfl | rfl, hne, hdigits, hn⟩
    · exact ⟨hne, hdigits, hn⟩
    · exact absurd rfl (hno digits)

theorem Writes.chars {cs : List Char} {n : Nat} (h : Writes cs n) :
    ∀ c ∈ cs, c.isDigit = true ∨ c = '+' := by
  obtain ⟨digits, rfl | rfl, -, hdigits, -⟩ := h
  · exact fun c hc => .inl (hdigits c hc)
  · exact List.forall_mem_cons.2 ⟨.inr rfl, fun c hc => .inl (hdigits c hc)⟩

end Parley.Text.Number
