import Parley.Error
import Parley.Token.Domain

/-!
# Token stores

A store keeps values under tokens of a domain and chooses the token itself: the lowest of the
domain for the first value, then the successor of the highest live token, then the predecessor of
the lowest, and last the lowest gap. A token is free again as soon as its entry is removed.

Entries are kept highest token first, so that the usual case of one more token is one step.
-/

namespace Parley.Token

structure Store (d : Domain) (α : Type u) where
  entries : List (Nat × α)
  descending : entries.Pairwise (fun a b => b.1 < a.1)
  bounded : ∀ e ∈ entries, d.Mem e.1

namespace Store
variable {d : Domain} {α : Type u}

@[ext] theorem ext {s t : Store d α} (h : s.entries = t.entries) : s = t := by
  cases s; cases t; simp_all

def empty : Store d α := ⟨[], .nil, by simp⟩

instance : Inhabited (Store d α) := ⟨empty⟩

def toList (s : Store d α) : List (Nat × α) := s.entries.reverse

def tokens (s : Store d α) : List Nat := s.toList.map (·.1)

def size (s : Store d α) : Nat := s.entries.length

def isEmpty (s : Store d α) : Bool := s.entries.isEmpty

def get? (s : Store d α) (t : Nat) : Option α := (s.entries.find? (·.1 == t)).map (·.2)

def contains (s : Store d α) (t : Nat) : Bool := s.entries.any (·.1 == t)

/-- Walks live tokens upwards beside a candidate that starts at the lowest; the first live token
that differs from the candidate leaves the candidate free. -/
def gapFrom (d : Domain) (candidate : Nat) : List Nat → Option Nat
  | [] => none
  | t :: rest =>
    if t ≠ candidate then some candidate
    else match d.next? candidate with
      | some c => gapFrom d c rest
      | none => none

def freeToken (s : Store d α) : Option Nat :=
  match s.entries with
  | [] => some d.lo
  | highest :: rest =>
    match d.next? highest.1 with
    | some t => some t
    | none =>
      match d.prev? ((highest :: rest).getLast (List.cons_ne_nil _ _)).1 with
      | some t => some t
      | none => gapFrom d d.lo s.tokens

def place (t : Nat) (v : α) : List (Nat × α) → List (Nat × α)
  | [] => [(t, v)]
  | e :: rest =>
    if e.1 < t then (t, v) :: e :: rest
    else if e.1 = t then (t, v) :: rest
    else e :: place t v rest

theorem gapFrom_mem {candidate t : Nat} {live : List Nat} (hc : d.Mem candidate)
    (h : gapFrom d candidate live = some t) : d.Mem t := by
  induction live generalizing candidate with
  | nil => simp [gapFrom] at h
  | cons u rest ih =>
    simp only [gapFrom] at h
    split at h
    · simp_all
    · split at h
      · rename_i c hn
        exact ih (Domain.next?_mem hc hn) h
      · simp at h

theorem freeToken_mem {s : Store d α} {t : Nat} (h : s.freeToken = some t) : d.Mem t := by
  have bounded := s.bounded
  simp only [freeToken] at h
  split at h
  · obtain rfl := Option.some.inj h
    exact d.lo_mem
  · rename_i highest rest hs
    rw [hs] at bounded
    split at h
    · rename_i u hn
      obtain rfl := Option.some.inj h
      exact Domain.next?_mem (bounded _ List.mem_cons_self) hn
    · split at h
      · rename_i u hp
        obtain rfl := Option.some.inj h
        exact Domain.prev?_mem (bounded _ (List.getLast_mem _)) hp
      · exact gapFrom_mem d.lo_mem h

theorem mem_place {t : Nat} {v : α} {l : List (Nat × α)} {e : Nat × α} (h : e ∈ place t v l) :
    e = (t, v) ∨ e ∈ l := by
  induction l with
  | nil => simpa [place] using h
  | cons x rest ih =>
    simp only [place] at h
    split at h
    · simpa using h
    · split at h
      · rcases List.mem_cons.1 h with h | h
        · exact .inl h
        · exact .inr (List.mem_cons_of_mem _ h)
      · rcases List.mem_cons.1 h with h | h
        · exact .inr (h ▸ List.mem_cons_self)
        · exact (ih h).imp id (List.mem_cons_of_mem _)

theorem place_descending {t : Nat} {v : α} {l : List (Nat × α)}
    (h : l.Pairwise (fun a b => b.1 < a.1)) : (place t v l).Pairwise (fun a b => b.1 < a.1) := by
  induction l with
  | nil => simp [place]
  | cons x rest ih =>
    obtain ⟨hx, hr⟩ := List.pairwise_cons.1 h
    simp only [place]
    split
    · rename_i hlt
      refine List.pairwise_cons.2 ⟨fun b hb => ?_, h⟩
      rcases List.mem_cons.1 hb with rfl | hb
      · exact hlt
      · exact Nat.lt_trans (hx b hb) hlt
    · split
      · rename_i heq
        exact List.pairwise_cons.2 ⟨fun b hb => heq ▸ hx b hb, hr⟩
      · rename_i hlt hne
        refine List.pairwise_cons.2 ⟨fun b hb => ?_, ih hr⟩
        rcases mem_place hb with rfl | hb
        · simp only at *
          omega
        · exact hx b hb

def insert (s : Store d α) (t : Nat) (ht : d.Mem t) (v : α) : Store d α where
  entries := place t v s.entries
  descending := place_descending s.descending
  bounded e he := by
    rcases mem_place he with rfl | he
    · exact ht
    · exact s.bounded e he

def add (s : Store d α) (v : α) : Except Error (Nat × Store d α) :=
  match h : s.freeToken with
  | some t => .ok (t, s.insert t (freeToken_mem h) v)
  | none => .error .capacity

def erase (s : Store d α) (t : Nat) : Store d α where
  entries := s.entries.filter (·.1 != t)
  descending := s.descending.sublist List.filter_sublist
  bounded e he := s.bounded e (List.mem_filter.1 he).1

def take (s : Store d α) (t : Nat) : Option (α × Store d α) :=
  (s.get? t).map fun v => (v, s.erase t)

def retrieve (s : Store d α) (t : Nat) : Except Error (α × Store d α) :=
  match s.take t with
  | some r => .ok r
  | none => .error (.notFound s!"correlation token {t}")

def drain (s : Store d α) : List (Nat × α) × Store d α := (s.toList, empty)

end Store
end Parley.Token
