import Mathlib
import Parley.Proofs.Connection.Session

/-!
# The two roles of a session

A session asks and it answers. What it has of the one does not depend on the other, apart from the
frames, which go out on one wire.
-/

namespace Parley.Session
variable {ι κ : Type}

def told (s : Session ι κ) : List Nat := s.handed.map (·.1)

/-- The run for the request at a place has ended, and these are the token and the reply. -/
def Answers (s : Session ι κ) (place : Nat) (a : UInt32 × Reply) : Prop :=
  ∃ q o, s.served[place]? = some q ∧ q.outcome = some o ∧ a = (q.id, o.reply)

theorem Numbered.next_not_told {s : Session ι κ} (h : s.Numbered) : s.tries ∉ s.told := by
  intro hmem
  obtain ⟨p, hp, heq⟩ := List.mem_map.1 hmem
  have hlt := h.handed p hp
  omega

structure AsksAlike (x x' : Session ι κ) : Prop where
  pending : x'.connection.pending = x.connection.pending
  closed : x'.connection.state = .closed ↔ x.connection.state = .closed
  attended : x'.connection.attended = x.connection.attended
  asked : x'.asked = x.asked
  handed : x'.handed.Perm x.handed
  asks : x'.asks = x.asks

structure ServesAlike (y y' : Session ι κ) : Prop where
  attended : y'.connection.attended = y.connection.attended
  served : y'.served = y.served
  answers : y'.answers = y.answers

theorem Agrees.asks_alike {s s' : Session ι κ} (h : Agrees s s') : AsksAlike s s' :=
  ⟨h.pending, h.closed, h.attended, h.asked, h.handed, h.asks⟩

theorem Agrees.serves_alike {s s' : Session ι κ} (h : Agrees s s') : ServesAlike s s' :=
  ⟨h.attended, h.served, h.answers⟩

theorem AsksAlike.refl (s : Session ι κ) : AsksAlike s s := (Agrees.refl s).asks_alike

theorem ServesAlike.refl (s : Session ι κ) : ServesAlike s s := (Agrees.refl s).serves_alike

theorem asks_of_wire {s : Session ι κ} {frame : Bytes} {rest : List Bytes}
    (h : s.wire = frame :: rest) :
    s.asks = (Frame.ask? frame).toList ++ asks { s with wire := rest } := by
  simp only [asks, out, h, List.cons_append, List.filterMap_cons]
  cases Frame.ask? frame <;> rfl

theorem answers_of_wire {s : Session ι κ} {frame : Bytes} {rest : List Bytes}
    (h : s.wire = frame :: rest) :
    s.answers = (Frame.reply? frame).toList ++ answers { s with wire := rest } := by
  simp only [answers, out, h, List.cons_append, List.filterMap_cons]
  cases Frame.reply? frame <;> rfl

section resolve
variable {s : Session ι κ} {place : Nat} {q : Service κ}

theorem not_answers (hq : s.served[place]? = some q) (ho : q.outcome = none) (a : UInt32 × Reply) :
    ¬ s.Answers place a := by
  rintro ⟨r, o, hr, hro, -⟩
  obtain rfl := Option.some.inj (hq.symm.trans hr)
  rw [ho] at hro
  simp at hro

theorem answers_resolve_self (hq : s.served[place]? = some q) (o : Outcome) :
    (s.resolve place q o).Answers place (q.id, o.reply) :=
  ⟨{ q with outcome := some o }, o,
    List.getElem?_set_self (List.getElem?_eq_some_iff.1 hq).1, rfl, rfl⟩

theorem answers_resolve_of_ne {k : Nat} (hk : k ≠ place) (o : Outcome) (a : UInt32 × Reply) :
    (s.resolve place q o).Answers k a ↔ s.Answers k a := by
  simp only [Answers, resolve, List.getElem?_set_ne hk.symm]

theorem Answers.resolve (hq : s.served[place]? = some q) (ho : q.outcome = none) (o : Outcome)
    {k : Nat} {a : UInt32 × Reply} (h : s.Answers k a) : (s.resolve place q o).Answers k a := by
  by_cases hk : k = place
  · subst hk
    exact absurd h (not_answers hq ho a)
  · exact (answers_resolve_of_ne hk o a).2 h

theorem requests_resolve (hq : s.served[place]? = some q) (o : Outcome) :
    (s.resolve place q o).served.map (fun q => (q.id, q.body)) =
      s.served.map fun q => (q.id, q.body) := by
  have hval : (s.served.map fun q => (q.id, q.body))[place]? = some (q.id, q.body) := by
    rw [List.getElem?_map, hq, Option.map_some]
  obtain ⟨hlt, hval⟩ := List.getElem?_eq_some_iff.1 hval
  have hset := List.set_getElem_self hlt
  rw [hval] at hset
  rw [resolve, List.map_set]
  exact hset

theorem answers_resolve (s : Session ι κ) (place : Nat) (q : Service κ) (o : Outcome) :
    (s.resolve place q o).answers =
      if s.connection.attended then s.answers ++ [(q.id, o.reply)] else s.answers := by
  simp only [answers, out, resolve, Connection.answer, Connection.frames_post]
  split_ifs <;> simp

end resolve

theorem answer_asks_alike (x : Session ι κ) (id : UInt32) (o : Outcome)
    (served : List (Service κ)) :
    AsksAlike x { x with connection := x.connection.answer (o.envelope id), served := served } := by
  refine ⟨?_, ?_, ?_, rfl, .refl _, ?_⟩
  · simp [Connection.answer]
  · simp [Connection.answer]
  · simp [Connection.answer]
  · simp only [asks, out, Connection.answer, Connection.frames_post]
    split_ifs <;> simp

theorem serves_alike_receive {y : Session ι κ} {frame : Bytes} (h : Frame.ask? frame = none) :
    ServesAlike y (y.receive frame) := by
  cases hr : Frame.reply? frame with
  | none =>
    rw [receive_of_neither h hr]
    exact .refl y
  | some a =>
    rcases receive_of_reply (s := y) hr with ⟨n, -, heq⟩ | ⟨-, heq⟩
    · rw [heq]
      exact ⟨rfl, rfl, rfl⟩
    · rw [heq]
      exact .refl y

theorem asks_alike_receive {x : Session ι κ} {frame : Bytes} (h : Frame.reply? frame = none) :
    AsksAlike x (x.receive frame) := by
  cases ha : Frame.ask? frame with
  | none =>
    rw [receive_of_neither ha h]
    exact .refl x
  | some a =>
    rw [receive_of_ask ha]
    split_ifs
    · exact ⟨rfl, .rfl, rfl, rfl, .refl _, rfl⟩
    · exact answer_asks_alike x a.1 _ _

end Parley.Session
