import Mathlib
import Parley.Proofs.Conversation.Tie

/-!
# What a waiter is told

A waiter is told how the run for its own request ended, at most once; and when both sides have come
to rest, every waiter was told.
-/

namespace Parley

namespace Session
variable {ι κ : Type}

/-- Requests that found no handler, and only these, were answered without a run. -/
def Refuses (s : Session ι κ) : Prop :=
  ∀ q ∈ s.served, q.handler = none → q.outcome = some (.failed Outcome.noHandler)

theorem Refuses.finish {s : Session ι κ} (h : s.Refuses) (place : Nat) (o : Outcome) :
    (s.finish place o).Refuses := by
  rcases s.finish_cases place o with ⟨q, hq, ho, heq⟩ | heq
  · rw [heq]
    intro r hmem hnone
    rcases List.mem_or_eq_of_mem_set hmem with hmem | rfl
    · exact h r hmem hnone
    · have hfail := h q (List.mem_of_getElem? hq) hnone
      rw [ho] at hfail
      simp at hfail
  · rw [heq]
    exact h

theorem Refuses.receive {s : Session ι κ} (h : s.Refuses) (frame : Bytes) :
    (s.receive frame).Refuses := by
  cases ha : Frame.ask? frame with
  | some a =>
    rw [receive_of_ask ha]
    intro q hmem hnone
    rcases List.mem_append.1 hmem with hmem | hmem
    · exact h q hmem hnone
    · obtain rfl := List.mem_singleton.1 hmem
      simp only [Service.begin] at hnone ⊢
      rw [hnone]
      rfl
  | none =>
    intro q hmem
    rw [(serves_alike_receive ha).served] at hmem
    exact h q hmem

theorem Refuses.step {s : Session ι κ} (h : s.Refuses) (e : Event ι κ) : (s.step e).Refuses := by
  cases e with
  | frame bytes => exact h.receive bytes
  | move m =>
    by_cases hm : m.Quiet
    · intro q hmem
      rw [Session.step, (agrees_of_quiet s hm).served] at hmem
      exact h q hmem
    · cases m with
      | ask body =>
        rcases s.ask_cases body with ⟨token, c, -, -, heq⟩ | ⟨e, -, heq⟩
        · rw [Session.step, move, heq]
          exact h
        · rw [Session.step, move, heq]
          exact h
      | finish place o => exact h.finish place o
      | markClosed => exact h
      | abandon => exact h
      | _ => exact absurd trivial hm

/-- Nothing is left to do for an open side: no frame is on its way, every run has ended, and every
waiter that was handed a reply has run. Someone still takes commands, so no frame was lost. -/
structure Idle (s : Session ι κ) : Prop where
  opened : s.connection.state = .opened
  attended : s.connection.attended = true
  out : s.out = []
  ended : ∀ q ∈ s.served, q.outcome.isSome
  due : s.due = []

end Session

namespace Conversation
open Session
variable {ι κ : Type}

def crossing : List (Event Unit Unit) :=
  [.move .left (.ask [1]), .move .left (.ask [2]), .move .right (.ask [3]), .move .left .carry,
    .move .right .carry, .deliver .left, .deliver .right, .move .left .carry, .move .left .carry,
    .deliver .left, .deliver .left, .move .right (.finish 1 (.done [4])),
    .move .right (.finish 0 (.panicked none)), .move .right .carry, .move .right .carry,
    .deliver .right, .deliver .right, .move .left (.wake 1), .move .left (.wake 0),
    .move .right (.wake 0)]

def crossed : Conversation Unit Unit :=
  (start (fun _ => .opened) (fun _ => none) fun p => if p = .right then some () else none).run
    crossing

/-- In every conversation, a waiter that runs gets the end of the run for the very request it
belongs to: the one that arrived in the place in which the request was sent, with the same body. A
request that found no handler ended in the failure that says so. No waiter runs twice. -/
theorem reply_of_own_run (state : Party → Lifecycle) (info : Party → Option ι)
    (request : Party → Option κ) (events : List (Event ι κ)) (p : Party) :
    let c := (start state info request).run events
    let x := c.side p
    let y := c.side p.other
    (x.asked.map (·.1)).Nodup ∧ (x.ran.map (·.1)).Nodup ∧
      y.served.map (·.body) <+: x.asked.map (·.2) ∧
      ∀ n r, (n, r) ∈ x.ran → ∃ (k : Nat) (q : Service κ) (o : Outcome),
        x.asked[k]? = some (n, q.body) ∧ y.served[k]? = some q ∧ q.outcome = some o ∧
        r = o.reply ∧ (q.handler = none → o = .failed Outcome.noHandler) := by
  intro c x y
  have hsound : c.Sound := sound_run state info request events
  have hrefuses : ∀ p, (c.side p).Refuses := run_keeps (P := fun c => ∀ p, (c.side p).Refuses)
    (fun c e h => side_keeps (fun s e hs => hs.step e) (fun s wire hs => hs) h e)
    (fun p => by simp [side_start, Refuses, Session.start]) events
  obtain ⟨book, places, h⟩ := hsound.tied p
  refine ⟨?_, ?_, ?_, fun n r hran => ?_⟩
  · rw [h.asked, List.map_map]
    exact h.numbers
  · have honce := h.once
    rw [told, handed, List.map_append] at honce
    exact honce.of_append_right
  · obtain ⟨lost, hbook, -⟩ := h.requests
    have hbodies := congrArg (List.map (·.2)) hbook
    simp only [List.map_append, List.map_map, List.append_assoc] at hbodies
    rw [h.asked, List.map_map]
    exact ⟨_, hbodies⟩
  · obtain ⟨k, e, he, hn, q, o, hq, ho, ha⟩ := h.told (n, r) (List.mem_append_right _ hran)
    obtain ⟨d, hd, -, hbody⟩ := h.token_of_served hq
    obtain rfl := Option.some.inj (he.symm.trans hd)
    refine ⟨k, q, o, ?_, hq, ho, congrArg Prod.snd ha, fun hnone => ?_⟩
    · rw [h.asked, List.getElem?_map, he, Option.map_some, hn, hbody]
    · have hfail := hrefuses p.other q (List.mem_of_getElem? hq) hnone
      exact Option.some.inj (ho.symm.trans hfail)

theorem reply_of_own_run_crossed :
    (1, Reply.ok [4]) ∈ crossed.left.ran ∧ ∃ (k : Nat) (q : Service Unit) (o : Outcome),
      crossed.left.asked[k]? = some (1, q.body) ∧ crossed.right.served[k]? = some q ∧
      q.outcome = some o ∧ Reply.ok [4] = o.reply ∧
      (q.handler = none → o = .failed Outcome.noHandler) := by
  have hran : (1, Reply.ok [4]) ∈ crossed.left.ran := by decide
  exact ⟨hran, (reply_of_own_run _ _ _ crossing .left).2.2.2 _ _ hran⟩

/-- When both sides are idle, no waiter waits, and each one whose request was sent ran once. -/
theorem idle_answered (state : Party → Lifecycle) (info : Party → Option ι)
    (request : Party → Option κ) (events : List (Event ι κ)) :
    let c := (start state info request).run events
    (∀ p, (c.side p).Idle) → ∀ p, (c.side p).connection.pending.isEmpty = true ∧
      ∀ n body, (n, body) ∈ (c.side p).asked → ((c.side p).ran.map (·.1)).count n = 1 := by
  intro c hidle p
  obtain ⟨book, places, h⟩ := (sound_run state info request events).tied p
  have hx := hidle p
  have hy := hidle p.other
  have hopen : (c.side p).connection.state ≠ .closed := by simp [hx.opened]
  have hplaces : places = [] := by
    have hans := h.answers
    rw [Session.answers, hy.out] at hans
    exact List.forall₂_nil_right_iff.1 hans
  have hserved : (c.side p.other).served.length = book.length := by
    obtain ⟨lost, hbook, hlost⟩ := h.requests
    have hlen := congrArg List.length hbook
    rw [hlost hx.attended, asks, hx.out] at hlen
    simpa using hlen
  have htold : ∀ e ∈ book, e.number ∈ (c.side p).told := by
    intro e he
    by_contra hn
    obtain ⟨k, hk⟩ := List.mem_iff_getElem?.1 he
    have hlt : k < (c.side p.other).served.length := by
      rw [hserved]
      exact (List.getElem?_eq_some_iff.1 hk).1
    obtain ⟨o, ho⟩ := Option.isSome_iff_exists.1 (hy.ended _ (List.getElem_mem hlt))
    have hplace := h.answered hy.attended hopen k e _ hk
      ⟨_, o, List.getElem?_eq_getElem hlt, ho, rfl⟩ hn
    rw [hplaces] at hplace
    exact absurd hplace List.not_mem_nil
  refine ⟨?_, fun n body hasked => ?_⟩
  · rw [Token.Store.isEmpty_iff]
    intro t
    cases hget : (c.side p).connection.pending.get? t with
    | none => rfl
    | some n =>
      obtain ⟨-, e, he, -, rfl, hn⟩ := (h.pending t n).1 hget
      exact absurd (htold e he) hn
  · rw [h.asked] at hasked
    obtain ⟨e, he, heq⟩ := List.mem_map.1 hasked
    obtain rfl : e.number = n := congrArg Prod.fst heq
    have hran : (c.side p).told = (c.side p).ran.map (·.1) := by
      rw [told, handed, hx.due, List.nil_append]
    rw [← hran]
    exact List.count_eq_one_of_mem h.once (htold e he)

theorem idle_answered_crossed :
    (∀ p, (crossed.side p).Idle) ∧ ∀ p, (crossed.side p).connection.pending.isEmpty = true ∧
      ∀ n body, (n, body) ∈ (crossed.side p).asked →
        ((crossed.side p).ran.map (·.1)).count n = 1 := by
  have hidle : ∀ p, (crossed.side p).Idle := fun p => by
    cases p <;> exact ⟨by decide, by decide, by decide, by decide, by decide⟩
  exact ⟨hidle, idle_answered _ _ _ crossing hidle⟩

end Conversation
end Parley
