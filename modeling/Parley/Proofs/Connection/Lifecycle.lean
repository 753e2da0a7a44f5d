import Mathlib
import Parley.Proofs.Connection.Fate
import Parley.Simulation.Handler

/-!
# The lifecycle of a session

A session passes from stage to stage by few events and never back. At the end it is spent: nothing
waits, nothing can be sent, and no frame reaches a waiter any more. A call that still waited when
the end came is told so.
-/

namespace Parley

/-- How a call ends that waits for the reply to try `n`: with the reply its waiter ran with, or,
when the waiter was dropped, with the error that says so. -/
def Reply.awaited (ran : List (Nat × Reply)) (dropped : List Nat) (n : Nat) :
    Option (Except Error Reply) :=
  match ran.find? (·.1 == n) with
  | some (_, r) => some (.ok r)
  | none => if n ∈ dropped then some (.error Simulation.closedBeforeResponse) else none

namespace Connection
variable {ω ι κ : Type}

theorem sendInfo_of_not_opened {c : Connection ω ι κ} (h : c.state ≠ .opened) (body : Bytes) :
    c.sendInfo body = (.error .notConnected, c) := by
  simp only [sendInfo, transmit, h, false_and, if_false]

theorem sendRequest_state (c : Connection ω ι κ) (body : Bytes) (waiter : ω) :
    (c.sendRequest body waiter).2.state = c.state := by
  rcases c.sendRequest_cases body waiter with ⟨token, sent, heq, hasked⟩ | ⟨e, heq⟩
  · rw [heq, hasked.rest]
  · rw [heq]

theorem sendInfo_state (c : Connection ω ι κ) (body : Bytes) :
    (c.sendInfo body).2.state = c.state := by
  simp only [sendInfo, transmit]
  split_ifs
  · exact post_state _ _
  · rfl

theorem receive_state (c : Connection ω ι κ) (frame : Bytes) :
    (c.receive frame).2.state = c.state := (c.receive_keeps frame).state

theorem state_le_close (c : Connection ω ι κ) : c.state ≤ c.close.state := by
  unfold close
  cases hs : c.state with
  | connecting => simpa using (by decide : Lifecycle.connecting ≤ .closing)
  | opened => simpa using (by decide : Lifecycle.opened ≤ .closing)
  | closing => simpa only [hs] using Lifecycle.le_refl _
  | closed => simpa only [hs] using Lifecycle.le_refl _

theorem closing_le_close (c : Connection ω ι κ) : .closing ≤ c.close.state := by
  unfold close
  cases hs : c.state with
  | connecting => simpa using Lifecycle.le_refl _
  | opened => simpa using Lifecycle.le_refl _
  | closing => simpa only [hs] using Lifecycle.le_refl _
  | closed => simpa only [hs] using Lifecycle.le_closed _

structure Spent (c : Connection ω ι κ) : Prop where
  closed : c.state = .closed
  pending : c.pending.isEmpty = true
  receive : ∀ frame waiter r, (c.receive frame).1 ≠ some (.conclude waiter r)
  sendRequest : ∀ body waiter, c.sendRequest body waiter = (.error .notConnected, c)
  sendInfo : ∀ body, c.sendInfo body = (.error .notConnected, c)

theorem receive_of_isEmpty {c : Connection ω ι κ} (h : c.pending.isEmpty = true) (frame : Bytes)
    (waiter : ω) (r : Reply) : (c.receive frame).1 ≠ some (.conclude waiter r) := by
  have hnone := Token.Store.isEmpty_iff.1 h
  cases ha : Frame.ask? frame with
  | some a =>
    rw [Connection.receive_of_ask ha]
    cases c.request <;> simp
  | none =>
    cases hr : Frame.reply? frame with
    | some a => simp [Connection.receive_of_reply hr, conclude_of_none (hnone _)]
    | none =>
      rcases receive_of_neither (c := c) ha hr with heq | ⟨handler, body, heq⟩ <;> simp [heq]

theorem spent_of_closed {c : Connection ω ι κ} (hs : c.state = .closed)
    (hp : c.pending.isEmpty = true) : c.Spent := by
  have hno : c.state ≠ .opened := by simp [hs]
  exact ⟨hs, hp, receive_of_isEmpty hp, sendRequest_of_not_opened hno, sendInfo_of_not_opened hno⟩

end Connection

namespace Session
variable {ι κ : Type} {s : Session ι κ}

inductive Passes : Event ι κ → Lifecycle → Lifecycle → Prop where
  | stay (e : Event ι κ) (a : Lifecycle) : Passes e a a
  | handshake : Passes (.move .markOpen) .connecting .opened
  | asked {a : Lifecycle} (h : a.rank < Lifecycle.closing.rank) : Passes (.move .close) a .closing
  | byPeer : Passes (.move .markClosing) .opened .closing
  | gone (a : Lifecycle) : Passes (.move .markClosed) a .closed

theorem receive_state (s : Session ι κ) (frame : Bytes) :
    (s.receive frame).connection.state = s.connection.state := by
  rw [← s.connection.receive_state frame]
  unfold receive
  split <;> rename_i heq <;> rw [heq]

theorem ask_state (s : Session ι κ) (body : Bytes) :
    (s.ask body).connection.state = s.connection.state := by
  rw [← s.connection.sendRequest_state body s.tries]
  unfold ask
  split <;> rename_i heq <;> rw [heq]

theorem step_passes (s : Session ι κ) (e : Event ι κ) :
    Passes e s.connection.state (s.step e).connection.state := by
  have hstay : ∀ {a}, a = s.connection.state → Passes e s.connection.state a := by
    rintro a rfl
    exact .stay e _
  cases e with
  | frame bytes => exact hstay (s.receive_state bytes)
  | move m =>
    cases m with
    | ask body => exact hstay (s.ask_state body)
    | tell body => exact hstay (s.connection.sendInfo_state body)
    | finish place o =>
      refine hstay ?_
      rcases s.finish_cases place o with ⟨q, -, -, heq⟩ | heq
      · simp only [step, move, heq, resolve, Connection.answer, Connection.post_state]
      · simp only [step, move, heq]
    | wake place =>
      refine hstay ?_
      simp only [step, move, wake]
      split <;> rfl
    | setInfo handler => exact hstay rfl
    | setRequest handler => exact hstay rfl
    | close =>
      simp only [step, move, Connection.close]
      cases hs : s.connection.state with
      | connecting => simpa using Passes.asked (by decide)
      | opened => simpa using Passes.asked (by decide)
      | closing => simpa [hs] using Passes.stay _ _
      | closed => simpa [hs] using Passes.stay _ _
    | markOpen =>
      simp only [step, move, Connection.markOpen]
      split_ifs with hs
      · rw [hs]
        exact .handshake
      · exact .stay _ _
    | markClosing =>
      simp only [step, move, Connection.markClosing]
      split_ifs with hs
      · rw [hs]
        exact .byPeer
      · exact .stay _ _
    | markClosed => exact .gone _
    | abandon => exact hstay rfl
    | carry =>
      refine hstay ?_
      simp only [step, move, carry]
      split <;> rfl

theorem Passes.le {e : Event ι κ} {a b : Lifecycle} (h : Passes e a b) : a ≤ b := by
  cases h with
  | stay => exact a.le_refl
  | handshake => decide
  | asked h => exact Nat.le_of_lt h
  | byPeer => decide
  | gone => exact a.le_closed

theorem state_le_step (s : Session ι κ) (e : Event ι κ) :
    s.connection.state ≤ (s.step e).connection.state :=
  (s.step_passes e).le

theorem state_le_run (s : Session ι κ) (events : List (Event ι κ)) :
    s.connection.state ≤ (s.run events).connection.state := by
  induction events generalizing s with
  | nil => exact s.connection.state.le_refl
  | cons e rest ih => exact Lifecycle.le_trans (s.state_le_step e) (ih (s.step e))

theorem run_append (s : Session ι κ) (before after : List (Event ι κ)) :
    s.run (before ++ after) = (s.run before).run after :=
  List.foldl_append

theorem closing_le_of_close (s : Session ι κ) {events : List (Event ι κ)}
    (h : .move .close ∈ events) : .closing ≤ (s.run events).connection.state := by
  obtain ⟨before, after, rfl⟩ := List.append_of_mem h
  have hclose : .closing ≤ ((s.run before).step (.move .close)).connection.state :=
    Connection.closing_le_close _
  rw [run_append]
  exact Lifecycle.le_trans hclose (state_le_run _ after)

def Opens (s : Session ι κ) (e : Event ι κ) : Prop :=
  s.connection.state ≠ .opened ∧ (s.step e).connection.state = .opened

theorem Opens.handshake {e : Event ι κ} (h : s.Opens e) :
    s.connection.state = .connecting ∧ e = .move .markOpen := by
  obtain ⟨hne, heq⟩ := h
  have hpass := s.step_passes e
  rw [heq] at hpass
  generalize s.connection.state = a at hne hpass
  cases hpass with
  | stay => exact absurd rfl hne
  | handshake => exact ⟨rfl, rfl⟩

structure Placed (s : Session ι κ) : Prop where
  numbered : s.Numbered
  stands : ∀ t n, s.connection.pending.get? t = some n → ∃ token, s.Stands n (some token) [] 0

theorem placed_start (state : Lifecycle) (info : Option ι) (request : Option κ) :
    (start state info request).Placed :=
  ⟨numbered_start state info request, by simp [start]⟩

theorem Placed.ask (h : s.Placed) (body : Bytes) {t n : Nat}
    (hn : (s.ask body).connection.pending.get? t = some n) :
    ∃ token, (s.ask body).Stands n (some token) [] 0 := by
  have hold : s.connection.pending.get? t = some n →
      ∃ token, (s.ask body).Stands n (some token) [] 0 := by
    intro hget
    obtain ⟨token, hstands⟩ := h.stands t n hget
    exact ⟨token, hstands.ask (h.numbered.pending t n hget) body⟩
  rcases s.ask_cases body with ⟨token, c, -, hc, heq⟩ | ⟨e, -, heq⟩
  · rw [heq] at hn
    rw [hc.get?] at hn
    split_ifs at hn with ht
    · obtain rfl := Option.some.inj hn
      have hnext := stands_next h.numbered
      refine ⟨token, ?_⟩
      rw [heq]
      refine ⟨fun u => ?_, hnext.replies, hnext.dropped⟩
      rw [hc.get?]
      split_ifs with hu
      · simp [hu]
      · rw [hnext.pending u]
        simpa [eq_comm] using hu
    · exact hold hn
  · rw [heq] at hn
    exact hold hn

theorem Placed.receive (h : s.Placed) (frame : Bytes) {t n : Nat}
    (hn : (s.receive frame).connection.pending.get? t = some n) :
    ∃ token, (s.receive frame).Stands n (some token) [] 0 := by
  have hget : s.connection.pending.get? t = some n := by
    cases ha : Frame.ask? frame with
    | some a =>
      rw [receive_of_ask ha] at hn
      split_ifs at hn
      · exact hn
      · simpa [Connection.answer] using hn
    | none =>
      cases hr : Frame.reply? frame with
      | none => rwa [receive_of_neither ha hr] at hn
      | some a =>
        rcases receive_of_reply (s := s) hr with ⟨m, -, heq⟩ | ⟨-, heq⟩
        · rw [heq, Token.Store.get?_erase, Option.ite_none_left_eq_some] at hn
          exact hn.2
        · rwa [heq] at hn
  obtain ⟨token, hstands⟩ := h.stands t n hget
  by_cases hreply : ∃ r, Frame.reply? frame = some (token, r)
  · obtain ⟨r, hr⟩ := hreply
    have htold := (hstands.receive_told hr rfl).pending t
    exact absurd (htold.1 hn) (by simp)
  · refine ⟨token, hstands.receive fun id r hr hid => hreply ⟨r, ?_⟩⟩
    rw [hr, Option.some.inj hid]

theorem Placed.step (h : s.Placed) (e : Event ι κ) : (s.step e).Placed := by
  refine ⟨h.numbered.step e, fun t n hn => ?_⟩
  cases e with
  | frame bytes => exact h.receive bytes hn
  | move m =>
    by_cases hm : m.Quiet
    · have hagrees := agrees_of_quiet s hm
      rw [Session.step, hagrees.pending] at hn
      obtain ⟨token, hstands⟩ := h.stands t n hn
      exact ⟨token, hstands.of_agrees (by simp) hagrees⟩
    · cases m with
      | ask body => exact h.ask body hn
      | finish place o =>
        have hget : s.connection.pending.get? t = some n := by
          rcases s.finish_cases place o with ⟨q, -, -, heq⟩ | heq
          · simpa [Session.step, move, heq, resolve, Connection.answer] using hn
          · simpa [Session.step, move, heq] using hn
        obtain ⟨token, hstands⟩ := h.stands t n hget
        exact ⟨token, hstands.finish place o⟩
      | markClosed =>
        exact absurd hn (by simp [Session.step, move, Connection.markClosed, Connection.drain,
          Token.Store.drain])
      | abandon =>
        obtain ⟨token, hstands⟩ := h.stands t n hn
        exact ⟨token, hstands.pending, hstands.replies, hstands.dropped⟩
      | _ => exact absurd trivial hm

def Drained (s : Session ι κ) : Prop :=
  s.connection.state = .closed → s.connection.pending.isEmpty = true

theorem Drained.ask (h : s.Drained) (body : Bytes) : (s.ask body).Drained := by
  intro hs
  rw [ask_state] at hs
  have hno : s.connection.state ≠ .opened := by simp [hs]
  have herror := Connection.sendRequest_of_not_opened hno body s.tries
  simpa only [Session.ask, herror] using h hs

theorem Drained.receive (h : s.Drained) (frame : Bytes) : (s.receive frame).Drained := by
  intro hs
  rw [receive_state] at hs
  have hnone := Token.Store.isEmpty_iff.1 (h hs)
  cases ha : Frame.ask? frame with
  | some a =>
    rw [receive_of_ask ha]
    split_ifs
    · exact h hs
    · simpa [Connection.answer] using h hs
  | none =>
    cases hr : Frame.reply? frame with
    | none => simpa only [receive_of_neither ha hr] using h hs
    | some a =>
      rcases receive_of_reply (s := s) hr with ⟨n, hn, -⟩ | ⟨-, heq⟩
      · rw [hnone] at hn
        simp at hn
      · simpa only [heq] using h hs

theorem Drained.step (h : s.Drained) (e : Event ι κ) : (s.step e).Drained := by
  cases e with
  | frame bytes => exact h.receive bytes
  | move m =>
    by_cases hm : m.Quiet
    · have hagrees := agrees_of_quiet s hm
      intro hs
      rw [Session.step, hagrees.pending]
      exact h (hagrees.closed.1 hs)
    · cases m with
      | ask body => exact h.ask body
      | finish place o =>
        intro hs
        rcases s.finish_cases place o with ⟨q, -, -, heq⟩ | heq
        · simp only [Session.step, move, heq, resolve, Connection.answer, Connection.post_state,
            Connection.post_pending] at hs ⊢
          exact h hs
        · simp only [Session.step, move, heq] at hs ⊢
          exact h hs
      | markClosed => exact fun _ => rfl
      | abandon => exact h
      | _ => exact absurd trivial hm

def callEnd (s : Session ι κ) (n : Nat) : Option (Except Error Reply) :=
  Reply.awaited s.ran s.dropped n

theorem Stands.callEnd_of_dropped {n : Nat} (h : s.Stands n none [] 1) :
    s.callEnd n = some (.error Simulation.closedBeforeResponse) := by
  have hran : s.ran.find? (·.1 == n) = none := by
    have hnone := h.replies
    rw [replies_eq_append, List.append_eq_nil_iff, List.map_eq_nil_iff] at hnone
    rw [List.find?_eq_none]
    intro p hp
    simpa using List.filter_eq_nil_iff.1 (List.map_eq_nil_iff.1 hnone.2) p hp
  have hdropped : n ∈ s.dropped := List.count_pos_iff.1 (by rw [h.dropped]; exact Nat.one_pos)
  simp only [callEnd, Reply.awaited, hran, if_pos hdropped]

/-- A session goes through its stages forward only: it opens at most once, out of connecting, by the
handshake, and never after a close was asked for. A closed session is spent for good. A call whose
waiter is still there when the end comes ends with the error that says so. -/
theorem forward_to_the_end (state : Lifecycle) (info : Option ι) (request : Option κ)
    (before after : List (Event ι κ)) :
    let s := (start state info request).run before
    let later := s.run after
    s.connection.state ≤ later.connection.state ∧
      (∀ e, s.Opens e → s.connection.state = .connecting ∧ e = .move .markOpen ∧
        .move .close ∉ before ∧ ∀ f, ¬ ((s.step e).run after).Opens f) ∧
      (s.connection.state = .closed → later.connection.Spent) ∧
      ∀ t n, s.connection.pending.get? t = some n →
        (s.run (.move .markClosed :: after)).callEnd n =
          some (.error (.transport "connection closed before response")) := by
  intro s later
  have hplaced : s.Placed :=
    run_keeps (fun _ e h => h.step e) (placed_start state info request) before
  have hdrained : s.Drained := run_keeps (fun _ e h => h.step e)
    (fun _ => by rfl : (start state info request).Drained) before
  refine ⟨s.state_le_run after, fun e hopens => ?_, fun hclosed => ?_, fun t n hn => ?_⟩
  · obtain ⟨hconnecting, rfl⟩ := hopens.handshake
    refine ⟨hconnecting, rfl, fun hclose => ?_, fun f hagain => ?_⟩
    · have hle := (start state info request).closing_le_of_close hclose
      rw [show ((start state info request).run before).connection.state = .connecting from
        hconnecting] at hle
      exact absurd hle (by decide)
    · have hle := (s.step (.move .markOpen)).state_le_run after
      rw [hopens.2, hagain.handshake.1] at hle
      exact absurd hle (by decide)
  · have hle := s.state_le_run after
    rw [hclosed] at hle
    have hlater : later.connection.state = .closed :=
      Lifecycle.le_antisymm (Lifecycle.le_closed _) hle
    have hempty := run_keeps (fun _ e h => h.step e) hdrained after hlater
    exact Connection.spent_of_closed hlater hempty
  · obtain ⟨token, hstands⟩ := hplaced.stands t n hn
    have hgone := hstands.markClosed
    have hlt : n < (s.move .markClosed).tries := hplaced.numbered.pending t n hn
    exact Stands.callEnd_of_dropped (hgone.run hlt (by simp) after)

theorem forward_to_the_end_unanswered :
    let fresh : Session Unit Unit := start .connecting none none
    let asking := fresh.run [.move .markOpen, .move (.ask [1])]
    let closed := asking.run [.move .close, .move .markClosed]
    (fresh.Opens (.move .markOpen) ∧ ¬ asking.Opens (.move .markOpen)) ∧
      (closed.connection.state = .closed ∧ closed.connection.Spent) ∧
      asking.connection.pending.get? 0 = some 0 ∧
      (asking.run [.move .markClosed]).callEnd 0 =
        some (.error (.transport "connection closed before response")) := by
  intro fresh asking closed
  have hopens : fresh.Opens (.move .markOpen) := ⟨by decide, by decide⟩
  have hclosed : closed.connection.state = .closed := by decide
  have hwaits : asking.connection.pending.get? 0 = some 0 := by decide
  refine ⟨⟨hopens, ?_⟩, ⟨hclosed, ?_⟩, hwaits, ?_⟩
  · exact ((forward_to_the_end .connecting none none [] [.move (.ask [1])]).2.1 _ hopens).2.2.2 _
  · exact (forward_to_the_end .connecting none none
      [.move .markOpen, .move (.ask [1]), .move .close, .move .markClosed] []).2.2.1 hclosed
  · exact (forward_to_the_end .connecting none none [.move .markOpen, .move (.ask [1])] []).2.2.2
      0 0 hwaits

end Session
end Parley
