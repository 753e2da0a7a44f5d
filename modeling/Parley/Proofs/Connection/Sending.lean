import Mathlib
import Parley.Proofs.Connection.Fate
import Parley.Proofs.Token.Allocation

/-!
# All or nothing

A request is sent or something bars it. A request that is barred leaves the connection as it was,
even where its waiter was kept for a moment, and the waiter never runs.
-/

namespace Parley
namespace Connection
variable {ω ι κ : Type} {c : Connection ω ι κ} {e : Error}

inductive Bars (c : Connection ω ι κ) : Error → Prop where
  | shut (hs : c.state ≠ .opened) : Bars c .notConnected
  | full (hs : c.state = .opened) (hfull : ∀ t < 2 ^ 32, ∃ v, c.pending.get? t = some v) :
    Bars c .capacity
  | unattended (hs : c.state = .opened) (ha : c.attended = false) {t : Nat} (ht : t < 2 ^ 32)
    (hfree : c.pending.get? t = none) : Bars c .notConnected

theorem add_pending_eq_error_iff {waiter : ω} : c.pending.add waiter = .error e ↔
    (∀ t < 2 ^ 32, ∃ v, c.pending.get? t = some v) ∧ e = .capacity := by
  simp only [Token.Store.add_eq_error_iff, mem_word_iff]
  rfl

theorem exists_free_of_add {waiter : ω} {r : Nat × Token.Store (.word 32) ω}
    (h : c.pending.add waiter = .ok r) : ∃ t < 2 ^ 32, c.pending.get? t = none := by
  obtain ⟨-, hmem, hfree, -⟩ := Token.Store.add_spec h
  exact ⟨r.1, mem_word_iff.1 hmem, hfree⟩

theorem Bars.sendRequest (h : c.Bars e) (body : Bytes) (waiter : ω) :
    c.sendRequest body waiter = (.error e, c) := by
  cases h with
  | shut hs => exact sendRequest_of_not_opened hs body waiter
  | full hs hfull =>
    exact sendRequest_of_add_error hs (add_pending_eq_error_iff.2 ⟨hfull, rfl⟩)
  | unattended hs ha ht hfree =>
    rename_i t
    cases hadd : c.pending.add waiter with
    | error e =>
      obtain ⟨v, hv⟩ := (add_pending_eq_error_iff.1 hadd).1 t ht
      simp [hfree] at hv
    | ok r => exact sendRequest_of_unattended hs ha hadd

theorem sent_or_bars (c : Connection ω ι κ) (body : Bytes) (waiter : ω) :
    (∃ token c', c.sendRequest body waiter = (.ok (), c') ∧ Asked c c' token body waiter) ∨
      ∃ e, c.Bars e := by
  by_cases hs : c.state = .opened
  · cases hadd : c.pending.add waiter with
    | error e =>
      obtain ⟨hfull, rfl⟩ := add_pending_eq_error_iff.1 hadd
      exact .inr ⟨_, .full hs hfull⟩
    | ok r =>
      cases ha : c.attended with
      | true => exact .inl (sendRequest_of_attended hs ha hadd)
      | false =>
        obtain ⟨t, ht, hfree⟩ := exists_free_of_add hadd
        exact .inr ⟨_, .unattended hs ha ht hfree⟩
  · exact .inr ⟨_, .shut hs⟩

theorem sendRequest_eq_error_iff {body : Bytes} {waiter : ω} :
    (c.sendRequest body waiter).1 = .error e ↔ c.Bars e := by
  constructor
  · intro h
    rcases c.sent_or_bars body waiter with ⟨token, c', hsend, -⟩ | ⟨e', hbars⟩
    · simp [hsend] at h
    · rw [hbars.sendRequest] at h
      obtain rfl := Except.error.inj h
      exact hbars
  · intro h
    rw [h.sendRequest]

end Connection

theorem Session.stands_of_bars {ι κ : Type} {s : Session ι κ} {e : Error}
    (h : s.connection.Bars e) (hnew : s.Stands s.tries none [] 0) (body : Bytes)
    (events : List (Event ι κ)) :
    (s.run (.move (.ask body) :: events)).Stands s.tries none [] 0 := by
  have hask : s.ask body = { s with tries := s.tries + 1 } := by
    simp only [ask, h.sendRequest]
  have hstands : (s.ask body).Stands s.tries none [] 0 := by
    rw [hask]
    exact ⟨hnew.pending, hnew.replies, hnew.dropped⟩
  have hlt : s.tries < (s.ask body).tries := by
    rw [hask]
    exact Nat.lt_succ_self _
  exact hstands.run hlt (Nat.zero_le _) events

namespace Connection
variable {ι κ : Type}

/-- A request fails when the connection is not open, when all tokens are live, or when nobody takes
its frame. The connection is then exactly as before, and a waiter that was not in it is handed
nothing, whatever happens afterwards. A request that is sent went out over an open connection: one
frame was queued, which reads as a request with the body and a token that was not live, the waiter
is kept under this token, and nothing else changed. -/
theorem sendRequest_all_or_nothing (c : Connection Nat ι κ) (body : Bytes) (waiter : Nat) :
    (∀ e, (c.sendRequest body waiter).1 = .error e ↔ c.Bars e) ∧
    match c.sendRequest body waiter with
    | (.error _, later) => later = c ∧
        ((∀ t, c.pending.get? t ≠ some waiter) → ∀ events : List (Session.Event ι κ),
          let s : Session ι κ := { connection := c, tries := waiter }
          (s.run (.move (.ask body) :: events)).replies waiter = [])
    | (.ok (), later) => c.state = .opened ∧ ∃ token frame,
        later.queue = c.queue ++ [.frame frame] ∧
        Envelope.decode frame = .ok (Envelope.request token body) ∧
        c.pending.get? token.toNat = none ∧
        (∀ t, later.pending.get? t =
          if t = token.toNat then some waiter else c.pending.get? t) ∧
        later = { c with pending := later.pending, queue := later.queue } := by
  refine ⟨fun e => sendRequest_eq_error_iff, ?_⟩
  rcases c.sent_or_bars body waiter with ⟨token, c', hsend, hasked⟩ | ⟨e, hbars⟩
  · simp only [hsend]
    exact ⟨hasked.opened, token, _, hasked.queue, Envelope.decode_encode _, hasked.fresh,
      hasked.get?, hasked.rest⟩
  · simp only [hbars.sendRequest, true_and]
    intro hnew events
    have hstands : ({ connection := c, tries := waiter } : Session ι κ).Stands waiter none [] 0 :=
      ⟨fun t => by simp [hnew t], rfl, rfl⟩
    exact (Session.stands_of_bars hbars hstands body events).replies

theorem sendRequest_all_or_nothing_gap :
    let gap : Token.Store (.word 32) Nat := (((Token.Store.empty.insert 0 (by decide) 10).insert 2
      (by decide) 11).insert 4294967295 (by decide) 12)
    let busy : Connection Nat Unit Unit := { state := .opened, pending := gap, queue := [.close] }
    let lost : Connection Nat Unit Unit := { state := .opened, pending := gap, attended := false }
    (∃ token frame, (busy.sendRequest [5] 7).2.queue = [.close, .frame frame] ∧
      Envelope.decode frame = .ok (Envelope.request token [5]) ∧
      gap.get? token.toNat = none) ∧
    ((lost.sendRequest [5] 7).1 = .error .notConnected ∧
      (Session.run { connection := lost, tries := 7 } [.move (.ask [5]),
        .frame (Envelope.response 1 [9]).encode]).replies 7 = []) ∧
    ∃ c : Connection Nat Unit Unit, (c.sendRequest [5] 7).1 = .error .capacity := by
  intro gap busy lost
  refine ⟨?_, ⟨?_, ?_⟩, ?_⟩
  · obtain ⟨-, token, frame, hqueue, hdecode, hfree, -⟩ :=
      (sendRequest_all_or_nothing busy [5] 7).2
    exact ⟨token, frame, hqueue, hdecode, hfree⟩
  · have hbars : lost.Bars .notConnected :=
      .unattended rfl rfl (show 1 < 2 ^ 32 by decide) (by decide)
    exact ((sendRequest_all_or_nothing lost [5] 7).1 _).2 hbars
  · obtain ⟨-, hnever⟩ := (sendRequest_all_or_nothing lost [5] 7).2
    have hnew : ∀ t, lost.pending.get? t ≠ some 7 := fun t => by
      simp only [lost, gap, Token.Store.get?_insert, Token.Store.get?_empty]
      split_ifs <;> simp
    exact hnever hnew _
  · obtain ⟨s, hs⟩ := Token.Store.exists_full (.word 32) 0
    have hbars : ({ state := .opened, pending := s } : Connection Nat Unit Unit).Bars .capacity :=
      .full rfl fun t ht => ⟨0, hs t (mem_word_iff.2 ht)⟩
    exact ⟨_, ((sendRequest_all_or_nothing _ [5] 7).1 _).2 hbars⟩

end Connection
end Parley
