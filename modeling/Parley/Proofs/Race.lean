import Mathlib
import Parley.Proofs.Connection.Lifecycle

/-!
# Races between senders and the end

Several calls send requests on one connection at the same time, each in single steps: it looks
whether the connection is open, keeps its waiter, looks again, and queues its frame or takes the
waiter back. The end of the connection comes in two steps. What the peer sends and a close may come
in between. One call without anything in between is `Connection.sendRequest`.
-/

namespace Parley

inductive Stage where
  | begun
  | cleared
  | kept (token : UInt32)
  | confirmed (token : UInt32)
  | refused (token : UInt32)
  | returned (result : Except Error UInt32)
deriving DecidableEq

namespace Connection
variable {ω ι κ : Type}

def enqueue (c : Connection ω ι κ) (frame : Bytes) : Except Error (Connection ω ι κ) :=
  if c.attended then .ok (c.post (.frame frame)) else .error .notConnected

def advance (c : Connection ω ι κ) (waiter : ω) (body : Bytes) : Stage → Stage × Connection ω ι κ
  | .begun => (if c.state = .opened then .cleared else .returned (.error .notConnected), c)
  | .cleared =>
    match c.register waiter with
    | .ok (token, kept) => (.kept token, kept)
    | .error e => (.returned (.error e), c)
  | .kept token => (if c.state = .opened then .confirmed token else .refused token, c)
  | .confirmed token =>
    match c.enqueue (Envelope.request token body).encode with
    | .ok sent => (.returned (.ok token), sent)
    | .error _ => (.refused token, c)
  | .refused token => (.returned (.error .notConnected), c.withdraw token)
  | .returned result => (.returned result, c)

theorem transmit_eq_enqueue (c : Connection ω ι κ) (frame : Bytes) :
    c.transmit frame = if c.state = .opened then c.enqueue frame else .error .notConnected := by
  simp only [transmit, enqueue, ite_and]

/-- Five steps in a row are all there is to a call. -/
theorem sendRequest_eq_advance (c : Connection ω ι κ) (body : Bytes) (waiter : ω) :
    ∃ result sent,
      (fun p : Stage × Connection ω ι κ => p.2.advance waiter body p.1)^[5] (.begun, c) =
        (.returned result, sent) ∧
      c.sendRequest body waiter = (result.map fun _ => (), sent) := by
  simp only [Function.iterate_succ, Function.iterate_zero, Function.comp_apply, id]
  by_cases hs : c.state = .opened
  · cases hreg : c.register waiter with
    | error e =>
      exact ⟨.error e, c, by simp [advance, hs, hreg], by simp [sendRequest, hs, hreg, Except.map]⟩
    | ok r =>
      obtain ⟨token, kept⟩ := r
      have hkept : kept.state = .opened := by
        simp only [register, bind, Except.bind] at hreg
        split at hreg
        · simp at hreg
        · obtain ⟨-, rfl⟩ := Prod.mk.inj (Except.ok.inj hreg)
          exact hs
      rw [sendRequest_of_register hs hreg, transmit_eq_enqueue, if_pos hkept]
      cases hsent : kept.enqueue (Envelope.request token body).encode with
      | ok sent =>
        exact ⟨.ok token, sent, by simp [advance, hs, hreg, hkept, hsent], by simp [Except.map]⟩
      | error e =>
        have he : e = .notConnected := by
          simp only [enqueue] at hsent
          split at hsent <;> simp_all
        exact ⟨.error .notConnected, kept.withdraw token,
          by simp [advance, hs, hreg, hkept, hsent], by simp [Except.map, he]⟩
  · exact ⟨.error .notConnected, c, by simp [advance, hs], by simp [sendRequest, hs, Except.map]⟩

structure Wanes (c c' : Connection ω ι κ) : Prop where
  pending : c'.pending = c.pending
  opened : c'.state = .opened → c.state = .opened
  attended : c'.attended = true → c.attended = true

theorem wanes_shut (c : Connection ω ι κ) : c.Wanes c.shut := ⟨rfl, by simp [shut], id⟩

theorem wanes_abandon (c : Connection ω ι κ) : c.Wanes c.abandon := ⟨rfl, id, by simp [abandon]⟩

theorem wanes_close (c : Connection ω ι κ) : c.Wanes c.close := by
  unfold close
  split
  · exact ⟨by simp, by simp, by simp⟩
  · exact ⟨by simp, by simp, by simp⟩
  · exact ⟨rfl, id, id⟩
  · exact ⟨rfl, id, id⟩

theorem wanes_markClosing (c : Connection ω ι κ) : c.Wanes c.markClosing := by
  unfold markClosing
  split_ifs
  · exact ⟨rfl, by simp, id⟩
  · exact ⟨rfl, id, id⟩

theorem wanes_receive {c : Connection ω ι κ} {frame : Bytes} (h : Frame.reply? frame = none) :
    c.Wanes (c.receive frame).2 := by
  cases ha : Frame.ask? frame with
  | some a =>
    rw [receive_of_ask ha]
    cases c.request with
    | some handler => exact ⟨rfl, id, id⟩
    | none => exact ⟨by simp [answer], by simp [answer], by simp [answer]⟩
  | none =>
    rcases receive_of_neither (c := c) ha h with heq | ⟨handler, body, heq⟩
    · rw [heq]
      exact ⟨rfl, id, id⟩
    · rw [heq]
      exact ⟨rfl, id, id⟩

theorem close_eq_closed_iff (c : Connection ω ι κ) :
    c.close.state = .closed ↔ c.state = .closed := by
  unfold close
  cases hs : c.state <;> simp [hs]

theorem markClosing_eq_closed_iff (c : Connection ω ι κ) :
    c.markClosing.state = .closed ↔ c.state = .closed := by
  unfold markClosing
  split_ifs with hs <;> simp [hs]

theorem register_spec {c kept : Connection ω ι κ} {waiter : ω} {token : UInt32}
    (h : c.register waiter = .ok (token, kept)) :
    c.pending.get? token.toNat = none ∧
      (∀ t, kept.pending.get? t = if t = token.toNat then some waiter else c.pending.get? t) ∧
      kept = { c with pending := kept.pending } := by
  cases hadd : c.pending.add waiter with
  | error e => simp [register, hadd, bind, Except.bind] at h
  | ok r =>
    obtain ⟨t, pending⟩ := r
    rw [register_of_add hadd] at h
    obtain ⟨rfl, rfl⟩ := Prod.mk.inj (Except.ok.inj h)
    obtain ⟨-, hmem, hfresh, hget, -⟩ := Token.Store.add_spec hadd
    rw [toNat_ofNat_of_mem hmem]
    exact ⟨hfresh, hget, rfl⟩

end Connection

/-- Calls have numbers, and call `n` keeps `n` as its waiter. A call that has not begun may never
come. -/
structure Race (ι κ : Type) where
  connection : Connection Nat ι κ
  body : Nat → Bytes
  stage : Nat → Stage := fun _ => .begun
  shutting : Nat := 0
  /-- The tokens of the queued requests that have had no reply. -/
  unanswered : List UInt32 := []
  handed : List (Nat × Reply) := []
  dropped : List Nat := []

namespace Race
variable {ι κ : Type}

def start (info : Option ι) (request : Option κ) (body : Nat → Bytes) : Race ι κ :=
  { connection := { state := .opened, info, request }, body }

inductive Event where
  | advance (n : Nat)
  | shut
  | drain
  | close
  | markClosing
  | abandon
  | frame (bytes : Bytes)

def reach (s : Race ι κ) (n : Nat) (stage : Stage) : Race ι κ :=
  { s with stage := Function.update s.stage n stage }

def advance (s : Race ι κ) (n : Nat) : Race ι κ :=
  let next := s.connection.advance n (s.body n) (s.stage n)
  { s.reach n next.1 with
    connection := next.2
    unanswered := s.unanswered ++ match s.stage n, next.1 with
      | .confirmed token, .returned _ => [token]
      | _, _ => []
    dropped := s.dropped ++ match s.stage n with
      | .refused token => (s.connection.pending.get? token.toNat).toList
      | _ => [] }

def receive (s : Race ι κ) (bytes : Bytes) : Race ι κ :=
  { s with
    connection := (s.connection.receive bytes).2
    unanswered := match Frame.reply? bytes with
      | some (id, _) => s.unanswered.erase id
      | none => s.unanswered
    handed := s.handed ++ match (s.connection.receive bytes).1 with
      | some (.conclude n r) => [(n, r)]
      | _ => [] }

def step (s : Race ι κ) : Event → Race ι κ
  | .advance n => s.advance n
  | .shut => { s with connection := s.connection.shut, shutting := s.shutting + 1 }
  | .drain =>
    if s.shutting = 0 then s
    else
      { s with
        connection := s.connection.drain.2
        shutting := s.shutting - 1
        dropped := s.dropped ++ s.connection.drain.1 }
  | .close => { s with connection := s.connection.close }
  | .markClosing => { s with connection := s.connection.markClosing }
  | .abandon => { s with connection := s.connection.abandon }
  | .frame bytes => s.receive bytes

def run (s : Race ι κ) (events : List Event) : Race ι κ := events.foldl step s

def callEnd (s : Race ι κ) (n : Nat) : Option (Except Error Reply) :=
  match s.stage n with
  | .returned (.ok _) => Reply.awaited s.handed s.dropped n
  | .returned (.error e) => some (.error e)
  | _ => none

variable {s : Race ι κ} {n m : Nat}

@[simp] theorem reach_stage_self (s : Race ι κ) (n : Nat) (stage : Stage) :
    (s.reach n stage).stage n = stage :=
  Function.update_self ..

theorem reach_stage_of_ne (h : m ≠ n) (stage : Stage) : (s.reach n stage).stage m = s.stage m :=
  Function.update_of_ne h ..

inductive Plain (c : Connection Nat ι κ) : Stage → Stage → Prop where
  | cleared (h : c.state = .opened) : Plain c .begun .cleared
  | barred (h : c.state ≠ .opened) : Plain c .begun (.returned (.error .notConnected))
  | full (e : Error) : Plain c .cleared (.returned (.error e))
  | confirmed (token : UInt32) (h : c.state = .opened) : Plain c (.kept token) (.confirmed token)
  | refused (token : UInt32) (h : c.state ≠ .opened) : Plain c (.kept token) (.refused token)
  | lost (token : UInt32) (h : c.attended = false) : Plain c (.confirmed token) (.refused token)
  | rest (result : Except Error UInt32) : Plain c (.returned result) (.returned result)

inductive Advances (s : Race ι κ) (n : Nat) : Race ι κ → Prop where
  | plain {stage : Stage} (h : Plain s.connection (s.stage n) stage) :
    Advances s n (s.reach n stage)
  | kept {token : UInt32} {pending : Token.Store (.word 32) Nat} (before : s.stage n = .cleared)
      (fresh : s.connection.pending.get? token.toNat = none)
      (get? : ∀ t, pending.get? t =
        if t = token.toNat then some n else s.connection.pending.get? t) :
    Advances s n { s.reach n (.kept token) with connection := { s.connection with pending } }
  | queued {token : UInt32} {c : Connection Nat ι κ} (before : s.stage n = .confirmed token)
      (attended : s.connection.attended = true) (pending : c.pending = s.connection.pending)
      (state : c.state = s.connection.state) (still : c.attended = true) :
    Advances s n
      { s.reach n (.returned (.ok token)) with
        connection := c
        unanswered := s.unanswered ++ [token] }
  | withdrew {token : UInt32} (before : s.stage n = .refused token) :
    Advances s n
      { s.reach n (.returned (.error .notConnected)) with
        connection := s.connection.withdraw token
        dropped := s.dropped ++ (s.connection.pending.get? token.toNat).toList }

theorem advance_plain {stage : Stage} (h : Plain s.connection (s.stage n) stage)
    (heq : s.connection.advance n (s.body n) (s.stage n) = (stage, s.connection)) :
    s.advance n = s.reach n stage := by
  simp only [advance, heq]
  generalize s.stage n = before at h
  cases h <;> simp [reach]

theorem advances (s : Race ι κ) (n : Nat) : Advances s n (s.advance n) := by
  have hplain : ∀ {stage}, Plain s.connection (s.stage n) stage →
      s.connection.advance n (s.body n) (s.stage n) = (stage, s.connection) →
      Advances s n (s.advance n) := by
    intro stage h heq
    rw [advance_plain h heq]
    exact .plain h
  cases hst : s.stage n with
  | begun =>
    rw [hst] at hplain
    by_cases ho : s.connection.state = .opened
    · exact hplain (.cleared ho) (by simp [Connection.advance, ho])
    · exact hplain (.barred ho) (by simp [Connection.advance, ho])
  | cleared =>
    cases hreg : s.connection.register n with
    | error e =>
      rw [hst] at hplain
      exact hplain (.full e) (by simp [Connection.advance, hreg])
    | ok r =>
      obtain ⟨token, kept⟩ := r
      obtain ⟨hfresh, hget, hkept⟩ := Connection.register_spec hreg
      have heq : s.advance n = { s.reach n (.kept token) with
          connection := { s.connection with pending := kept.pending } } := by
        rw [← hkept]
        simp [advance, reach, hst, Connection.advance, hreg]
      rw [heq]
      exact .kept hst hfresh hget
  | kept token =>
    rw [hst] at hplain
    by_cases ho : s.connection.state = .opened
    · exact hplain (.confirmed token ho) (by simp [Connection.advance, ho])
    · exact hplain (.refused token ho) (by simp [Connection.advance, ho])
  | confirmed token =>
    cases ha : s.connection.attended with
    | false =>
      rw [hst] at hplain
      exact hplain (.lost token ha) (by simp [Connection.advance, Connection.enqueue, ha])
    | true =>
      have heq : s.advance n = { s.reach n (.returned (.ok token)) with
          connection := s.connection.post (.frame (Envelope.request token (s.body n)).encode)
          unanswered := s.unanswered ++ [token] } := by
        simp [advance, reach, hst, Connection.advance, Connection.enqueue, ha]
      rw [heq]
      exact .queued hst ha (by simp) (by simp) (by simp [ha])
  | refused token =>
    have heq : s.advance n = { s.reach n (.returned (.error .notConnected)) with
        connection := s.connection.withdraw token
        dropped := s.dropped ++ (s.connection.pending.get? token.toNat).toList } := by
      simp [advance, reach, hst, Connection.advance]
    rw [heq]
    exact .withdrew hst
  | returned result =>
    rw [hst] at hplain
    exact hplain (.rest result) rfl

theorem receive_of_reply {bytes : Bytes} {id : UInt32} {r : Reply}
    (h : Frame.reply? bytes = some (id, r)) :
    (∃ n, s.connection.pending.get? id.toNat = some n ∧
      s.receive bytes =
        { s with
          connection := { s.connection with pending := s.connection.pending.erase id.toNat }
          unanswered := s.unanswered.erase id
          handed := s.handed ++ [(n, r)] }) ∨
    (s.connection.pending.get? id.toNat = none ∧
      s.receive bytes = { s with unanswered := s.unanswered.erase id }) := by
  cases hn : s.connection.pending.get? id.toNat with
  | some n =>
    refine .inl ⟨n, rfl, ?_⟩
    simp [receive, h, Connection.receive_of_reply h, Connection.conclude_of_some hn]
  | none =>
    refine .inr ⟨rfl, ?_⟩
    simp [receive, h, Connection.receive_of_reply h, Connection.conclude_of_none hn]

theorem receive_of_other {bytes : Bytes} (h : Frame.reply? bytes = none) :
    s.receive bytes = { s with connection := (s.connection.receive bytes).2 } := by
  have hnone : ∀ n r, (s.connection.receive bytes).1 ≠ some (.conclude n r) := by
    intro n r
    cases ha : Frame.ask? bytes with
    | some a =>
      rw [Connection.receive_of_ask ha]
      cases s.connection.request <;> simp
    | none =>
      rcases Connection.receive_of_neither (c := s.connection) ha h with heq | ⟨_, _, heq⟩ <;>
        simp [heq]
  simp only [receive, h, List.append_nil]

end Race
end Parley
