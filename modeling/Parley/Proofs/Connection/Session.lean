import Mathlib
import Parley.Proofs.Connection.Operations

/-!
# Sessions

A session is a connection with its past: the requests it sent and took in, the replies that were
handed to waiters, and the waiters that were dropped. Each try to send a request has a number, which
stands for what runs when the reply comes. A run is any sequence of moves of this side, ends of
handlers among them, and of frames from the peer.
-/

namespace Parley

structure Service (κ : Type) where
  handler : Option κ
  id : UInt32
  body : Bytes
  outcome : Option Outcome

def Service.begin (handler : Option κ) (id : UInt32) (body : Bytes) : Service κ :=
  ⟨handler, id, body, if handler.isSome then none else some (.failed Outcome.noHandler)⟩

structure Session (ι κ : Type) where
  connection : Connection Nat ι κ
  /-- The frames that left the queue and have not arrived. -/
  wire : List Bytes := []
  tries : Nat := 0
  /-- The requests that were sent, each with the number of its try. -/
  asked : List (Nat × Bytes) := []
  served : List (Service κ) := []
  /-- Replies whose waiters have not run yet. -/
  due : List (Nat × Reply) := []
  ran : List (Nat × Reply) := []
  dropped : List Nat := []

namespace Session
variable {ι κ : Type}

def start (state : Lifecycle) (info : Option ι) (request : Option κ) : Session ι κ :=
  { connection := { state, info, request } }

inductive Move (ι κ : Type) where
  | ask (body : Bytes)
  | tell (body : Bytes)
  | finish (place : Nat) (o : Outcome)
  | wake (place : Nat)
  | setInfo (handler : Option ι)
  | setRequest (handler : Option κ)
  | close
  | markOpen
  | markClosing
  | markClosed
  | abandon
  | carry

inductive Event (ι κ : Type) where
  | move (m : Move ι κ)
  | frame (bytes : Bytes)

def ask (s : Session ι κ) (body : Bytes) : Session ι κ :=
  match s.connection.sendRequest body s.tries with
  | (.ok (), c) =>
    { s with connection := c, tries := s.tries + 1, asked := s.asked ++ [(s.tries, body)] }
  | (.error _, c) => { s with connection := c, tries := s.tries + 1 }

def resolve (s : Session ι κ) (place : Nat) (q : Service κ) (o : Outcome) : Session ι κ :=
  { s with
    connection := s.connection.answer (o.envelope q.id)
    served := s.served.set place { q with outcome := some o } }

def finish (s : Session ι κ) (place : Nat) (o : Outcome) : Session ι κ :=
  match s.served[place]? with
  | some q => if q.outcome = none then s.resolve place q o else s
  | none => s

def wake (s : Session ι κ) (place : Nat) : Session ι κ :=
  match s.due[place]? with
  | some r => { s with due := s.due.eraseIdx place, ran := s.ran ++ [r] }
  | none => s

def carry (s : Session ι κ) : Session ι κ :=
  match s.connection.queue with
  | [] => s
  | .frame bytes :: rest =>
    { s with connection := { s.connection with queue := rest }, wire := s.wire ++ [bytes] }
  | .close :: rest => { s with connection := { s.connection with queue := rest } }

def move (s : Session ι κ) : Move ι κ → Session ι κ
  | .ask body => s.ask body
  | .tell body => { s with connection := (s.connection.sendInfo body).2 }
  | .finish place o => s.finish place o
  | .wake place => s.wake place
  | .setInfo handler => { s with connection := { s.connection with info := handler } }
  | .setRequest handler => { s with connection := { s.connection with request := handler } }
  | .close => { s with connection := s.connection.close }
  | .markOpen => { s with connection := s.connection.markOpen.2 }
  | .markClosing => { s with connection := s.connection.markClosing }
  | .markClosed =>
    { s with
      connection := s.connection.markClosed.2
      dropped := s.dropped ++ s.connection.markClosed.1 }
  | .abandon => { s with connection := s.connection.abandon }
  | .carry => s.carry

def receive (s : Session ι κ) (frame : Bytes) : Session ι κ :=
  match s.connection.receive frame with
  | (some (.serve handler id body), c) =>
    { s with connection := c, served := s.served ++ [.begin (some handler) id body] }
  | (some (.conclude n r), c) => { s with connection := c, due := s.due ++ [(n, r)] }
  | (some (.inform _ _), c) => { s with connection := c }
  | (none, c) =>
    { s with
      connection := c
      served := s.served ++ (Frame.ask? frame).toList.map fun (id, body) => .begin none id body }

def step (s : Session ι κ) : Event ι κ → Session ι κ
  | .move m => s.move m
  | .frame bytes => s.receive bytes

def run (s : Session ι κ) (events : List (Event ι κ)) : Session ι κ := events.foldl step s

def handed (s : Session ι κ) : List (Nat × Reply) := s.due ++ s.ran

def out (s : Session ι κ) : List Bytes := s.wire ++ s.connection.frames

def asks (s : Session ι κ) : List (UInt32 × Bytes) := s.out.filterMap Frame.ask?

def answers (s : Session ι κ) : List (UInt32 × Reply) := s.out.filterMap Frame.reply?

/-- Two sessions that differ in nothing that waiters, requests or replies depend on. -/
structure Agrees (s s' : Session ι κ) : Prop where
  pending : s'.connection.pending = s.connection.pending
  closed : s'.connection.state = .closed ↔ s.connection.state = .closed
  attended : s'.connection.attended = s.connection.attended
  tries : s'.tries = s.tries
  asked : s'.asked = s.asked
  served : s'.served = s.served
  handed : s'.handed.Perm s.handed
  dropped : s'.dropped = s.dropped
  asks : s'.asks = s.asks
  answers : s'.answers = s.answers

theorem Agrees.refl (s : Session ι κ) : Agrees s s :=
  ⟨rfl, .rfl, rfl, rfl, rfl, rfl, .refl _, rfl, rfl, rfl⟩

theorem Agrees.of_connection {s : Session ι κ} {c : Connection Nat ι κ} {wire : List Bytes}
    (hp : c.pending = s.connection.pending)
    (hs : c.state = .closed ↔ s.connection.state = .closed)
    (ha : c.attended = s.connection.attended)
    (hasks : (wire ++ c.frames).filterMap Frame.ask? = s.asks)
    (hanswers : (wire ++ c.frames).filterMap Frame.reply? = s.answers) :
    Agrees s { s with connection := c, wire := wire } :=
  ⟨hp, hs, ha, rfl, rfl, rfl, .refl _, rfl, hasks, hanswers⟩

theorem Agrees.of_frames {s : Session ι κ} {c : Connection Nat ι κ}
    (hp : c.pending = s.connection.pending)
    (hs : c.state = .closed ↔ s.connection.state = .closed)
    (ha : c.attended = s.connection.attended) (hf : c.frames = s.connection.frames) :
    Agrees s { s with connection := c } :=
  .of_connection hp hs ha (by rw [hf]; rfl) (by rw [hf]; rfl)

theorem agrees_tell (s : Session ι κ) (body : Bytes) : Agrees s (s.move (.tell body)) := by
  simp only [move, Connection.sendInfo, Connection.transmit]
  split_ifs with h
  · have hf := Connection.frames_post s.connection (.frame (Envelope.info body).encode)
    rw [if_pos h.2] at hf
    refine .of_connection (by simp) (by simp) (by simp) ?_ ?_
    · simp [hf, asks, out]
    · simp [hf, answers, out]
  · exact .refl s

theorem agrees_wake (s : Session ι κ) (place : Nat) : Agrees s (s.wake place) := by
  simp only [wake]
  split
  · rename_i r hr
    refine ⟨rfl, .rfl, rfl, rfl, rfl, rfl, ?_, rfl, rfl, rfl⟩
    obtain ⟨hlt, rfl⟩ := List.getElem?_eq_some_iff.1 hr
    have hperm := (List.getElem_cons_eraseIdx_perm hlt).append_right s.ran
    have hlast := List.perm_append_singleton s.due[place] (s.due.eraseIdx place ++ s.ran)
    rw [List.append_assoc] at hlast
    exact hlast.trans hperm
  · exact .refl s

theorem agrees_carry (s : Session ι κ) : Agrees s s.carry := by
  simp only [carry]
  split
  · exact .refl s
  · rename_i bytes rest hq
    have hout : (s.wire ++ [bytes]) ++ rest.filterMap Command.frame? = s.out := by
      simp [out, Connection.frames, hq]
    refine .of_connection rfl .rfl rfl ?_ ?_
    · exact congrArg (List.filterMap Frame.ask?) hout
    · exact congrArg (List.filterMap Frame.reply?) hout
  · rename_i rest hq
    exact .of_frames rfl .rfl rfl (by simp [Connection.frames, hq, List.filterMap_cons])

theorem agrees_close (s : Session ι κ) : Agrees s (s.move .close) := by
  have hclosing : s.connection.state ≠ .closed →
      Agrees s { s with connection := { s.connection with state := .closing }.post .close } := by
    intro hs
    refine .of_frames (by simp) (by simp [hs]) (by simp) ?_
    rw [Connection.frames_post]
    simp [Connection.frames]
  simp only [move, Connection.close]
  cases hs : s.connection.state with
  | connecting => exact hclosing (by simp [hs])
  | opened => exact hclosing (by simp [hs])
  | closing => exact .refl s
  | closed => exact .refl s

theorem agrees_markOpen (s : Session ι κ) : Agrees s (s.move .markOpen) := by
  simp only [move, Connection.markOpen]
  split_ifs with hs
  · exact .of_frames rfl (by simp [hs]) rfl rfl
  · exact .refl s

theorem agrees_markClosing (s : Session ι κ) : Agrees s (s.move .markClosing) := by
  simp only [move, Connection.markClosing]
  split_ifs with hs
  · exact .of_frames rfl (by simp [hs]) rfl rfl
  · exact .refl s

def Move.Quiet : Move ι κ → Prop
  | .ask _ | .finish _ _ | .markClosed | .abandon => False
  | _ => True

theorem agrees_of_quiet (s : Session ι κ) {m : Move ι κ} (h : m.Quiet) : Agrees s (s.move m) := by
  cases m with
  | ask body => exact h.elim
  | tell body => exact agrees_tell s body
  | finish place o => exact h.elim
  | wake place => exact agrees_wake s place
  | setInfo handler => exact .of_frames rfl .rfl rfl rfl
  | setRequest handler => exact .of_frames rfl .rfl rfl rfl
  | close => exact agrees_close s
  | markOpen => exact agrees_markOpen s
  | markClosing => exact agrees_markClosing s
  | markClosed => exact h.elim
  | abandon => exact h.elim
  | carry => exact agrees_carry s

theorem ask_cases (s : Session ι κ) (body : Bytes) :
    (∃ token c, s.connection.sendRequest body s.tries = (.ok (), c) ∧
      Connection.Asked s.connection c token body s.tries ∧
      s.ask body =
        { s with connection := c, tries := s.tries + 1, asked := s.asked ++ [(s.tries, body)] }) ∨
    ∃ e, s.connection.sendRequest body s.tries = (.error e, s.connection) ∧
      s.ask body = { s with tries := s.tries + 1 } := by
  rcases s.connection.sendRequest_cases body s.tries with ⟨token, c, hok, hasked⟩ | ⟨e, herr⟩
  · exact .inl ⟨token, c, hok, hasked, by simp only [ask, hok]⟩
  · exact .inr ⟨e, herr, by simp only [ask, herr]⟩

theorem finish_cases (s : Session ι κ) (place : Nat) (o : Outcome) :
    (∃ q, s.served[place]? = some q ∧ q.outcome = none ∧ s.finish place o = s.resolve place q o) ∨
    s.finish place o = s := by
  cases hq : s.served[place]? with
  | none => exact .inr (by simp only [finish, hq])
  | some q =>
    by_cases ho : q.outcome = none
    · exact .inl ⟨q, rfl, ho, by simp only [finish, hq, if_pos ho]⟩
    · exact .inr (by simp only [finish, hq, if_neg ho])

theorem receive_of_ask {s : Session ι κ} {frame : Bytes} {id : UInt32} {body : Bytes}
    (h : Frame.ask? frame = some (id, body)) :
    s.receive frame =
      { s with
        connection := if s.connection.request.isSome then s.connection
          else s.connection.answer ((Outcome.failed Outcome.noHandler).envelope id)
        served := s.served ++ [.begin s.connection.request id body] } := by
  simp only [receive, Connection.receive_of_ask h]
  cases s.connection.request with
  | some handler => rfl
  | none => simp [h]

theorem receive_of_reply {s : Session ι κ} {frame : Bytes} {id : UInt32} {r : Reply}
    (h : Frame.reply? frame = some (id, r)) :
    (∃ n, s.connection.pending.get? id.toNat = some n ∧
      s.receive frame =
        { s with
          connection :=
            { s.connection with pending := s.connection.pending.erase id.toNat }
          due := s.due ++ [(n, r)] }) ∨
    (s.connection.pending.get? id.toNat = none ∧ s.receive frame = s) := by
  cases hn : s.connection.pending.get? id.toNat with
  | some n =>
    refine .inl ⟨n, rfl, ?_⟩
    simp only [receive, Connection.receive_of_reply h, Connection.conclude_of_some hn]
  | none =>
    refine .inr ⟨rfl, ?_⟩
    simp [receive, Connection.receive_of_reply h, Connection.conclude_of_none hn,
      Frame.ask?_of_reply? h]

theorem receive_of_neither {s : Session ι κ} {frame : Bytes} (ha : Frame.ask? frame = none)
    (hr : Frame.reply? frame = none) : s.receive frame = s := by
  rcases Connection.receive_of_neither (c := s.connection) ha hr with h | ⟨handler, body, h⟩
  · simp [receive, h, ha]
  · simp only [receive, h]

theorem run_keeps {P : Session ι κ → Prop} (hstep : ∀ s e, P s → P (s.step e)) {s : Session ι κ}
    (h : P s) (events : List (Event ι κ)) : P (s.run events) := by
  induction events generalizing s with
  | nil => exact h
  | cons e rest ih => exact ih (hstep s e h)

structure Numbered (s : Session ι κ) : Prop where
  pending : ∀ t n, s.connection.pending.get? t = some n → n < s.tries
  handed : ∀ p ∈ s.handed, p.1 < s.tries
  dropped : ∀ n ∈ s.dropped, n < s.tries
  ascending : (s.asked.map (·.1)).Pairwise (· < ·)
  asked : ∀ p ∈ s.asked, p.1 < s.tries

theorem numbered_start (state : Lifecycle) (info : Option ι) (request : Option κ) :
    (start state info request).Numbered :=
  ⟨by simp [start], by simp [start, handed], by simp [start], by simp [start], by simp [start]⟩

theorem Numbered.of_agrees {s s' : Session ι κ} (h : s.Numbered) (ha : Agrees s s') :
    s'.Numbered where
  pending t n hn := by
    rw [ha.pending] at hn
    rw [ha.tries]
    exact h.pending t n hn
  handed p hp := by
    rw [ha.tries]
    exact h.handed p (ha.handed.mem_iff.1 hp)
  dropped n hn := by
    rw [ha.dropped] at hn
    rw [ha.tries]
    exact h.dropped n hn
  ascending := by
    rw [ha.asked]
    exact h.ascending
  asked := by
    rw [ha.asked, ha.tries]
    exact h.asked

theorem Numbered.ask {s : Session ι κ} (h : s.Numbered) (body : Bytes) :
    (s.ask body).Numbered := by
  have hlater : ∀ {n : Nat}, n < s.tries → n < s.tries + 1 := Nat.lt_succ_of_lt
  rcases s.ask_cases body with ⟨token, c, -, hc, heq⟩ | ⟨e, -, heq⟩
  · rw [heq]
    refine ⟨fun t n hn => ?_, fun p hp => hlater (h.handed p hp),
      fun n hn => hlater (h.dropped n hn), ?_, fun p hp => ?_⟩
    · rw [hc.get?] at hn
      split_ifs at hn
      · obtain rfl := Option.some.inj hn
        exact Nat.lt_succ_self _
      · exact hlater (h.pending t n hn)
    · rw [List.map_append, List.pairwise_append]
      refine ⟨h.ascending, by simp, fun n hn m hm => ?_⟩
      obtain ⟨p, hp, rfl⟩ := List.mem_map.1 hn
      obtain rfl : m = s.tries := by simpa using hm
      exact h.asked p hp
    · rcases List.mem_append.1 hp with hp | hp
      · exact hlater (h.asked p hp)
      · obtain rfl := List.mem_singleton.1 hp
        exact Nat.lt_succ_self _
  · rw [heq]
    exact ⟨fun t n hn => hlater (h.pending t n hn), fun p hp => hlater (h.handed p hp),
      fun n hn => hlater (h.dropped n hn), h.ascending, fun p hp => hlater (h.asked p hp)⟩

theorem mem_dropped {c : Connection Nat ι κ} {n : Nat} (h : n ∈ c.markClosed.1) :
    ∃ t, c.pending.get? t = some n := by
  obtain ⟨p, hp, rfl⟩ := List.mem_map.1 h
  exact ⟨p.1, Token.Store.get?_eq_some_iff.2 (List.mem_reverse.1 hp)⟩

theorem Numbered.receive {s : Session ι κ} (h : s.Numbered) (frame : Bytes) :
    (s.receive frame).Numbered := by
  cases ha : Frame.ask? frame with
  | some a =>
    rw [receive_of_ask ha]
    refine ⟨fun t n hn => h.pending t n ?_, h.handed, h.dropped, h.ascending, h.asked⟩
    revert hn
    simp only [Connection.answer]
    split_ifs <;> simp
  | none =>
    cases hr : Frame.reply? frame with
    | none =>
      rw [receive_of_neither ha hr]
      exact h
    | some r =>
      rcases receive_of_reply (s := s) hr with ⟨n, hn, heq⟩ | ⟨-, heq⟩
      · rw [heq]
        refine ⟨fun t m hm => ?_, fun p hp => ?_, h.dropped, h.ascending, h.asked⟩
        · simp only [Token.Store.get?_erase, Option.ite_none_left_eq_some] at hm
          exact h.pending t m hm.2
        · simp only [Session.handed, List.append_assoc, List.mem_append, List.mem_singleton] at hp
          rcases hp with hp | rfl | hp
          · exact h.handed p (List.mem_append_left _ hp)
          · exact h.pending _ _ hn
          · exact h.handed p (List.mem_append_right _ hp)
      · rw [heq]
        exact h

theorem Numbered.step {s : Session ι κ} (h : s.Numbered) (e : Event ι κ) :
    (s.step e).Numbered := by
  cases e with
  | frame bytes => exact h.receive bytes
  | move m =>
    by_cases hm : m.Quiet
    · exact h.of_agrees (agrees_of_quiet s hm)
    · cases m with
      | ask body => exact h.ask body
      | finish place o =>
        rcases s.finish_cases place o with ⟨q, -, -, heq⟩ | heq
        · simp only [Session.step, move, heq]
          refine ⟨fun t n hn => h.pending t n ?_, h.handed, h.dropped, h.ascending, h.asked⟩
          simpa [resolve, Connection.answer] using hn
        · simp only [Session.step, move, heq]
          exact h
      | markClosed =>
        refine ⟨fun t n hn => ?_, h.handed, fun n hn => ?_, h.ascending, h.asked⟩
        · exact absurd hn (by simp [Session.step, move, Connection.markClosed, Connection.drain,
            Token.Store.drain])
        · rcases List.mem_append.1 hn with hn | hn
          · exact h.dropped n hn
          · obtain ⟨t, ht⟩ := mem_dropped hn
            exact h.pending t n ht
      | abandon => exact ⟨h.pending, h.handed, h.dropped, h.ascending, h.asked⟩
      | _ => exact absurd trivial hm

end Session
end Parley
