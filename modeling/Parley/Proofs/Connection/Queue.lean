import Mathlib
import Parley.Proofs.Pump

/-!
# The queue of a session

Everything that a run puts on the queue of its session: frames that ask, tell or answer, at most
one close, and after the close only answers, which may still be queued while the connection ends.
-/

namespace Parley

namespace Envelope

def Sends (e : Envelope) : Prop := e.kind = .request ∨ e.kind = .info ∧ e.id = 0

def Answers (e : Envelope) : Prop := e.kind = .response ∨ e.kind = .requestError

theorem answers_outcome (id : UInt32) (o : Outcome) : (o.envelope id).Answers := by
  cases o with
  | done body => exact .inl rfl
  | failed text => exact .inr rfl
  | panicked text => exact .inr rfl

theorem id_of_info {e : Envelope} (h : e.Sends ∨ e.Answers) (hinfo : e.kind = .info) :
    e.id = 0 := by
  rcases h with (hkind | ⟨-, hid⟩) | (hkind | hkind)
  · exact absurd (hinfo.symm.trans hkind) (by simp)
  · exact hid
  · exact absurd (hinfo.symm.trans hkind) (by simp)
  · exact absurd (hinfo.symm.trans hkind) (by simp)

end Envelope

namespace Command

def Carries (P : Envelope → Prop) (x : Command) : Prop := ∃ e : Envelope, x = .frame e.encode ∧ P e

theorem Carries.mono {P Q : Envelope → Prop} (h : ∀ e, P e → Q e) {x : Command}
    (hx : x.Carries P) : x.Carries Q := by
  obtain ⟨e, rfl, he⟩ := hx
  exact ⟨e, rfl, h e he⟩

theorem not_carries_close (P : Envelope → Prop) : ¬ Command.close.Carries P := by
  rintro ⟨e, he, -⟩
  simp at he

/-- Frames, and at most one close with nothing but answers after it. -/
inductive InOrder : List Command → Prop where
  | nil : InOrder []
  | frame {x : Command} {rest : List Command} (hx : x.Carries fun e => e.Sends ∨ e.Answers)
    (h : InOrder rest) : InOrder (x :: rest)
  | close {rest : List Command} (h : ∀ x ∈ rest, x.Carries Envelope.Answers) :
    InOrder (.close :: rest)

theorem close_notMem_of_answers {l : List Command} (h : ∀ x ∈ l, x.Carries Envelope.Answers) :
    .close ∉ l :=
  fun hmem => not_carries_close _ (h _ hmem)

theorem InOrder.count_close_le {l : List Command} (h : InOrder l) : l.count .close ≤ 1 := by
  induction h with
  | nil => simp
  | frame hx h ih =>
    rename_i x rest
    have hne : x ≠ .close := by
      rintro rfl
      exact not_carries_close _ hx
    rwa [List.count_cons_of_ne hne]
  | close h =>
    rw [List.count_cons_self, List.count_eq_zero_of_not_mem (close_notMem_of_answers h)]

theorem InOrder.after_close {l : List Command} (h : InOrder l) {front back : List Command}
    (hl : l = front ++ .close :: back) : ∀ x ∈ back, x.Carries Envelope.Answers := by
  induction h generalizing front with
  | nil => simp at hl
  | frame hx h ih =>
    cases front with
    | nil =>
      obtain ⟨rfl, -⟩ := List.cons.inj hl
      exact absurd hx (not_carries_close _)
    | cons y front => exact ih (List.cons.inj hl).2
  | close h =>
    cases front with
    | nil =>
      obtain ⟨-, rfl⟩ := List.cons.inj hl
      exact h
    | cons y front =>
      -- the rest has no close of its own
      obtain ⟨-, rfl⟩ := List.cons.inj hl
      exact absurd (by simp) (close_notMem_of_answers h)

theorem InOrder.decodes {l : List Command} (h : InOrder l) {bytes : Bytes}
    (hmem : .frame bytes ∈ l) :
    ∃ e, Envelope.decode bytes = .ok e ∧ (e.Sends ∨ e.Answers) := by
  have hcarries : ∀ {P : Envelope → Prop}, (Command.frame bytes).Carries P →
      ∃ e, Envelope.decode bytes = .ok e ∧ P e := by
    rintro P ⟨e, he, hP⟩
    obtain rfl := Command.frame.inj he
    exact ⟨e, e.decode_encode, hP⟩
  induction h with
  | nil => simp at hmem
  | frame hx h ih =>
    rcases List.mem_cons.1 hmem with rfl | hrest
    · exact hcarries hx
    · exact ih hrest
  | close h =>
    have hrest := (List.mem_cons.1 hmem).resolve_left (by simp)
    exact hcarries ((h _ hrest).mono fun _ => .inr)

end Command

namespace Session
variable {ι κ : Type}

open Pump.Line (fresh)

def posts (s : Session ι κ) (e : Event ι κ) : List Command :=
  fresh s.connection (s.step e).connection

def posted (s : Session ι κ) : List (Event ι κ) → List Command
  | [] => []
  | e :: rest => s.posts e ++ (s.step e).posted rest

theorem posted_append (s : Session ι κ) (before after : List (Event ι κ)) :
    s.posted (before ++ after) = s.posted before ++ (s.run before).posted after := by
  induction before generalizing s with
  | nil => rfl
  | cons e rest ih =>
    rw [List.cons_append, posted, ih, ← List.append_assoc]
    rfl

inductive Posts (s : Session ι κ) : Event ι κ → List Command → Prop where
  | nothing {e : Event ι κ} : Posts s e []
  | sent {e : Event ι κ} (m : Envelope) (hm : m.Sends) (hopen : s.connection.state = .opened) :
    Posts s e [.frame m.encode]
  | answered {e : Event ι κ} (m : Envelope) (hm : m.Answers) : Posts s e [.frame m.encode]
  | closed (hstate : ¬ .closing ≤ s.connection.state) : Posts s (.move .close) [.close]

section
variable {s : Session ι κ} {e : Event ι κ} {c : Connection Nat ι κ}

theorem posts_of_queue (h : c.queue = s.connection.queue) : Posts s e (fresh s.connection c) := by
  have hnil : fresh s.connection c = [] := by simp only [fresh, h, List.drop_length]
  rw [hnil]
  exact .nothing

theorem posts_of_post (h : c.queue = s.connection.queue) {x : Command} (hx : Posts s e [x]) :
    Posts s e (fresh s.connection (c.post x)) := by
  unfold Connection.post
  split
  · simpa [fresh, h] using hx
  · exact posts_of_queue h

theorem posts_ask (s : Session ι κ) (body : Bytes) :
    Posts s (.move (.ask body)) (s.posts (.move (.ask body))) := by
  simp only [posts, step, move]
  rcases s.ask_cases body with ⟨token, c, -, hc, heq⟩ | ⟨e, -, heq⟩
  · rw [heq]
    have hfresh : fresh s.connection c = [.frame (Envelope.request token body).encode] := by
      simp only [fresh, hc.queue, List.drop_left]
    rw [hfresh]
    exact .sent _ (.inl rfl) hc.opened
  · rw [heq]
    exact posts_of_queue rfl

theorem posts_tell (s : Session ι κ) (body : Bytes) :
    Posts s (.move (.tell body)) (s.posts (.move (.tell body))) := by
  simp only [posts, step, move, Connection.sendInfo, Connection.transmit]
  split_ifs with h
  · exact posts_of_post rfl (.sent _ (.inr ⟨rfl, rfl⟩) h.1)
  · exact posts_of_queue rfl

theorem posts_finish (s : Session ι κ) (place : Nat) (o : Outcome) :
    Posts s (.move (.finish place o)) (s.posts (.move (.finish place o))) := by
  simp only [posts, step, move]
  rcases s.finish_cases place o with ⟨q, -, -, heq⟩ | heq
  · rw [heq]
    exact posts_of_post rfl (.answered _ (Envelope.answers_outcome q.id o))
  · rw [heq]
    exact posts_of_queue rfl

theorem posts_close (s : Session ι κ) : Posts s (.move .close) (s.posts (.move .close)) := by
  simp only [posts, step, move, Connection.close]
  split
  · rename_i hs
    refine posts_of_post (c := { s.connection with state := .closing }) rfl (.closed ?_)
    rw [hs]
    decide
  · rename_i hs
    refine posts_of_post (c := { s.connection with state := .closing }) rfl (.closed ?_)
    rw [hs]
    decide
  · exact posts_of_queue rfl
  · exact posts_of_queue rfl

theorem posts_carry (s : Session ι κ) : Posts s (.move .carry) (s.posts (.move .carry)) := by
  have hnil : s.posts (.move .carry) = [] := by
    simp only [posts, step, move, carry]
    split <;> rename_i hq <;> simp [fresh, hq]
  rw [hnil]
  exact .nothing

theorem posts_frame (s : Session ι κ) (bytes : Bytes) :
    Posts s (.frame bytes) (s.posts (.frame bytes)) := by
  simp only [posts, step]
  cases ha : Frame.ask? bytes with
  | some a =>
    rw [receive_of_ask ha]
    split_ifs
    · exact posts_of_queue rfl
    · exact posts_of_post rfl (.answered _ (Envelope.answers_outcome a.1 _))
  | none =>
    cases hr : Frame.reply? bytes with
    | none =>
      rw [receive_of_neither ha hr]
      exact posts_of_queue rfl
    | some a =>
      rcases receive_of_reply (s := s) hr with ⟨n, -, heq⟩ | ⟨-, heq⟩
      · rw [heq]
        exact posts_of_queue rfl
      · rw [heq]
        exact posts_of_queue rfl

end

theorem posts_cases (s : Session ι κ) (e : Event ι κ) : Posts s e (s.posts e) := by
  cases e with
  | frame bytes => exact s.posts_frame bytes
  | move m =>
    cases m with
    | ask body => exact s.posts_ask body
    | tell body => exact s.posts_tell body
    | finish place o => exact s.posts_finish place o
    | wake place =>
      refine posts_of_queue ?_
      simp only [step, move, wake]
      split <;> rfl
    | setInfo handler => exact posts_of_queue rfl
    | setRequest handler => exact posts_of_queue rfl
    | close => exact s.posts_close
    | markOpen =>
      refine posts_of_queue ?_
      simp only [step, move, Connection.markOpen]
      split <;> rfl
    | markClosing =>
      refine posts_of_queue ?_
      simp only [step, move, Connection.markClosing]
      split <;> rfl
    | markClosed => exact posts_of_queue rfl
    | abandon =>
      have hnil : s.posts (.move .abandon) = [] := by
        simp [posts, step, move, Connection.abandon, fresh]
      rw [hnil]
      exact .nothing
    | carry => exact s.posts_carry

/-- From the first close on only answers are posted, and no second close. -/
theorem answers_of_closing {s : Session ι κ} (h : .closing ≤ s.connection.state)
    (events : List (Event ι κ)) : ∀ x ∈ s.posted events, x.Carries Envelope.Answers := by
  induction events generalizing s with
  | nil => simp [posted]
  | cons e rest ih =>
    have hrest := ih (Lifecycle.le_trans h (s.state_le_step e))
    have hposts := s.posts_cases e
    rw [posted]
    generalize s.posts e = now at hposts ⊢
    cases hposts with
    | nothing => exact hrest
    | sent m hm hopen =>
      rw [hopen] at h
      exact absurd h (by decide)
    | answered m hm => exact List.forall_mem_cons.2 ⟨⟨m, rfl, hm⟩, hrest⟩
    | closed hstate => exact absurd h hstate

theorem inOrder_posted (s : Session ι κ) (events : List (Event ι κ)) :
    Command.InOrder (s.posted events) := by
  induction events generalizing s with
  | nil => exact .nil
  | cons e rest ih =>
    have hposts := s.posts_cases e
    rw [posted]
    generalize s.posts e = now at hposts ⊢
    cases hposts with
    | nothing => exact ih (s.step e)
    | sent m hm hopen => exact .frame ⟨m, rfl, .inl hm⟩ (ih (s.step e))
    | answered m hm => exact .frame ⟨m, rfl, .inr hm⟩ (ih (s.step e))
    | closed hstate =>
      have hclosing : .closing ≤ (s.step (.move .close)).connection.state :=
        Connection.closing_le_close _
      exact .close (answers_of_closing hclosing rest)

theorem eq_close_of_mem_posts {s : Session ι κ} {e : Event ι κ} (h : .close ∈ s.posts e) :
    e = .move .close := by
  have hposts := s.posts_cases e
  generalize s.posts e = now at hposts h
  cases hposts with
  | nothing => simp at h
  | sent m hm hopen => simp at h
  | answered m hm => simp at h
  | closed hstate => rfl

theorem close_notMem_posted {s : Session ι κ} {events : List (Event ι κ)}
    (h : .move .close ∉ events) : .close ∉ s.posted events := by
  induction events generalizing s with
  | nil => simp [posted]
  | cons e rest ih =>
    obtain ⟨he, hrest⟩ := not_or.1 (mt List.mem_cons.2 h)
    rw [posted, List.mem_append]
    rintro (hclose | hclose)
    · exact he (eq_close_of_mem_posts hclose).symm
    · exact ih hrest hclose

/-- The connection ends without a close of its own: the peer closes while it is open, or the socket
is gone. -/
def EndsBy (s : Session ι κ) (e : Event ι κ) : Prop :=
  e = .move .markClosed ∨ e = .move .markClosing ∧ s.connection.state = .opened

theorem EndsBy.closing_le {s : Session ι κ} {e : Event ι κ} (h : s.EndsBy e) :
    .closing ≤ (s.step e).connection.state := by
  rcases h with rfl | ⟨rfl, hopen⟩
  · exact Lifecycle.le_closed _
  · simp only [step, move, Connection.markClosing, if_pos hopen]
    exact Lifecycle.le_refl _

theorem EndsBy.ne_close {s : Session ι κ} {e : Event ι κ} (h : s.EndsBy e) : e ≠ .move .close := by
  rcases h with rfl | ⟨rfl, -⟩
  · simp
  · simp

/-- Whatever a session starts from, its run queues at most one close, and after it only responses
and request errors. Every queued frame is an envelope, and an info has the id zero. When the
connection ends before the first close is asked for, no close is queued at all. -/
theorem at_most_one_close (s : Session ι κ) (events : List (Event ι κ)) :
    (s.posted events).count .close ≤ 1 ∧
    (∀ front back, s.posted events = front ++ .close :: back →
      ∀ x ∈ back, ∃ e : Envelope, x = .frame e.encode ∧
        (e.kind = .response ∨ e.kind = .requestError)) ∧
    (∀ bytes, .frame bytes ∈ s.posted events →
      ∃ e, Envelope.decode bytes = .ok e ∧ (e.kind = .info → e.id = 0)) ∧
    ∀ before e after, events = before ++ e :: after → .move .close ∉ before →
      (s.run before).EndsBy e → .close ∉ s.posted events := by
  have horder := s.inOrder_posted events
  refine ⟨horder.count_close_le, fun front back => horder.after_close, fun bytes hmem => ?_, ?_⟩
  · obtain ⟨e, hdecode, he⟩ := horder.decodes hmem
    exact ⟨e, hdecode, Envelope.id_of_info he⟩
  · rintro before e after rfl hbefore hends
    have hnow : .close ∉ s.posted before := close_notMem_posted hbefore
    have hafter := answers_of_closing hends.closing_le after
    rw [posted_append, posted, List.mem_append, List.mem_append]
    rintro (hclose | hclose | hclose)
    · exact hnow hclose
    · exact hends.ne_close (eq_close_of_mem_posts hclose)
    · exact Command.close_notMem_of_answers hafter hclose

theorem at_most_one_close_served :
    let events : List (Event Unit Unit) :=
      [.move (.ask [1]), .move (.tell [2]), .frame (Envelope.request 7 [3]).encode, .move .close,
        .move .close, .move (.finish 0 (.done [4]))]
    let s : Session Unit Unit := start .opened none (some ())
    let frames := [.frame (Envelope.request 0 [1]).encode, .frame (Envelope.info [2]).encode]
    let last := Command.frame (Envelope.response 7 [4]).encode
    s.posted events = frames ++ .close :: [last] ∧
    (∃ e : Envelope, last = .frame e.encode ∧ (e.kind = .response ∨ e.kind = .requestError)) ∧
    (∃ e, Envelope.decode (Envelope.info [2]).encode = .ok e ∧ (e.kind = .info → e.id = 0)) ∧
    .close ∉ s.posted [.move .markClosing, .move .close] := by
  intro events s frames last
  have hposted : s.posted events = frames ++ .close :: [last] := by decide
  obtain ⟨-, hback, hframes, -⟩ := at_most_one_close s events
  obtain ⟨-, -, -, hends⟩ := at_most_one_close s [.move .markClosing, .move .close]
  exact ⟨hposted, hback frames [last] hposted last (by simp),
    hframes _ (by rw [hposted]; simp [frames]),
    hends [] (.move .markClosing) [.move .close] rfl (by simp) (.inr ⟨rfl, rfl⟩)⟩

end Session
end Parley
