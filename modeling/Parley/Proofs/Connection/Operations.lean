import Mathlib
import Parley.Connection.Inbound
import Parley.Proofs.Envelope
import Parley.Proofs.Token.Store

/-!
# What the operations of a connection do

Sending a request either keeps the waiter under a fresh token and queues one frame, or leaves the
connection as it was. An inbound frame acts by what it asks for or answers, and in no other way.
-/

namespace Parley

def Command.frame? : Command → Option Bytes
  | .frame bytes => some bytes
  | .close => none

@[simp] theorem Command.frame?_frame (bytes : Bytes) : (Command.frame bytes).frame? = some bytes :=
  rfl

@[simp] theorem Command.frame?_close : Command.close.frame? = none := rfl

namespace Connection
variable {ω ι κ : Type}

theorem mem_word_iff {bits t : Nat} : (Token.Domain.word bits).Mem t ↔ t < 2 ^ bits := by
  have hpos : 0 < 2 ^ bits := Nat.two_pow_pos bits
  simp only [Token.Domain.Mem, Token.Domain.word, Nat.one_shiftLeft]
  omega

theorem toNat_ofNat_of_mem {t : Nat} (h : (Token.Domain.word 32).Mem t) :
    (UInt32.ofNat t).toNat = t :=
  UInt32.toNat_ofNat_of_lt' (mem_word_iff.1 h)

structure Asked (c c' : Connection ω ι κ) (token : UInt32) (body : Bytes) (waiter : ω) :
    Prop where
  opened : c.state = .opened
  attended : c.attended = true
  chosen : c.pending.freeToken = some token.toNat
  fresh : c.pending.get? token.toNat = none
  get? : ∀ t, c'.pending.get? t = if t = token.toNat then some waiter else c.pending.get? t
  queue : c'.queue = c.queue ++ [.frame (Envelope.request token body).encode]
  rest : c' = { c with pending := c'.pending, queue := c'.queue }

theorem transmit_ok {c : Connection ω ι κ} (hs : c.state = .opened) (ha : c.attended = true)
    (frame : Bytes) :
    c.transmit frame = .ok { c with queue := c.queue ++ [.frame frame] } := by
  simp only [transmit, hs, ha, and_self, if_true, post]

theorem transmit_unattended {c : Connection ω ι κ} (ha : c.attended = false) (frame : Bytes) :
    c.transmit frame = .error .notConnected := by
  simp only [transmit, ha, Bool.false_eq_true, and_false, if_false]

theorem register_of_add {c : Connection ω ι κ} {waiter : ω} {t : Nat}
    {pending : Token.Store (.word 32) ω} (h : c.pending.add waiter = .ok (t, pending)) :
    c.register waiter = .ok (UInt32.ofNat t, { c with pending }) := by
  simp only [register, h, bind, Except.bind, pure, Except.pure]

theorem sendRequest_of_register {c kept : Connection ω ι κ} {waiter : ω} {token : UInt32}
    (hs : c.state = .opened) (h : c.register waiter = .ok (token, kept)) (body : Bytes) :
    c.sendRequest body waiter = match kept.transmit (Envelope.request token body).encode with
      | .ok sent => (.ok (), sent)
      | .error e => (.error e, kept.withdraw token) := by
  have hopen := not_not_intro hs
  cases ht : kept.transmit (Envelope.request token body).encode with
  | ok sent => simp only [sendRequest, if_neg hopen, h, ht]
  | error e => simp only [sendRequest, if_neg hopen, h, ht]

theorem sendRequest_of_not_opened {c : Connection ω ι κ} (h : c.state ≠ .opened) (body : Bytes)
    (waiter : ω) : c.sendRequest body waiter = (.error .notConnected, c) := by
  simp only [sendRequest, if_pos h]

section outcomes
variable {c : Connection ω ι κ} {waiter : ω} {body : Bytes}

theorem sendRequest_of_add_error {e : Error} (hs : c.state = .opened)
    (h : c.pending.add waiter = .error e) : c.sendRequest body waiter = (.error e, c) := by
  simp [sendRequest, hs, register, h, bind, Except.bind]

/-- The waiter was kept already and is taken back, which restores the store. -/
theorem sendRequest_of_unattended {t : Nat} {pending : Token.Store (.word 32) ω}
    (hs : c.state = .opened) (ha : c.attended = false)
    (h : c.pending.add waiter = .ok (t, pending)) :
    c.sendRequest body waiter = (.error .notConnected, c) := by
  obtain ⟨-, hmem, -, -, herase⟩ := Token.Store.add_spec h
  have hlost := transmit_unattended (c := { c with pending }) ha
    (Envelope.request (UInt32.ofNat t) body).encode
  rw [sendRequest_of_register hs (register_of_add h), hlost]
  simp only [withdraw, toNat_ofNat_of_mem hmem, herase]

theorem sendRequest_of_attended {t : Nat} {pending : Token.Store (.word 32) ω}
    (hs : c.state = .opened) (ha : c.attended = true)
    (h : c.pending.add waiter = .ok (t, pending)) :
    ∃ token c', c.sendRequest body waiter = (.ok (), c') ∧ Asked c c' token body waiter := by
  obtain ⟨hchosen, hmem, hfresh, hget, -⟩ := Token.Store.add_spec h
  have ht := toNat_ofNat_of_mem hmem
  have hsent := transmit_ok (c := { c with pending }) hs ha
    (Envelope.request (UInt32.ofNat t) body).encode
  refine ⟨UInt32.ofNat t, { c with pending, queue := _ }, ?_, hs, ha, ?_, ?_, ?_, rfl, rfl⟩
  · rw [sendRequest_of_register hs (register_of_add h), hsent]
  · rw [ht, hchosen]
  · rw [ht, hfresh]
  · simpa only [ht] using hget

end outcomes

theorem sendRequest_cases (c : Connection ω ι κ) (body : Bytes) (waiter : ω) :
    (∃ token c', c.sendRequest body waiter = (.ok (), c') ∧ Asked c c' token body waiter) ∨
    ∃ e, c.sendRequest body waiter = (.error e, c) := by
  by_cases hopen : c.state = .opened
  · cases hadd : c.pending.add waiter with
    | error e => exact .inr ⟨e, sendRequest_of_add_error hopen hadd⟩
    | ok r =>
      cases hatt : c.attended with
      | true => exact .inl (sendRequest_of_attended hopen hatt hadd)
      | false => exact .inr ⟨_, sendRequest_of_unattended hopen hatt hadd⟩
  · exact .inr ⟨_, sendRequest_of_not_opened hopen body waiter⟩

theorem receive_of_ask {c : Connection ω ι κ} {frame : Bytes} {id : UInt32} {body : Bytes}
    (h : Frame.ask? frame = some (id, body)) :
    c.receive frame = match c.request with
      | some handler => (some (.serve handler id body), c)
      | none => (none, c.answer ((Outcome.failed Outcome.noHandler).envelope id)) := by
  simp only [Frame.ask?] at h
  split at h
  · rename_i hd
    obtain ⟨rfl, rfl⟩ := Prod.mk.inj (Option.some.inj h)
    cases hr : c.request with
    | some handler => simp only [receive, hd, dispatch, hr]
    | none => simp only [receive, hd, dispatch, hr]
  · simp at h

theorem receive_of_reply {c : Connection ω ι κ} {frame : Bytes} {id : UInt32} {r : Reply}
    (h : Frame.reply? frame = some (id, r)) : c.receive frame = c.conclude id r := by
  simp only [Frame.reply?] at h
  split at h
  · rename_i hd
    obtain ⟨rfl, rfl⟩ := Prod.mk.inj (Option.some.inj h)
    simp only [receive, hd, dispatch]
  · rename_i hd
    obtain ⟨rfl, rfl⟩ := Prod.mk.inj (Option.some.inj h)
    simp only [receive, hd, dispatch]
  · simp at h

theorem receive_of_malformed {c : Connection ω ι κ} {frame : Bytes} {m : Envelope.Malformed}
    (h : Envelope.decode frame = .error m) : c.receive frame = (none, c) := by
  simp only [receive, h]

theorem receive_of_tell {c : Connection ω ι κ} {frame : Bytes} {body : Bytes}
    (h : Frame.tell? frame = some body) :
    c.receive frame = (c.info.map (.inform · body), c) := by
  simp only [Frame.tell?] at h
  split at h
  · rename_i hd
    obtain rfl := Option.some.inj h
    simp only [receive, hd, dispatch]
  · simp at h

theorem receive_of_neither {c : Connection ω ι κ} {frame : Bytes} (ha : Frame.ask? frame = none)
    (hr : Frame.reply? frame = none) :
    c.receive frame = (none, c) ∨
      ∃ handler body, c.receive frame = (some (.inform handler body), c) := by
  cases Frame.meaning frame with
  | malformed hd => exact .inl (receive_of_malformed hd)
  | asks ha' => simp [ha] at ha'
  | replies _ hr' => simp [hr] at hr'
  | tells _ _ ht =>
    rw [receive_of_tell ht]
    cases c.info with
    | none => exact .inl rfl
    | some handler => exact .inr ⟨handler, _, rfl⟩

theorem conclude_of_some {c : Connection ω ι κ} {id : UInt32} {r : Reply} {waiter : ω}
    (h : c.pending.get? id.toNat = some waiter) :
    c.conclude id r =
      (some (.conclude waiter r), { c with pending := c.pending.erase id.toNat }) := by
  have ht := Token.Store.take_eq_some_iff.2 ⟨h, rfl⟩
  simp only [conclude, ht]

theorem conclude_of_none {c : Connection ω ι κ} {id : UInt32} {r : Reply}
    (h : c.pending.get? id.toNat = none) : c.conclude id r = (none, c) := by
  have ht := Token.Store.take_eq_none_iff.2 h
  simp only [conclude, ht]

inductive Received (c : Connection ω ι κ) : Connection ω ι κ → Prop where
  | same : Received c c
  | answered (e : Envelope) : Received c (c.answer e)
  | concluded (t : Nat) : Received c { c with pending := c.pending.erase t }

theorem received (c : Connection ω ι κ) (frame : Bytes) : Received c (c.receive frame).2 := by
  cases Frame.meaning frame with
  | malformed hd ha hr ht =>
    rw [receive_of_malformed hd]
    exact .same
  | asks ha hr ht =>
    rw [receive_of_ask ha]
    cases c.request with
    | some handler => exact .same
    | none => exact .answered _
  | replies ha hr ht =>
    rename_i id r
    rw [receive_of_reply hr]
    cases hw : c.pending.get? id.toNat with
    | some waiter =>
      rw [conclude_of_some hw]
      exact .concluded _
    | none =>
      rw [conclude_of_none hw]
      exact .same
  | tells ha hr ht =>
    rw [receive_of_tell ht]
    exact .same

@[simp] theorem post_pending (c : Connection ω ι κ) (x : Command) :
    (c.post x).pending = c.pending := by
  unfold post
  split <;> rfl

@[simp] theorem post_state (c : Connection ω ι κ) (x : Command) : (c.post x).state = c.state := by
  unfold post
  split <;> rfl

@[simp] theorem post_attended (c : Connection ω ι κ) (x : Command) :
    (c.post x).attended = c.attended := by
  unfold post
  split <;> rfl

@[simp] theorem post_info (c : Connection ω ι κ) (x : Command) : (c.post x).info = c.info := by
  unfold post
  split <;> rfl

@[simp] theorem post_request (c : Connection ω ι κ) (x : Command) :
    (c.post x).request = c.request := by
  unfold post
  split <;> rfl

structure Keeps (c c' : Connection ω ι κ) : Prop where
  state : c'.state = c.state
  info : c'.info = c.info
  request : c'.request = c.request
  attended : c'.attended = c.attended

theorem receive_keeps (c : Connection ω ι κ) (frame : Bytes) : c.Keeps (c.receive frame).2 := by
  have hreceived := c.received frame
  generalize (c.receive frame).2 = later at hreceived ⊢
  cases hreceived with
  | same => exact ⟨rfl, rfl, rfl, rfl⟩
  | answered e => exact ⟨post_state _ _, post_info _ _, post_request _ _, post_attended _ _⟩
  | concluded t => exact ⟨rfl, rfl, rfl, rfl⟩

def frames (c : Connection ω ι κ) : List Bytes := c.queue.filterMap Command.frame?

theorem frames_post (c : Connection ω ι κ) (x : Command) :
    (c.post x).frames = if c.attended then c.frames ++ x.frame?.toList else c.frames := by
  unfold post
  split
  · simp only [frames, List.filterMap_append, List.filterMap_cons, List.filterMap_nil]
    cases x.frame? <;> rfl
  · rfl

end Connection
end Parley
