import Mathlib
import Parley.Proofs.Connection.Operations

/-!
# What a frame can do to a connection

Whatever octets a peer sends, a frame changes little. A reply takes its own waiter and no other, a
request that finds no handler is refused on the spot, and a request or an info with a handler starts
that handler. Every other frame is as if it had not come.
-/

namespace Parley.Connection
variable {ω ι κ : Type}

theorem receive_pending (c : Connection ω ι κ) (frame : Bytes) (t : Nat) :
    (c.receive frame).2.pending.get? t =
      if (Frame.reply? frame).map (·.1.toNat) = some t then none else c.pending.get? t := by
  cases Frame.meaning frame with
  | malformed hd ha hr ht => simp [receive_of_malformed hd, hr]
  | asks ha hr ht =>
    rw [receive_of_ask ha, hr]
    cases c.request with
    | some handler => rfl
    | none => simp [answer]
  | replies ha hr ht =>
    rename_i id r
    rw [receive_of_reply hr, hr]
    cases hw : c.pending.get? id.toNat with
    | some waiter => simp [conclude_of_some hw, eq_comm]
    | none =>
      rw [conclude_of_none hw]
      split_ifs with heq
      · obtain rfl : id.toNat = t := Option.some.inj heq
        exact hw
      · rfl
  | tells ha hr ht => simp [receive_of_tell ht, hr]

def refusal (c : Connection ω ι κ) (frame : Bytes) : List Command :=
  match Frame.ask? frame, c.request with
  | some (id, _), none =>
    if c.attended then
      [.frame (Envelope.requestError id (Bytes.ofString "No request handler set")).encode]
    else []
  | _, _ => []

theorem receive_queue (c : Connection ω ι κ) (frame : Bytes) :
    (c.receive frame).2.queue = c.queue ++ c.refusal frame := by
  cases Frame.meaning frame with
  | malformed hd ha hr ht => simp [receive_of_malformed hd, refusal, ha]
  | asks ha hr ht =>
    rw [receive_of_ask ha]
    simp only [refusal, ha]
    cases c.request with
    | some handler => simp
    | none =>
      simp only [answer, post]
      split_ifs
      · rfl
      · simp
  | replies ha hr ht =>
    rename_i id r
    rw [receive_of_reply hr]
    simp only [refusal, ha, List.append_nil]
    cases hw : c.pending.get? id.toNat with
    | some waiter => rw [conclude_of_some hw]
    | none => rw [conclude_of_none hw]
  | tells ha hr ht => simp [receive_of_tell ht, refusal, ha]

inductive Starts (c : Connection ω ι κ) (frame : Bytes) : Dispatch ω ι κ → Prop where
  | inform {handler : ι} {body : Bytes} (hframe : Frame.tell? frame = some body)
    (hhandler : c.info = some handler) : Starts c frame (.inform handler body)
  | serve {handler : κ} {id : UInt32} {body : Bytes} (hframe : Frame.ask? frame = some (id, body))
    (hhandler : c.request = some handler) : Starts c frame (.serve handler id body)
  | conclude {waiter : ω} {id : UInt32} {r : Reply} (hframe : Frame.reply? frame = some (id, r))
    (hwaits : c.pending.get? id.toNat = some waiter) : Starts c frame (.conclude waiter r)

theorem starts_of_receive {c : Connection ω ι κ} {frame : Bytes} {d : Dispatch ω ι κ}
    (h : (c.receive frame).1 = some d) : c.Starts frame d := by
  cases Frame.meaning frame with
  | malformed hd ha hr ht => simp [receive_of_malformed hd] at h
  | asks ha hr ht =>
    rw [receive_of_ask ha] at h
    cases hh : c.request with
    | some handler =>
      rw [hh] at h
      obtain rfl := Option.some.inj h
      exact .serve ha hh
    | none => simp [hh] at h
  | replies ha hr ht =>
    rename_i id r
    rw [receive_of_reply hr] at h
    cases hw : c.pending.get? id.toNat with
    | some waiter =>
      rw [conclude_of_some hw] at h
      obtain rfl := Option.some.inj h
      exact .conclude hr hw
    | none => simp [conclude_of_none hw] at h
  | tells ha hr ht =>
    rw [receive_of_tell ht] at h
    obtain ⟨handler, hh, rfl⟩ := Option.map_eq_some_iff.1 h
    exact .inform ht hh

theorem Starts.receive {c : Connection ω ι κ} {frame : Bytes} {d : Dispatch ω ι κ}
    (h : c.Starts frame d) : (c.receive frame).1 = some d := by
  cases h with
  | inform hframe hhandler => simp [receive_of_tell hframe, hhandler]
  | serve hframe hhandler => simp [receive_of_ask hframe, hhandler]
  | conclude hframe hwaits => simp [receive_of_reply hframe, conclude_of_some hwaits]

inductive Ignores (c : Connection ω ι κ) (frame : Bytes) : Prop where
  | malformed {m : Envelope.Malformed} (h : Envelope.decode frame = .error m)
  | unmatched {id : UInt32} {r : Reply} (hframe : Frame.reply? frame = some (id, r))
    (hwaits : c.pending.get? id.toNat = none)
  | unheard {body : Bytes} (hframe : Frame.tell? frame = some body) (hhandler : c.info = none)

theorem Ignores.receive {c : Connection ω ι κ} {frame : Bytes} (h : c.Ignores frame) :
    c.receive frame = (none, c) := by
  cases h with
  | malformed h => exact receive_of_malformed h
  | unmatched hframe hwaits => rw [receive_of_reply hframe, conclude_of_none hwaits]
  | unheard hframe hhandler => rw [receive_of_tell hframe, hhandler, Option.map_none]

/-- A frame from the peer leaves the stage and the handlers alone, takes out the waiter under the
token of its reply and no other, queues nothing but the refusal of a request without a handler, and
starts one piece of work at most, which is the handler's that is there or the waiter's. A frame that
cannot be read, a reply nobody waits for and an info nobody hears change nothing and start nothing;
and the id of an info never counts. -/
theorem receive_bounded (c : Connection ω ι κ) (frame : Bytes) :
    let r := c.receive frame
    (r.2.state = c.state ∧ r.2.info = c.info ∧ r.2.request = c.request) ∧
    (∀ t, r.2.pending.get? t =
      if (Frame.reply? frame).map (·.1.toNat) = some t then none else c.pending.get? t) ∧
    (r.2.queue = c.queue ++ c.refusal frame ∧ (c.refusal frame).length ≤ 1) ∧
    (∀ d, r.1 = some d ↔ c.Starts frame d) ∧
    (c.Ignores frame → r = (none, c)) ∧
    ∀ other body, Frame.tell? frame = some body → Frame.tell? other = some body →
      c.receive other = r := by
  intro r
  have hkeeps := c.receive_keeps frame
  refine ⟨⟨hkeeps.state, hkeeps.info, hkeeps.request⟩, c.receive_pending frame,
    ⟨c.receive_queue frame, ?_⟩, fun d => ⟨starts_of_receive, Starts.receive⟩, Ignores.receive,
    fun other body hframe hother => ?_⟩
  · unfold refusal
    split
    · split_ifs <;> simp
    · simp
  · rw [receive_of_tell hother]
    exact (receive_of_tell hframe).symm

theorem receive_bounded_pair :
    let fresh : Connection Nat Unit Unit := { state := .opened }
    let c := ((fresh.sendRequest [1] 10).2.sendRequest [2] 20).2
    let reply (id : UInt32) := (Envelope.response id [3]).encode
    let info (id : UInt32) := Envelope.encode ⟨.info, id, [4]⟩
    (c.receive (reply 1)).1 = some (.conclude 20 (.ok [3])) ∧
      (c.receive (reply 1)).2.pending.get? 0 = some 10 ∧
      (c.receive (reply 1)).2.pending.get? 1 = none ∧
      c.receive (reply 2) = (none, c) ∧ c.receive [1, 0] = (none, c) ∧
      c.receive (info 1) = (none, c) ∧ c.receive (info 0) = c.receive (info 1) := by
  intro fresh c reply info
  have hfirst : Frame.reply? (reply 1) = some (1, .ok [3]) := by decide
  have hother : Frame.reply? (reply 2) = some (2, .ok [3]) := by decide
  have hshort : Envelope.decode [1, 0] = .error (.short 2) := rfl
  have htell (id : UInt32) : Frame.tell? (info id) = some [4] := Frame.tell?_encode_info id [4]
  have hstarts : c.Starts (reply 1) (.conclude 20 (.ok [3])) := .conclude hfirst (by decide)
  exact ⟨((c.receive_bounded (reply 1)).2.2.2.1 _).2 hstarts,
    (c.receive_bounded (reply 1)).2.1 0, (c.receive_bounded (reply 1)).2.1 1,
    (c.receive_bounded (reply 2)).2.2.2.2.1 (.unmatched hother (by decide)),
    (c.receive_bounded [1, 0]).2.2.2.2.1 (.malformed hshort),
    (c.receive_bounded (info 1)).2.2.2.2.1 (.unheard (htell 1) rfl),
    (c.receive_bounded (info 1)).2.2.2.2.2 (info 0) [4] (htell 1) (htell 0)⟩

end Parley.Connection
