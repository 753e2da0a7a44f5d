import Mathlib
import Parley.Proofs.Connection.Session

/-!
# What becomes of a waiter

Whatever the peer sends, the waiter of a request that was sent stands under its token until the
first event that settles it: a reply to the token, which it is handed, or the end of the connection,
which drops it. After that nothing happens to it any more. The waiter of a request that could not be
sent is never handed anything.
-/

namespace Parley.Session
variable {ι κ : Type}

inductive Fate where
  | waits
  | told (r : Reply)
  | dropped
deriving DecidableEq, Repr

/-- What an event means for a waiter under the token. -/
def settles (token : UInt32) : Event ι κ → Option Fate
  | .move .markClosed => some .dropped
  | .move _ => none
  | .frame bytes =>
    match Frame.reply? bytes with
    | some (id, r) => if id = token then some (.told r) else none
    | none => none

def fate (token : UInt32) (events : List (Event ι κ)) : Fate :=
  (events.findSome? (settles token)).getD .waits

def replies (s : Session ι κ) (n : Nat) : List Reply :=
  (s.handed.filter (·.1 == n)).map (·.2)

/-- Where the waiter of try `n` is: under at most one token, with what it was told, and dropped so
many times. -/
structure Stands (s : Session ι κ) (n : Nat) (place : Option UInt32) (told : List Reply)
    (drops : Nat) : Prop where
  pending : ∀ t, s.connection.pending.get? t = some n ↔ place.map (·.toNat) = some t
  replies : s.replies n = told
  dropped : s.dropped.count n = drops

/-- The three ways in which a waiter can stand. No two of them go together. -/
def Meets (s : Session ι κ) (n : Nat) (token : UInt32) : Fate → Prop
  | .waits => s.Stands n (some token) [] 0
  | .told r => s.Stands n none [r] 0
  | .dropped => s.Stands n none [] 1

variable {s : Session ι κ} {n drops : Nat} {place : Option UInt32} {told : List Reply}

theorem stands_next (h : s.Numbered) : s.Stands s.tries none [] 0 where
  pending t := by
    have hne : s.connection.pending.get? t ≠ some s.tries := fun ht =>
      Nat.lt_irrefl _ (h.pending t _ ht)
    simp [hne]
  replies := by
    have hnone : s.handed.filter (·.1 == s.tries) = [] := by
      refine List.filter_eq_nil_iff.2 fun p hp heq => ?_
      have hlt := h.handed p hp
      rw [beq_iff_eq.1 heq] at hlt
      exact Nat.lt_irrefl _ hlt
    rw [replies, hnone, List.map_nil]
  dropped := List.count_eq_zero.2 fun hmem => Nat.lt_irrefl _ (h.dropped _ hmem)

theorem perm_short {α : Type} {l r : List α} (h : l.Perm r) (hr : r.length ≤ 1) : l = r := by
  match r, hr with
  | [], _ => exact h.eq_nil
  | [a], _ => exact List.perm_singleton.1 h

theorem Stands.of_agrees {s' : Session ι κ} (h : s.Stands n place told drops)
    (ht : told.length ≤ 1) (ha : Agrees s s') : s'.Stands n place told drops where
  pending t := by
    rw [ha.pending]
    exact h.pending t
  replies := by
    have hperm : (s'.replies n).Perm (s.replies n) := (ha.handed.filter _).map _
    rw [h.replies] at hperm
    exact perm_short hperm ht
  dropped := by
    rw [ha.dropped]
    exact h.dropped

theorem Stands.ask (h : s.Stands n place told drops) (hn : n < s.tries) (body : Bytes) :
    (s.ask body).Stands n place told drops := by
  rcases s.ask_cases body with ⟨token, c, -, hc, heq⟩ | ⟨e, -, heq⟩
  · rw [heq]
    refine ⟨fun t => ?_, h.replies, h.dropped⟩
    rw [hc.get?, ← h.pending t]
    split_ifs with ht
    · rw [ht, hc.fresh]
      simp only [reduceCtorEq, iff_false, Option.some.injEq]
      omega
    · rfl
  · rw [heq]
    exact ⟨h.pending, h.replies, h.dropped⟩

theorem Stands.finish (h : s.Stands n place told drops) (i : Nat) (o : Outcome) :
    (s.finish i o).Stands n place told drops := by
  rcases s.finish_cases i o with ⟨q, -, -, heq⟩ | heq
  · rw [heq]
    refine ⟨fun t => ?_, h.replies, h.dropped⟩
    simpa [resolve, Connection.answer] using h.pending t
  · rw [heq]
    exact h

theorem count_dropped (h : s.Stands n place told drops) :
    s.connection.markClosed.1.count n = if place.isSome then 1 else 0 := by
  have hnodup : s.connection.pending.entries.Nodup :=
    s.connection.pending.descending.imp fun {a b} hlt heq => by
      rw [heq] at hlt
      exact Nat.lt_irrefl _ hlt
  change (s.connection.pending.entries.reverse.map (·.2)).count n = _
  rw [List.count, List.countP_map, List.countP_reverse]
  cases place with
  | none =>
    refine List.countP_eq_zero.2 fun e he hv => ?_
    have hget := Token.Store.get?_eq_some_iff.2 he
    rw [show e.2 = n by simpa using hv, h.pending] at hget
    simp at hget
  | some token =>
    have hmem : (token.toNat, n) ∈ s.connection.pending.entries :=
      Token.Store.get?_eq_some_iff.1 ((h.pending _).2 rfl)
    have honly : ∀ e ∈ s.connection.pending.entries,
        ((· == n) ∘ (·.2)) e = true ↔ (e == (token.toNat, n)) = true := by
      rintro ⟨t, m⟩ he
      simp only [Function.comp_apply, beq_iff_eq, Prod.mk.injEq, iff_and_self]
      rintro rfl
      have hget := Token.Store.get?_eq_some_iff.2 he
      simpa [eq_comm] using (h.pending t).1 hget
    rw [List.countP_congr honly]
    exact List.count_eq_one_of_mem hnodup hmem

theorem Stands.markClosed (h : s.Stands n place told drops) :
    (s.move .markClosed).Stands n none told (drops + if place.isSome then 1 else 0) where
  pending t := by
    simp [move, Connection.markClosed, Connection.drain, Token.Store.drain]
  replies := h.replies
  dropped := by
    change (s.dropped ++ s.connection.markClosed.1).count n = _
    rw [List.count_append, h.dropped, count_dropped h]

theorem replies_eq_append (s : Session ι κ) (n : Nat) :
    s.replies n =
      (s.due.filter (·.1 == n)).map (·.2) ++ (s.ran.filter (·.1 == n)).map (·.2) := by
  rw [replies, handed, List.filter_append, List.map_append]

theorem replies_due {m : Nat} {r : Reply} {c : Connection Nat ι κ} :
    ({ s with connection := c, due := s.due ++ [(m, r)] } : Session ι κ).replies n =
      ((s.due.filter (·.1 == n)).map (·.2) ++ if m = n then [r] else []) ++
        (s.ran.filter (·.1 == n)).map (·.2) := by
  rw [replies_eq_append]
  by_cases hm : m = n <;> simp [hm]

theorem Stands.receive (h : s.Stands n place told drops) {frame : Bytes}
    (hother : ∀ id r, Frame.reply? frame = some (id, r) → place ≠ some id) :
    (s.receive frame).Stands n place told drops := by
  cases ha : Frame.ask? frame with
  | some a =>
    rw [receive_of_ask ha]
    refine ⟨fun t => ?_, h.replies, h.dropped⟩
    rw [← h.pending t]
    simp only [Connection.answer]
    split_ifs <;> simp
  | none =>
    cases hr : Frame.reply? frame with
    | none =>
      rw [receive_of_neither ha hr]
      exact h
    | some a =>
      obtain ⟨id, r⟩ := a
      rcases receive_of_reply (s := s) hr with ⟨m, hm, heq⟩ | ⟨-, heq⟩
      · have hne := hother id r hr
        have hmn : m ≠ n := by
          rintro rfl
          obtain ⟨token, htoken, hval⟩ := Option.map_eq_some_iff.1 ((h.pending _).1 hm)
          exact hne (by rw [htoken, UInt32.toNat_inj.1 hval])
        rw [heq]
        refine ⟨fun t => ?_, ?_, h.dropped⟩
        · rw [← h.pending t, Token.Store.get?_erase]
          split_ifs with ht
          · rw [ht, hm]
            simp [hmn]
          · rfl
        · rw [replies_due, if_neg hmn, List.append_nil, ← replies_eq_append, h.replies]
      · rw [heq]
        exact h

theorem Stands.receive_told {token id : UInt32} {r : Reply} {frame : Bytes}
    (h : s.Stands n (some token) [] drops) (hr : Frame.reply? frame = some (id, r))
    (hid : id = token) : (s.receive frame).Stands n none [r] drops := by
  subst id
  have hn : s.connection.pending.get? token.toNat = some n := (h.pending _).2 rfl
  have hnone := h.replies
  rw [replies_eq_append, List.append_eq_nil_iff] at hnone
  rcases receive_of_reply (s := s) hr with ⟨m, hm, heq⟩ | ⟨hm, -⟩
  · obtain rfl : n = m := Option.some.inj (hn.symm.trans hm)
    rw [heq]
    refine ⟨fun t => ?_, ?_, h.dropped⟩
    · rw [Token.Store.get?_erase]
      split_ifs with ht
      · simp
      · rw [h.pending t]
        simpa [eq_comm] using ht
    · rw [replies_due, hnone.1, hnone.2, if_pos rfl]
      rfl
  · rw [hm] at hn
    simp at hn

theorem Stands.step (h : s.Stands n place told drops) (hn : n < s.tries) (ht : told.length ≤ 1)
    {e : Event ι κ} (he : ∀ token, place = some token → settles token e = none) :
    (s.step e).Stands n place told drops := by
  cases e with
  | frame bytes =>
    refine h.receive fun id r hr hp => ?_
    have hset := he id hp
    simp [settles, hr] at hset
  | move m =>
    by_cases hm : m.Quiet
    · exact h.of_agrees ht (agrees_of_quiet s hm)
    · cases m with
      | ask body => exact h.ask hn body
      | finish i o => exact h.finish i o
      | markClosed =>
        cases place with
        | none => exact h.markClosed
        | some token => exact absurd (he token rfl) (by simp [settles])
      | abandon => exact ⟨h.pending, h.replies, h.dropped⟩
      | _ => exact absurd trivial hm

theorem Stands.settle {token : UInt32} (h : s.Stands n (some token) [] 0) {e : Event ι κ} {f : Fate}
    (he : settles token e = some f) : (s.step e).Meets n token f := by
  cases e with
  | frame bytes =>
    simp only [settles] at he
    split at he
    · rename_i id r hr
      split_ifs at he with hid
      obtain rfl := Option.some.inj he
      exact h.receive_told hr hid
    · simp at he
  | move m =>
    cases m with
    | markClosed =>
      obtain rfl : Fate.dropped = f := by simpa [settles] using he
      exact h.markClosed
    | _ => simp [settles] at he

theorem tries_le_step (s : Session ι κ) (e : Event ι κ) : s.tries ≤ (s.step e).tries := by
  cases e with
  | frame bytes =>
    simp only [step, Session.receive]
    split <;> exact Nat.le_refl _
  | move m =>
    by_cases hm : m.Quiet
    · exact Nat.le_of_eq (agrees_of_quiet s hm).tries.symm
    · cases m with
      | ask body =>
        rcases s.ask_cases body with ⟨token, c, -, -, heq⟩ | ⟨e, -, heq⟩ <;>
          simp [step, move, heq]
      | finish i o =>
        rcases s.finish_cases i o with ⟨q, -, -, heq⟩ | heq <;>
          simp [step, move, heq, resolve]
      | markClosed => exact Nat.le_refl _
      | abandon => exact Nat.le_refl _
      | _ => exact absurd trivial hm

theorem Stands.run (h : s.Stands n none told drops) (hn : n < s.tries) (ht : told.length ≤ 1)
    (events : List (Event ι κ)) : (s.run events).Stands n none told drops := by
  induction events generalizing s with
  | nil => exact h
  | cons e rest ih =>
    exact ih (h.step hn ht (by simp)) (hn.trans_le (tries_le_step s e))

theorem Stands.run_fate {token : UInt32} (h : s.Stands n (some token) [] 0) (hn : n < s.tries)
    (events : List (Event ι κ)) : (s.run events).Meets n token (fate token events) := by
  induction events generalizing s with
  | nil => exact h
  | cons e rest ih =>
    have hlater := hn.trans_le (tries_le_step s e)
    cases he : settles token e with
    | none =>
      have hstep := h.step hn (by simp) (e := e) (by simpa using he)
      rw [fate, List.findSome?_cons, he]
      exact ih hstep hlater
    | some f =>
      have hmeets := h.settle he
      rw [fate, List.findSome?_cons, he]
      change ((s.step e).run rest).Meets n token f
      cases f with
      | waits => exact absurd he (by cases e <;> grind [settles])
      | told r => exact Stands.run hmeets hlater (by simp) rest
      | dropped => exact Stands.run hmeets hlater (by simp) rest

theorem Meets.unique {token : UInt32} {f g : Fate} (hf : s.Meets n token f)
    (hg : s.Meets n token g) : f = g := by
  cases f with
  | waits =>
    cases g with
    | waits => rfl
    | told r => simpa using hf.replies.symm.trans hg.replies
    | dropped => simpa using hf.dropped.symm.trans hg.dropped
  | told r =>
    cases g with
    | waits => simpa using hf.replies.symm.trans hg.replies
    | told r' => simpa using hf.replies.symm.trans hg.replies
    | dropped => simpa using hf.dropped.symm.trans hg.dropped
  | dropped =>
    cases g with
    | waits => simpa using hf.dropped.symm.trans hg.dropped
    | told r => simpa using hf.dropped.symm.trans hg.dropped
    | dropped => rfl

/-- In every run, the waiter of a request that was sent stands under a token that was free and went
out with the request, or it was handed the first reply to that token, once, or it was dropped. Which
of these it is depends on the events that came after only. A request that could not be sent changes
nothing. -/
theorem fate_of_request (state : Lifecycle) (info : Option ι) (request : Option κ)
    (before after : List (Event ι κ)) (body : Bytes) :
    let s := (start state info request).run before
    let later := s.run (.move (.ask body) :: after)
    match s.connection.sendRequest body s.tries with
    | (.ok (), c) => ∃ token,
        s.connection.pending.get? token.toNat = none ∧
        c.queue = s.connection.queue ++ [.frame (Envelope.request token body).encode] ∧
        ∀ f, later.Meets s.tries token f ↔ f = fate token after
    | (.error _, c) => c = s.connection ∧ later.Stands s.tries none [] 0 := by
  intro s later
  have hs : s.Numbered := run_keeps (fun _ e h => h.step e) (numbered_start state info request) _
  have hnext := stands_next hs
  rcases s.ask_cases body with ⟨token, c, hsend, hc, heq⟩ | ⟨e, hsend, heq⟩
  · simp only [hsend]
    have hstands : (s.ask body).Stands s.tries (some token) [] 0 := by
      rw [heq]
      refine ⟨fun t => ?_, hnext.replies, hnext.dropped⟩
      rw [hc.get?]
      split_ifs with ht
      · simp [ht]
      · rw [hnext.pending t]
        simpa [eq_comm] using ht
    have hlt : s.tries < (s.ask body).tries := by
      rw [heq]
      exact Nat.lt_succ_self _
    have hmeets : later.Meets s.tries token (fate token after) := hstands.run_fate hlt after
    refine ⟨token, hc.fresh, hc.queue, fun f => ⟨fun hf => hf.unique hmeets, ?_⟩⟩
    rintro rfl
    exact hmeets
  · simp only [hsend, true_and]
    have hstands : (s.ask body).Stands s.tries none [] 0 := by
      rw [heq]
      exact ⟨hnext.pending, hnext.replies, hnext.dropped⟩
    have hlt : s.tries < (s.ask body).tries := by
      rw [heq]
      exact Nat.lt_succ_self _
    exact hstands.run hlt (by simp) after

end Parley.Session
