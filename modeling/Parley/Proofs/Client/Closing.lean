import Mathlib
import Parley.Proofs.Client.Succession

/-!
# After a close has returned

The first close of a connection waits for its task. A later one finds that this has been done, and
returns at once. So no connection lets anything through after a close has returned, unless the wait
of an earlier one was given up. Handlers have tasks of their own, for which no close waits.
-/

namespace Parley.Client.Succession
variable {m : Type → Type} {ω ι κ : Type} {s s' : Succession m ω ι κ}

open Simulation

/-- A close of the client returns in this step. -/
def Returns (s : Succession m ω ι κ) : Event m ω ι κ → Prop
  | .use .close => s.call = .idle ∧ (s.client.active = none ∨ s.joinable = false)
  | .goOn _ => ∃ id, s.call = .closing id ∧ s.isOver id = true
  | _ => False

/-- The connection whose close is given up in this step, before its task is over. -/
def givesUp (s : Succession m ω ι κ) : Event m ω ι κ → Option Nat
  | .cancel => match s.call with
    | .closing id => some id
    | _ => none
  | _ => none

def givenUp (s : Succession m ω ι κ) : List (Event m ω ι κ) → List Nat
  | [] => []
  | e :: rest => (s.givesUp e).toList ++ (s.step e).2.givenUp rest

theorem Moves.drives_sound {told : Option (Except Error Unit)} (h : Moves s told s')
    (hsound : ∀ d ∈ s.drives, d.Sound) : ∀ d ∈ s'.drives, d.Sound := by
  cases h with
  | kept active drives => rwa [drives]
  | acted id e active drives =>
    intro d hd
    obtain ⟨i, hi⟩ := List.mem_iff_getElem?.1 hd
    rw [drives, List.getElem?_modify] at hi
    obtain ⟨old, hold, rfl⟩ := Option.map_eq_some_iff.1 hi
    have hbefore := hsound old (List.mem_of_getElem? hold)
    split_ifs
    · exact hbefore.step e
    · exact hbefore
  | began =>
    intro d hd
    rcases List.mem_append.1 hd with hold | hnew
    · exact hsound d hold
    · rw [List.mem_singleton.1 hnew]
      exact Drive.sound_start _
  | _ => exact hsound

/-- A connection stays, and something may happen to it. -/
theorem Moves.drive {told : Option (Except Error Unit)} (h : Moves s told s') {i : Nat}
    {d : Drive ω ι κ} (hd : s.drives[i]? = some d) :
    ∃ events, s'.drives[i]? = some (d.run events) := by
  cases h with
  | kept active drives => exact ⟨[], drives ▸ hd⟩
  | acted id e active drives =>
    by_cases hid : id = i
    · exact ⟨[e], by simp [drives, hid, hd, Drive.run]⟩
    · exact ⟨[], by simp [drives, hid, hd, Drive.run]⟩
  | began =>
    refine ⟨[], ?_⟩
    rw [List.getElem?_append_left (List.getElem?_eq_some_iff.1 hd).1, hd, Drive.run, List.foldl_nil]
  | _ => exact ⟨[], hd⟩

/-- A connection nobody can wait for any more is being waited for, is closed, or is one whose close
was given up. -/
structure Attended (s : Succession m ω ι κ) (gone : List Nat) : Prop where
  latest : ∀ id, s.call = .closing id → s.client.active = some id
  taken : ∀ id, s.client.active = some id → s.joinable = false →
    s.call = .closing id ∨ s.stateOf id = .closed ∨ id ∈ gone

variable {gone : List Nat}

theorem Attended.mono {more : List Nat} (h : s.Attended gone) : s.Attended (gone ++ more) where
  latest := h.latest
  taken id hactive hjoinable := (h.taken id hactive hjoinable).imp_right fun h =>
    h.imp_right (List.mem_append_left _)

theorem Attended.act (h : s.Attended gone) (id : Nat) (e : Client.Event ω ι κ) :
    (s.act id e).Attended gone where
  latest := h.latest
  taken i hactive hjoinable := (h.taken i hactive hjoinable).imp_right fun h =>
    h.imp_left fun hclosed => closed_of_le hclosed (stateOf_le_of_modify rfl)

theorem Attended.client (h : s.Attended gone) (client : Client (Tls.Settings.Of m) ι κ)
    (hactive : client.active = s.client.active) : ({ s with client }).Attended gone where
  latest id hcall := hactive.trans (h.latest id hcall)
  taken id hid := h.taken id (hactive ▸ hid)

theorem Attended.install (h : s.Attended gone) (client : Client (Tls.Settings.Of m) ι κ)
    (u : Pump.Use ω ι κ) (hactive : client.active = s.client.active) :
    (s.install client u).Attended gone := by
  unfold Succession.install
  cases s.client.active with
  | none => exact h.client client hactive
  | some id => exact (h.act id _).client client hactive

theorem close_of_active {id : Nat} (h : s.client.active = some id) :
    s.close = { s.act id (.use .close) with
      joinable := false
      call := if s.joinable then .closing id else .idle } := by
  rw [Succession.close, h]

theorem Attended.close (h : s.Attended gone) (hidle : s.call = .idle) : s.close.Attended gone := by
  cases hactive : s.client.active with
  | none => rwa [Succession.close, hactive]
  | some id =>
    rw [close_of_active hactive]
    cases hjoinable : s.joinable with
    | true =>
      refine ⟨fun i hcall => ?_, fun i hi _ => .inl ?_⟩
      · obtain rfl := Call.closing.inj hcall
        exact hactive
      · obtain rfl := Option.some.inj (hactive.symm.trans hi)
        rfl
    | false =>
      have hact := h.act id (.use .close)
      exact ⟨nofun, fun i hi _ => .inr ((hact.taken i hi hjoinable).resolve_left (hidle ▸ nofun))⟩

theorem Attended.use (h : s.Attended gone) (hidle : s.call = .idle) (u : Use m ι κ) :
    (s.use u).2.Attended gone := by
  cases u with
  | connect uri =>
    rw [Succession.use, connect]
    cases hrelease : s.client.release s.stateOf with
    | error e => exact h
    | ok client =>
      refine ⟨fun id hcall => ?_, fun id hactive => ?_⟩
      · cases hcall
      · rw [(release_ok hrelease).1] at hactive
        cases hactive
  | close => exact h.close hidle
  | configure settings => exact h.client _ rfl
  | setInfo handler => exact h.install _ _ rfl
  | setRequest handler => exact h.install _ _ rfl

theorem closed_of_isOver (hdrives : ∀ d ∈ s.drives, d.Sound) {id : Nat} (h : s.isOver id = true) :
    s.stateOf id = .closed := by
  rw [stateOf]
  cases hd : s.drives[id]? with
  | none => rfl
  | some d =>
    have hfinished : d.stage = .finished := by simpa [isOver, hd] using h
    exact ((hdrives d (List.mem_of_getElem? hd)).closed hfinished).1

theorem Attended.goOn (h : s.Attended gone) (hsound : s.Sound)
    (hdrives : ∀ d ∈ s.drives, d.Sound) (disk : Disk) : (s.goOn disk).2.Attended gone := by
  unfold Succession.goOn
  cases hcall : s.call with
  | idle => exact h
  | closing id =>
    dsimp only
    split_ifs with hover
    · refine ⟨nofun, fun i hi _ => .inr (.inl ?_)⟩
      obtain rfl := Option.some.inj ((h.latest id hcall).symm.trans hi)
      exact closed_of_isOver hdrives hover
    · exact h
  | connecting uri old =>
    have hfree : s.client.active = none := hsound.free uri old hcall
    dsimp only
    split_ifs
    · cases Network.prepare s.backend disk s.client.settings uri with
      | error e => exact ⟨nofun, fun i hi => absurd (hfree.symm.trans hi) (by simp)⟩
      | ok d => exact ⟨nofun, nofun⟩
    · exact h

theorem Attended.step (h : s.Attended gone) (hsound : s.Sound) (hdrives : ∀ d ∈ s.drives, d.Sound)
    (e : Event m ω ι κ) : (s.step e).2.Attended (gone ++ (s.givesUp e).toList) := by
  cases e with
  | use u =>
    rw [Succession.step]
    split_ifs with hidle
    · exact (h.use hidle u).mono
    · exact h.mono
  | goOn disk => exact (h.goOn hsound hdrives disk).mono
  | cancel =>
    refine ⟨fun id hcall => ?_, fun id hactive hjoinable => .inr ?_⟩
    · cases hcall
    · rcases h.taken id hactive hjoinable with hclosing | hdone
      · exact .inr (by simp [givesUp, hclosing])
      · exact hdone.imp_right (List.mem_append_left _)
  | act id e => exact (h.act id e).mono

theorem attended_run (h : s.Attended gone) (hsound : s.Sound) (hdrives : ∀ d ∈ s.drives, d.Sound)
    (events : List (Event m ω ι κ)) : (s.run events).Attended (gone ++ s.givenUp events) := by
  induction events generalizing s gone with
  | nil => simpa [givenUp, run] using h
  | cons e rest ih =>
    rw [givenUp, ← List.append_assoc]
    exact ih (h.step hsound hdrives e) (hsound.moves (s.moves e)) ((s.moves e).drives_sound hdrives)

theorem Returns.told {e : Event m ω ι κ} (h : s.Returns e) : (s.step e).1 = none := by
  cases e with
  | use u =>
    cases u with
    | close =>
      rw [step]
      split_ifs <;> rfl
    | _ => exact h.elim
  | goOn disk =>
    obtain ⟨id, hcall, -⟩ := h
    simp only [step, goOn, hcall]
  | _ => exact h.elim

def served : List (Event Id Nat Unit Unit) :=
  [.use (.setInfo ()), .use (.setRequest ()), .use (.connect "ws://a"),
    .goOn fun _ => .error .missing, .act 0 (.dialed true), .act 0 .proceed,
    .act 0 (.use (.ask [1] 0)), .act 0 (.turn (.incoming (.data (Envelope.info [2]).encode))),
    .act 0 (.turn (.incoming (.data (Envelope.request 7 [3]).encode))),
    .act 0 (.turn (.incoming (.data (Envelope.response 0 [4]).encode)))]

def overtaken : List (Event Id Nat Unit Unit) :=
  served ++ [.use .close, .act 0 (.turn (.command true)), .act 0 (.turn (.command true)),
    .act 0 (.turn (.incoming .close)), .act 0 .proceed]

end Parley.Client.Succession
