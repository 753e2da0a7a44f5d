import Mathlib
import Parley.Proofs.Client
import Parley.Simulation.Network

/-!
# One connection after the other

A client begins a connection only after it has given up the one before, and gives up none that is
not closed. Its calls exclude each other, but each of them may have to wait, and meanwhile and in
between the tasks of all its connections go on, and others use the connections as they like.
-/

namespace Parley.Client
variable {m : Type → Type} {ω ι κ : Type}

open Simulation

theorem Drive.state_le_step (d : Drive ω ι κ) (e : Event ω ι κ) :
    d.connection.state ≤ (d.step e).connection.state := by
  cases e with
  | use u => exact Pump.state_le_use d.connection u
  | dialed socket =>
    simp only [step]
    split_ifs <;> exact Lifecycle.le_refl _
  | proceed =>
    have hproceeds := d.proceeds
    rw [step]
    generalize d.proceed = later at hproceeds ⊢
    cases hproceeds with
    | opened dialed connecting =>
      rw [connecting]
      exact (by decide : Lifecycle.connecting ≤ .opened)
    | gaveUp => exact Lifecycle.le_closed _
    | _ => exact Lifecycle.le_refl _
  | turn t =>
    simp only [step, turn]
    split_ifs
    · exact d.line.state_le_turn t
    · exact Lifecycle.le_refl _
  | begin place =>
    simp only [step, begin]
    split_ifs <;> exact Lifecycle.le_refl _

inductive Call where
  | idle
  /-- A connection to the target is due as soon as the old task, if there is one, is over. -/
  | connecting (uri : String) (old : Option Nat)
  | closing (id : Nat)
deriving DecidableEq

structure Succession (m : Type → Type) (ω ι κ : Type) where
  backend : Tls.Backend
  client : Client (Tls.Settings.Of m) ι κ
  drives : List (Drive ω ι κ) := []
  /-- Nobody has waited for the task of the latest connection yet. -/
  joinable : Bool := false
  call : Call := .idle

namespace Succession

inductive Use (m : Type → Type) (ι κ : Type) where
  | connect (uri : String)
  | close
  | configure (settings : Tls.Settings.Of m)
  | setInfo (handler : ι)
  | setRequest (handler : κ)

inductive Event (m : Type → Type) (ω ι κ : Type) where
  | use (u : Use m ι κ)
  | goOn (disk : Disk)
  | cancel
  | act (id : Nat) (e : Client.Event ω ι κ)

def start (backend : Tls.Backend) (settings : Tls.Settings.Of m) : Succession m ω ι κ :=
  { backend, client := { settings } }

/-- What was never begun is closed. -/
def stateOf (s : Succession m ω ι κ) (id : Nat) : Lifecycle :=
  (s.drives[id]?.map (·.connection.state)).getD .closed

def isOver (s : Succession m ω ι κ) (id : Nat) : Bool := s.drives[id]?.all (·.stage = .finished)

def act (s : Succession m ω ι κ) (id : Nat) (e : Client.Event ω ι κ) : Succession m ω ι κ :=
  { s with drives := s.drives.modify id (·.step e) }

def connect (s : Succession m ω ι κ) (uri : String) :
    Option (Except Error Unit) × Succession m ω ι κ :=
  match s.client.release s.stateOf with
  | .error e => (some (.error e), s)
  | .ok client =>
    let old := if s.joinable then s.client.active else none
    (none, { s with client, joinable := false, call := .connecting uri old })

def close (s : Succession m ω ι κ) : Succession m ω ι κ :=
  match s.client.active with
  | none => s
  | some id =>
    { s.act id (.use .close) with
      joinable := false
      call := if s.joinable then .closing id else .idle }

def install (s : Succession m ω ι κ) (client : Client (Tls.Settings.Of m) ι κ)
    (u : Pump.Use ω ι κ) : Succession m ω ι κ :=
  match s.client.active with
  | none => { s with client }
  | some id => { s.act id (.use u) with client }

def use (s : Succession m ω ι κ) : Use m ι κ → Option (Except Error Unit) × Succession m ω ι κ
  | .connect uri => s.connect uri
  | .close => (none, s.close)
  | .configure settings => (none, { s with client := { s.client with settings } })
  | .setInfo h => (none, s.install { s.client with info := some h } (.setInfo (some h)))
  | .setRequest h => (none, s.install { s.client with request := some h } (.setRequest (some h)))

def goOn (s : Succession m ω ι κ) (disk : Disk) :
    Option (Except Error Unit) × Succession m ω ι κ :=
  match s.call with
  | .idle => (none, s)
  | .closing id => (none, if s.isOver id then { s with call := .idle } else s)
  | .connecting uri old =>
    if old.all s.isOver then
      match s.client.launch (Network.prepare s.backend disk s.client.settings uri)
          s.drives.length with
      | (.error e, client) => (some (.error e), { s with client, call := .idle })
      | (.ok _, client) =>
        (some (.ok ()),
          { s with
            client, drives := s.drives ++ [.start client], joinable := true, call := .idle })
    else (none, s)

/-- One step, with the result of a connect that returns in it. A client that is in a call is not
asked for anything else. -/
def step (s : Succession m ω ι κ) : Event m ω ι κ → Option (Except Error Unit) × Succession m ω ι κ
  | .use u => if s.call = .idle then s.use u else (none, s)
  | .goOn disk => s.goOn disk
  | .cancel => (none, { s with call := .idle })
  | .act id e => (none, s.act id e)

def run (s : Succession m ω ι κ) (events : List (Event m ω ι κ)) : Succession m ω ι κ :=
  events.foldl (fun s e => (s.step e).2) s

def outcomes (s : Succession m ω ι κ) : List (Event m ω ι κ) → List (Except Error Unit)
  | [] => []
  | e :: rest => (s.step e).1.toList ++ (s.step e).2.outcomes rest

variable {s s' : Succession m ω ι κ}

theorem release_ok {σ : Type} {c c' : Client σ ι κ} {state : Nat → Lifecycle}
    (h : c.release state = .ok c') :
    c'.active = none ∧ ∀ id, c.active = some id → state id = .closed := by
  unfold release at h
  cases hactive : c.active with
  | none =>
    obtain rfl : c = c' := by simpa [hactive] using h
    exact ⟨hactive, nofun⟩
  | some id =>
    simp only [hactive] at h
    split_ifs at h with hclosed
    obtain rfl := Except.ok.inj h
    exact ⟨rfl, by rintro _ ⟨⟩; exact hclosed⟩

theorem release_of_live {σ : Type} {c : Client σ ι κ} {state : Nat → Lifecycle} {id : Nat}
    (hactive : c.active = some id) (hlive : state id ≠ .closed) :
    c.release state = .error alreadyConnected := by
  simp only [release, hactive, if_neg hlive]

theorem release_of_closed {σ : Type} {c : Client σ ι κ} {state : Nat → Lifecycle}
    (h : ∀ id, state id = .closed) : ∃ c', c.release state = .ok c' := by
  unfold release
  cases c.active with
  | none => exact ⟨c, rfl⟩
  | some id => exact ⟨{ c with active := none }, if_pos (h id)⟩

theorem stateOf_le_of_modify {i id : Nat} {e : Client.Event ω ι κ}
    (h : s'.drives = s.drives.modify id (·.step e)) : s.stateOf i ≤ s'.stateOf i := by
  simp only [stateOf, h, List.getElem?_modify]
  cases s.drives[i]? with
  | none => exact Lifecycle.le_refl _
  | some d =>
    by_cases hid : id = i
    · simpa [hid] using d.state_le_step e
    · simpa [hid] using Lifecycle.le_refl _

/-- A step, with the result it gives, by what it does to the client and to its connections. -/
inductive Moves (s : Succession m ω ι κ) :
    Option (Except Error Unit) → Succession m ω ι κ → Prop where
  | kept {s' : Succession m ω ι κ} (active : s'.client.active = s.client.active)
      (drives : s'.drives = s.drives)
      (call : ∀ uri old, s'.call = .connecting uri old → s.call = .connecting uri old) :
    Moves s none s'
  | acted {s' : Succession m ω ι κ} (id : Nat) (e : Client.Event ω ι κ)
      (active : s'.client.active = s.client.active)
      (drives : s'.drives = s.drives.modify id (·.step e))
      (call : ∀ uri old, s'.call = .connecting uri old → s.call = .connecting uri old) :
    Moves s none s'
  | refused (e : Error) : Moves s (some (.error e)) s
  | gaveUp {client : Client (Tls.Settings.Of m) ι κ} (call : Call)
      (closed : ∀ id, s.client.active = some id → s.stateOf id = .closed)
      (free : client.active = none) :
    Moves s none { s with client, joinable := false, call }
  | failed (e : Error) : Moves s (some (.error e)) { s with call := .idle }
  | began {client : Client (Tls.Settings.Of m) ι κ} {uri : String} {old : Option Nat}
      (connecting : s.call = .connecting uri old) (held : client.active = some s.drives.length) :
    Moves s (some (.ok ()))
      { s with client, drives := s.drives ++ [.start client], joinable := true, call := .idle }

theorem moves_connect (s : Succession m ω ι κ) (uri : String) :
    Moves s (s.connect uri).1 (s.connect uri).2 := by
  unfold connect
  cases hrelease : s.client.release s.stateOf with
  | error e => exact .refused e
  | ok client =>
    obtain ⟨hfree, hclosed⟩ := release_ok hrelease
    exact .gaveUp _ hclosed hfree

theorem moves_close (s : Succession m ω ι κ) : Moves s none s.close := by
  unfold close
  cases hactive : s.client.active with
  | none => exact .kept rfl rfl fun _ _ h => h
  | some id =>
    refine .acted id _ rfl rfl fun uri old h => ?_
    split_ifs at h

theorem moves_install (s : Succession m ω ι κ) (client : Client (Tls.Settings.Of m) ι κ)
    (u : Pump.Use ω ι κ) (h : client.active = s.client.active) :
    Moves s none (s.install client u) := by
  unfold install
  cases hactive : s.client.active with
  | none => exact .kept h rfl fun _ _ h => h
  | some id => exact .acted id _ h rfl fun _ _ h => h

theorem moves_use (s : Succession m ω ι κ) (u : Use m ι κ) : Moves s (s.use u).1 (s.use u).2 := by
  cases u with
  | connect uri => exact s.moves_connect uri
  | close => exact s.moves_close
  | configure settings => exact .kept rfl rfl fun _ _ h => h
  | setInfo h => exact s.moves_install _ _ rfl
  | setRequest h => exact s.moves_install _ _ rfl

theorem moves_goOn (s : Succession m ω ι κ) (disk : Disk) :
    Moves s (s.goOn disk).1 (s.goOn disk).2 := by
  have hidle : Moves s none s := .kept rfl rfl fun _ _ h => h
  unfold goOn
  cases hcall : s.call with
  | idle => exact hidle
  | closing id =>
    dsimp only
    split_ifs
    · exact .kept rfl rfl nofun
    · exact hidle
  | connecting uri old =>
    dsimp only
    split_ifs
    · cases hprepare : Network.prepare s.backend disk s.client.settings uri with
      | error e => exact .failed e
      | ok d => exact .began hcall rfl
    · exact hidle

theorem moves (s : Succession m ω ι κ) (e : Event m ω ι κ) : Moves s (s.step e).1 (s.step e).2 := by
  cases e with
  | use u =>
    unfold step
    split_ifs with hidle
    · exact s.moves_use u
    · exact .kept rfl rfl fun _ _ h => h
  | goOn disk => exact s.moves_goOn disk
  | cancel => exact .kept rfl rfl nofun
  | act id e => exact .acted id e rfl rfl fun _ _ h => h

theorem Moves.le_of_none (h : Moves s none s') (i : Nat) : s.stateOf i ≤ s'.stateOf i := by
  cases h with
  | kept active drives =>
    simp only [stateOf, drives]
    exact Lifecycle.le_refl _
  | acted id e active drives => exact stateOf_le_of_modify drives
  | gaveUp => exact Lifecycle.le_refl _

theorem Moves.length {told : Option (Except Error Unit)} (h : Moves s told s') :
    s'.drives.length = s.drives.length + told.toList.countP Except.isOk := by
  cases h with
  | kept active drives => rw [drives]; rfl
  | acted id e active drives => rw [drives, List.length_modify]; rfl
  | refused e => rfl
  | gaveUp => rfl
  | failed e => rfl
  | began => simp [Except.isOk, Except.toBool]

structure Sound (s : Succession m ω ι κ) : Prop where
  live : ∀ i, s.stateOf i ≠ .closed → s.client.active = some i
  free : ∀ uri old, s.call = .connecting uri old → s.client.active = none

theorem sound_start (backend : Tls.Backend) (settings : Tls.Settings.Of m) :
    (start backend settings : Succession m ω ι κ).Sound where
  live _ h := absurd rfl h
  free := nofun

theorem stateOf_append {d : Drive ω ι κ} (h : s'.drives = s.drives ++ [d]) {i : Nat}
    (hi : i ≠ s.drives.length) : s'.stateOf i = s.stateOf i := by
  rw [stateOf, stateOf, h, List.getElem?_append]
  split_ifs with hlt
  · rfl
  · have hold : s.drives.length ≤ i := by omega
    have hbeyond : i - s.drives.length ≠ 0 := by omega
    rw [List.getElem?_eq_none hold, List.getElem?_singleton, if_neg hbeyond]

theorem closed_of_le {i : Nat} (h : s.stateOf i = .closed) (hle : s.stateOf i ≤ s'.stateOf i) :
    s'.stateOf i = .closed :=
  Lifecycle.le_antisymm (Lifecycle.le_closed _) (h ▸ hle)

theorem Sound.of_le (h : s.Sound) (active : s'.client.active = s.client.active)
    (le : ∀ i, s.stateOf i ≤ s'.stateOf i)
    (call : ∀ uri old, s'.call = .connecting uri old → s.call = .connecting uri old) :
    s'.Sound where
  live i hi := active.trans (h.live i fun hclosed => hi (closed_of_le hclosed (le i)))
  free uri old hcall := active.trans (h.free uri old (call uri old hcall))

theorem Sound.moves {told : Option (Except Error Unit)} (h : s.Sound) (hmoves : Moves s told s') :
    s'.Sound := by
  cases hmoves with
  | kept active drives call =>
    exact h.of_le active (Moves.kept active drives call).le_of_none call
  | acted id e active drives call =>
    exact h.of_le active (Moves.acted id e active drives call).le_of_none call
  | refused e => exact h
  | gaveUp call closed free =>
    refine ⟨fun i hi => absurd ?_ hi, fun _ _ _ => free⟩
    by_contra hlive
    exact hlive (closed i (h.live i hlive))
  | failed e => exact ⟨h.live, nofun⟩
  | began connecting held =>
    refine ⟨fun i hi => ?_, nofun⟩
    by_cases hnew : i = s.drives.length
    · rw [hnew]
      exact held
    · -- the one before was given up when the call began
      rw [stateOf_append rfl hnew] at hi
      have hactive := h.live i hi
      rw [h.free _ _ connecting] at hactive
      cases hactive

theorem sound_run (h : s.Sound) (events : List (Event m ω ι κ)) : (s.run events).Sound := by
  induction events generalizing s with
  | nil => exact h
  | cons e rest ih => exact ih (h.moves (s.moves e))

theorem length_run (s : Succession m ω ι κ) (events : List (Event m ω ι κ)) :
    (s.run events).drives.length =
      s.drives.length + (s.outcomes events).countP Except.isOk := by
  induction events generalizing s with
  | nil => rfl
  | cons e rest ih =>
    calc (s.run (e :: rest)).drives.length
        = (s.step e).2.drives.length + ((s.step e).2.outcomes rest).countP Except.isOk := ih _
      _ = s.drives.length + (s.outcomes (e :: rest)).countP Except.isOk := by
        rw [(s.moves e).length, outcomes, List.countP_append, Nat.add_assoc]

theorem Moves.drives_of_error {told : Option (Except Error Unit)} {e : Error}
    (h : Moves s told s') (herror : told = some (.error e)) : s'.drives = s.drives := by
  cases h with
  | refused e => rfl
  | failed e => rfl
  | kept => cases herror
  | acted => cases herror
  | gaveUp => cases herror
  | began => cases herror

theorem goOn_of_over {uri : String} {old : Option Nat} (hcall : s.call = .connecting uri old)
    (hover : old.all s.isOver = true) (disk : Disk) :
    (s.goOn disk).1 =
      some ((Network.prepare s.backend disk s.client.settings uri).map fun _ => ()) := by
  simp only [goOn, hcall, if_pos hover]
  cases Network.prepare s.backend disk s.client.settings uri with
  | error e => rfl
  | ok d => rfl

/-- Whatever is asked of a client and whatever becomes of its connections: at most one of them is
not closed, and that is the one the client has. There are as many as connects returned without an
error. While one is not closed a connect fails and leaves everything as it is; after that it is a
matter of the target and the material alone. -/
theorem one_connection_at_a_time (backend : Tls.Backend) (settings : Tls.Settings.Of m)
    (events : List (Event m ω ι κ)) :
    let s := (start backend settings : Succession m ω ι κ).run events
    (∀ i j, s.stateOf i ≠ .closed → s.stateOf j ≠ .closed → i = j) ∧
      (∀ i, s.stateOf i ≠ .closed → s.client.active = some i) ∧
      s.drives.length =
        ((start backend settings : Succession m ω ι κ).outcomes events).countP Except.isOk ∧
      (∀ e error, (s.step e).1 = some (.error error) → (s.step e).2.drives = s.drives) ∧
      (∀ uri id, s.call = .idle → s.client.active = some id → s.stateOf id ≠ .closed →
        s.step (.use (.connect uri)) =
          (some (.error (.transport "client already connected")), s)) ∧
      (∀ uri, s.call = .idle → (∀ id, s.stateOf id = .closed) →
        (s.step (.use (.connect uri))).1 = none) ∧
      ∀ uri old disk, s.call = .connecting uri old → old.all s.isOver = true →
        (s.step (.goOn disk)).1 =
          some ((Network.prepare s.backend disk s.client.settings uri).map fun _ => ()) := by
  intro s
  have hsound : s.Sound := sound_run (sound_start backend settings) events
  refine ⟨fun i j hi hj => ?_, hsound.live, ?_, fun e error => (s.moves e).drives_of_error, ?_, ?_,
    fun uri old disk hcall hover => goOn_of_over hcall hover disk⟩
  · exact Option.some.inj ((hsound.live i hi).symm.trans (hsound.live j hj))
  · exact (length_run _ events).trans (Nat.zero_add _)
  · intro uri id hidle hactive hlive
    simp only [step, if_pos hidle, use, connect, release_of_live hactive hlive, alreadyConnected]
  · intro uri hidle hclosed
    obtain ⟨c, hrelease⟩ := release_of_closed (c := s.client) hclosed
    simp only [step, if_pos hidle, use, connect, hrelease]

def again : List (Event Id Nat Unit Unit) :=
  let goOn : Event Id Nat Unit Unit := .goOn fun _ => .error .missing
  [.use (.connect "ws://a"), goOn, .use (.connect "ws://b"), .act 0 (.dialed true),
    .act 0 .proceed, .use (.setInfo ()), .use .close, .act 0 (.turn (.command true)),
    .act 0 (.turn (.incoming .close)), .act 0 .proceed, goOn, .use (.connect "b"), goOn,
    .use (.connect "ws://b"), goOn]

theorem one_connection_at_a_time_again :
    let s := (start .elliptic {} : Succession Id Nat Unit Unit).run again
    s.drives.length = 2 ∧ s.stateOf 0 = .closed ∧ s.stateOf 1 = .connecting ∧
      (∀ i, s.stateOf i ≠ .closed → i = 1) ∧
      s.step (.use (.connect "ws://a")) =
        (some (.error (.transport "client already connected")), s) := by
  intro s
  obtain ⟨hone, hactive, -, -, hrefused, -, -⟩ :=
    one_connection_at_a_time .elliptic ({} : Tls.Settings.Of Id) again
  have hlive : s.stateOf 1 = .connecting := by decide +kernel
  have hnot : s.stateOf 1 ≠ .closed := by simp [hlive]
  exact ⟨by decide +kernel, by decide +kernel, hlive, fun i hi => hone i 1 hi hnot,
    hrefused "ws://a" 1 (by decide +kernel) (hactive 1 hnot) hnot⟩

end Succession
end Parley.Client
