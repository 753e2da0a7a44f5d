import Mathlib
import Parley.Proofs.Connection.Lifecycle
import Parley.WebSocket.Arrival

/-!
# Order on a socket

A pump writes the frames of its queue one after another until it stops: at a close, at a write that
fails, or at the end of the socket. Until then it hands in all data that arrives. Others may use the
connection before and after every turn.
-/

namespace Parley

def Message.data? : Message → Option Bytes
  | .data bytes => some bytes
  | .close => none

namespace Connection
variable {ω ι κ : Type}

theorem prefix_post (c : Connection ω ι κ) (x : Command) : c.queue <+: (c.post x).queue := by
  unfold post
  split
  · exact List.prefix_append _ _
  · exact List.prefix_refl _

theorem prefix_close (c : Connection ω ι κ) : c.queue <+: c.close.queue := by
  unfold close
  split
  · exact prefix_post { c with state := .closing } .close
  · exact prefix_post { c with state := .closing } .close
  · exact List.prefix_refl _
  · exact List.prefix_refl _

theorem prefix_sendRequest (c : Connection ω ι κ) (body : Bytes) (waiter : ω) :
    c.queue <+: (c.sendRequest body waiter).2.queue := by
  rcases c.sendRequest_cases body waiter with ⟨token, sent, heq, hasked⟩ | ⟨e, heq⟩
  · rw [heq, hasked.queue]
    exact List.prefix_append _ _
  · rw [heq]

theorem prefix_sendInfo (c : Connection ω ι κ) (body : Bytes) :
    c.queue <+: (c.sendInfo body).2.queue := by
  simp only [sendInfo, transmit]
  split_ifs
  · exact c.prefix_post _
  · exact List.prefix_refl _

theorem prefix_receive (c : Connection ω ι κ) (frame : Bytes) :
    c.queue <+: (c.receive frame).2.queue := by
  have hreceived := c.received frame
  generalize (c.receive frame).2 = later at hreceived ⊢
  cases hreceived with
  | same => exact List.prefix_refl _
  | answered e => exact c.prefix_post _
  | concluded t => exact List.prefix_refl _

end Connection

namespace Pump
variable {ω ι κ ε : Type}

inductive Use (ω ι κ : Type) where
  | ask (body : Bytes) (waiter : ω)
  | tell (body : Bytes)
  | answer (e : Envelope)
  | setInfo (handler : Option ι)
  | setRequest (handler : Option κ)
  | close

def use (c : Connection ω ι κ) : Use ω ι κ → Connection ω ι κ
  | .ask body waiter => (c.sendRequest body waiter).2
  | .tell body => (c.sendInfo body).2
  | .answer e => c.answer e
  | .setInfo handler => { c with info := handler }
  | .setRequest handler => { c with request := handler }
  | .close => c.close

theorem prefix_use (c : Connection ω ι κ) (u : Use ω ι κ) : c.queue <+: (use c u).queue := by
  cases u with
  | ask body waiter => exact c.prefix_sendRequest body waiter
  | tell body => exact c.prefix_sendInfo body
  | answer e => exact c.prefix_post _
  | setInfo handler => exact List.prefix_refl _
  | setRequest handler => exact List.prefix_refl _
  | close => exact c.prefix_close

theorem drained_use {c : Connection ω ι κ} (hs : c.state = .closed)
    (hp : c.pending.isEmpty = true) (u : Use ω ι κ) :
    (use c u).state = .closed ∧ (use c u).pending.isEmpty = true := by
  have hno : c.state ≠ .opened := by simp [hs]
  cases u with
  | ask body waiter =>
    simp only [use, Connection.sendRequest_of_not_opened hno]
    exact ⟨hs, hp⟩
  | tell body =>
    simp only [use, Connection.sendInfo_of_not_opened hno]
    exact ⟨hs, hp⟩
  | answer e => simpa [use, Connection.answer] using ⟨hs, hp⟩
  | setInfo handler => exact ⟨hs, hp⟩
  | setRequest handler => exact ⟨hs, hp⟩
  | close =>
    simp only [use, Connection.close, hs]
    exact ⟨trivial, hp⟩

theorem state_le_use (c : Connection ω ι κ) (u : Use ω ι κ) : c.state ≤ (use c u).state := by
  cases u with
  | ask body waiter => exact (c.sendRequest_state body waiter).symm ▸ Lifecycle.le_refl _
  | tell body => exact (c.sendInfo_state body).symm ▸ Lifecycle.le_refl _
  | answer e => exact (c.post_state _).symm ▸ Lifecycle.le_refl _
  | setInfo handler => exact Lifecycle.le_refl _
  | setRequest handler => exact Lifecycle.le_refl _
  | close => exact c.state_le_close

theorem closed_of_use {c : Connection ω ι κ} {u : Use ω ι κ} (h : (use c u).state = .closed) :
    c.state = .closed := by
  cases u with
  | ask body waiter => exact (c.sendRequest_state body waiter).symm.trans h
  | tell body => exact (c.sendInfo_state body).symm.trans h
  | answer e => exact (c.post_state _).symm.trans h
  | setInfo handler => exact h
  | setRequest handler => exact h
  | close =>
    simp only [use, Connection.close] at h
    cases hs : c.state <;> simp_all

inductive Event (ω ι κ ε : Type) where
  | use (u : Use ω ι κ)
  /-- The first command is taken; `taken` when the socket takes what is written. -/
  | write (taken : Bool)
  | next (item : Option (Except ε WebSocket.Arrival))
  | timeout

def Event.data? : Event ω ι κ ε → Option Bytes
  | .next (some (.ok (.binary bytes))) => some bytes
  | .next (some (.ok (.text s))) => some (Bytes.ofString s)
  | _ => none

structure Line (ω ι κ : Type) where
  connection : Connection ω ι κ
  phase : Phase := .running
  /-- All commands that have been queued, those included that were taken or lost since. -/
  queued : List Command
  written : List Message := []
  handed : List Bytes := []

namespace Line

def start (c : Connection ω ι κ) : Line ω ι κ := { connection := c, queued := c.queue }

def fresh (c c' : Connection ω ι κ) : List Command := c'.queue.drop c.queue.length

def use (l : Line ω ι κ) (u : Use ω ι κ) : Line ω ι κ :=
  { l with
    connection := Pump.use l.connection u
    queued := l.queued ++ fresh l.connection (Pump.use l.connection u) }

def turn (l : Line ω ι κ) (t : Turn) : Line ω ι κ :=
  let r := Pump.step l.phase l.connection t
  { connection := r.connection
    phase := r.phase
    queued := l.queued ++ fresh l.connection r.connection
    written := l.written ++ r.written.toList
    handed := l.handed ++ r.handed.toList }

def step (l : Line ω ι κ) : Event ω ι κ ε → Line ω ι κ
  | .use u => l.use u
  | .write taken => l.turn (.command taken)
  | .next item => l.turn (.incoming (WebSocket.Arrival.next item))
  | .timeout => l.turn .timeout

def run (l : Line ω ι κ) (events : List (Event ω ι κ ε)) : Line ω ι κ := events.foldl step l

def sent (l : Line ω ι κ) : List Bytes := l.written.filterMap Message.data?

def TakesClose (l : Line ω ι κ) : Event ω ι κ ε → Prop
  | .write _ => l.connection.queue.head? = some .close
  | .next item => WebSocket.Arrival.next item = .close
  | _ => False

variable {l : Line ω ι κ}

theorem append_fresh {c c' : Connection ω ι κ} (h : c.queue <+: c'.queue) :
    c.queue ++ fresh c c' = c'.queue :=
  (List.prefix_iff_eq_append.1 h).symm ▸ rfl

@[simp] theorem fresh_self (c : Connection ω ι κ) : fresh c c = [] := List.drop_length

theorem fresh_of_nil {c c' : Connection ω ι κ} (h : c'.queue = []) : fresh c c' = [] := by
  simp [fresh, h]

structure Gone (c : Connection ω ι κ) : Prop where
  closed : c.state = .closed
  pending : c.pending.isEmpty = true
  queue : c.queue = []

theorem gone_finish (c : Connection ω ι κ) : Gone (finish c).connection := ⟨rfl, rfl, rfl⟩

def Dataless (l : Line ω ι κ) (t : Turn) : Prop :=
  l.phase = .running → ∀ bytes, t ≠ .incoming (.data bytes)

theorem dataless_of_ne {t : Turn} (h : ∀ bytes, t ≠ .incoming (.data bytes)) : l.Dataless t :=
  fun _ => h

theorem dataless_of_stopped (h : l.phase ≠ .running) (t : Turn) : l.Dataless t :=
  fun hrun => absurd hrun h

inductive Turns (l : Line ω ι κ) : Turn → Line ω ι κ → Prop where
  | idle {t : Turn} (h : l.Dataless t) : Turns l t l
  | wrote {bytes : Bytes} {rest : List Command} (running : l.phase = .running)
      (queue : l.connection.queue = .frame bytes :: rest) :
    Turns l (.command true)
      { l with
        connection := { l.connection with queue := rest }
        written := l.written ++ [.data bytes] }
  | closed {rest : List Command} (taken : Bool) (running : l.phase = .running)
      (queue : l.connection.queue = .close :: rest) :
    Turns l (.command taken)
      { l with
        connection := { l.connection with queue := rest }
        phase := .draining
        written := l.written ++ if taken then [.close] else [] }
  | handed (bytes : Bytes) (running : l.phase = .running) :
    Turns l (.incoming (.data bytes))
      { l with
        connection := (l.connection.receive bytes).2
        queued := l.queued ++ fresh l.connection (l.connection.receive bytes).2
        handed := l.handed ++ [bytes] }
  | done {t : Turn} {c : Connection ω ι κ} (h : l.Dataless t) (gone : Gone c) :
    Turns l t { l with connection := c, phase := .done }

theorem turns (l : Line ω ι κ) (t : Turn) : Turns l t (l.turn t) := by
  have hidle : l.Dataless t →
      Pump.step l.phase l.connection t = { phase := l.phase, connection := l.connection } →
      Turns l t (l.turn t) := by
    intro h heq
    have hsame : l.turn t = l := by simp [turn, heq]
    rw [hsame]
    exact .idle h
  have hdone : ∀ c, l.Dataless t → Pump.step l.phase l.connection t = finish c →
      Turns l t (l.turn t) := by
    intro c h heq
    have hlast : l.turn t = { l with connection := (finish c).connection, phase := .done } := by
      simp only [turn, heq, fresh_of_nil (gone_finish c).queue, List.append_nil]
      simp [finish]
    rw [hlast]
    exact .done h (gone_finish c)
  cases hp : l.phase with
  | running =>
    rw [hp] at hidle hdone
    cases t with
    | command taken =>
      cases hq : l.connection.queue with
      | nil => exact hidle (dataless_of_ne (by simp)) (by simp [Pump.step, command, hq])
      | cons x rest =>
        cases x with
        | frame bytes =>
          cases taken with
          | true =>
            have hnext : l.turn (.command true) =
                { l with
                  connection := { l.connection with queue := rest }
                  written := l.written ++ [.data bytes] } := by
              simp [turn, hp, Pump.step, command, hq, fresh]
            rw [hnext]
            exact .wrote hp hq
          | false =>
            exact hdone { l.connection with queue := rest } (dataless_of_ne (by simp))
              (by simp [Pump.step, command, hq])
        | close =>
          have hnext : l.turn (.command taken) =
              { l with
                connection := { l.connection with queue := rest }
                phase := .draining
                written := l.written ++ if taken then [.close] else [] } := by
            cases taken <;> simp [turn, hp, Pump.step, command, hq, fresh]
          rw [hnext]
          exact .closed taken hp hq
    | incoming m =>
      cases m with
      | data bytes =>
        have hnext : l.turn (.incoming (.data bytes)) =
            { l with
              connection := (l.connection.receive bytes).2
              queued := l.queued ++ fresh l.connection (l.connection.receive bytes).2
              handed := l.handed ++ [bytes] } := by
          simp [turn, hp, Pump.step, incoming]
        rw [hnext]
        exact .handed bytes hp
      | control => exact hidle (dataless_of_ne (by simp)) rfl
      | close => exact hdone l.connection.markClosing (dataless_of_ne (by simp)) rfl
      | failure => exact hdone l.connection (dataless_of_ne (by simp)) rfl
      | ended => exact hdone l.connection (dataless_of_ne (by simp)) rfl
    | timeout => exact hidle (dataless_of_ne (by simp)) rfl
  | draining =>
    have hno : l.Dataless t := dataless_of_stopped (by simp [hp]) t
    rw [hp] at hidle hdone
    cases t with
    | command taken => exact hidle hno rfl
    | incoming m =>
      cases m with
      | data bytes => exact hidle hno rfl
      | control => exact hidle hno rfl
      | close => exact hdone l.connection hno rfl
      | failure => exact hdone l.connection hno rfl
      | ended => exact hdone l.connection hno rfl
    | timeout => exact hdone l.connection hno rfl
  | done =>
    have hno : l.Dataless t := dataless_of_stopped (by simp [hp]) t
    rw [hp] at hidle
    exact hidle hno (by cases t <;> rfl)

/-- The frames that were written, and the commands after them. A close after them is written once,
if at all, and ends the writing. -/
structure Order (l : Line ω ι κ) (frames : List Bytes) (rest : List Command) : Prop where
  queued : l.queued = frames.map .frame ++ rest
  written : l.written = frames.map .data ∨
    rest.head? = some .close ∧ l.written = frames.map .data ++ [.close]
  running : l.phase = .running → rest = l.connection.queue ∧ l.written = frames.map .data

theorem order_start (c : Connection ω ι κ) : Order (start c) [] c.queue :=
  ⟨rfl, .inl rfl, fun _ => ⟨rfl, rfl⟩⟩

theorem Order.grow {frames : List Bytes} {rest : List Command} (h : Order l frames rest)
    {c : Connection ω ι κ} (hq : l.connection.queue <+: c.queue) (handed : List Bytes) :
    Order { l with connection := c, queued := l.queued ++ fresh l.connection c, handed := handed }
      frames (rest ++ fresh l.connection c) := by
  have hhead : rest.head? = some .close → (rest ++ fresh l.connection c).head? = some .close := by
    intro hclose
    rw [List.head?_append, hclose, Option.some_or]
  refine ⟨?_, h.written.imp_right (And.imp_left hhead), fun hrun => ?_⟩
  · rw [h.queued, List.append_assoc]
  · obtain ⟨hrest, hw⟩ := h.running hrun
    exact ⟨by rw [hrest, append_fresh hq], hw⟩

theorem Order.turn {frames : List Bytes} {rest : List Command} (h : Order l frames rest)
    (t : Turn) : ∃ frames' rest', Order (l.turn t) frames' rest' := by
  have hturns := l.turns t
  generalize l.turn t = later at hturns ⊢
  cases hturns with
  | idle => exact ⟨frames, rest, h⟩
  | wrote running queue =>
    rename_i bytes left
    obtain ⟨hrest, hw⟩ := h.running running
    have hw' : l.written ++ [.data bytes] = (frames ++ [bytes]).map .data := by
      rw [hw, List.map_append, List.map_singleton]
    refine ⟨frames ++ [bytes], left, ?_, .inl hw', fun _ => ⟨rfl, hw'⟩⟩
    rw [h.queued, hrest, queue, List.map_append, List.append_assoc]
    rfl
  | closed taken running queue =>
    obtain ⟨hrest, hw⟩ := h.running running
    refine ⟨frames, rest, h.queued, ?_, by simp⟩
    cases taken with
    | true => exact .inr ⟨by rw [hrest, queue, List.head?_cons], by rw [hw]; rfl⟩
    | false => exact .inl (by rw [hw]; exact List.append_nil _)
  | handed bytes running => exact ⟨frames, _, h.grow (l.connection.prefix_receive bytes) _⟩
  | done => exact ⟨frames, rest, h.queued, h.written, by simp⟩

theorem Order.step {frames : List Bytes} {rest : List Command} (h : Order l frames rest)
    (e : Event ω ι κ ε) : ∃ frames' rest', Order (l.step e) frames' rest' := by
  cases e with
  | use u => exact ⟨frames, _, h.grow (prefix_use l.connection u) _⟩
  | write taken => exact h.turn _
  | next item => exact h.turn _
  | timeout => exact h.turn _

theorem Order.run {frames : List Bytes} {rest : List Command} (h : Order l frames rest)
    (events : List (Event ω ι κ ε)) : ∃ frames' rest', Order (l.run events) frames' rest' := by
  induction events generalizing l frames rest with
  | nil => exact ⟨frames, rest, h⟩
  | cons e later ih =>
    obtain ⟨frames', rest', hstep⟩ := h.step e
    exact ih hstep

theorem filterMap_data (frames : List Bytes) :
    (frames.map Message.data).filterMap Message.data? = frames := by
  simp [List.filterMap_map, Function.comp_def, Message.data?]

theorem Order.sent {frames : List Bytes} {rest : List Command} (h : Order l frames rest) :
    l.sent = frames := by
  rcases h.written with hw | ⟨-, hw⟩
  · rw [Line.sent, hw, filterMap_data]
  · rw [Line.sent, hw, List.filterMap_append, filterMap_data]
    exact List.append_nil _

def due (l : Line ω ι κ) : List Bytes :=
  (l.queued.takeWhile (· ≠ .close)).filterMap Command.frame?

theorem Order.prefix_due {frames : List Bytes} {rest : List Command} (h : Order l frames rest) :
    frames <+: l.due := by
  have hframes : ∀ x ∈ frames.map Command.frame, decide (x ≠ .close) = true := by
    intro x hx
    obtain ⟨bytes, -, rfl⟩ := List.mem_map.1 hx
    rfl
  have hmap : (frames.map Command.frame).filterMap Command.frame? = frames := by
    simp [List.filterMap_map, Function.comp_def]
  rw [due, h.queued, List.takeWhile_append_of_pos hframes, List.filterMap_append, hmap]
  exact List.prefix_append _ _

theorem Order.close_last {frames : List Bytes} {rest : List Command} (h : Order l frames rest)
    {before after : List Message} (hw : l.written = before ++ .close :: after) : after = [] := by
  have hnot : Message.close ∉ frames.map Message.data := by simp
  by_contra hne
  -- whatever follows the close, the close is among what precedes the last message
  have hmem : Message.close ∈ l.written.dropLast := by
    rw [hw, List.dropLast_append_of_ne_nil (List.cons_ne_nil _ _), List.dropLast_cons_of_ne_nil hne]
    exact List.mem_append_right _ List.mem_cons_self
  rcases h.written with heq | ⟨-, heq⟩
  · rw [heq] at hmem
    exact hnot (List.mem_of_mem_dropLast hmem)
  · rw [heq, List.dropLast_concat] at hmem
    exact hnot hmem

theorem data?_eq_some_iff {item : Option (Except ε WebSocket.Arrival)} {bytes : Bytes} :
    (Event.next item : Event ω ι κ ε).data? = some bytes ↔
      WebSocket.Arrival.next item = .data bytes := by
  match item with
  | none => simp [Event.data?, WebSocket.Arrival.next]
  | some (.error e) => simp [Event.data?, WebSocket.Arrival.next]
  | some (.ok a) =>
    cases a <;> simp [Event.data?, WebSocket.Arrival.next, WebSocket.Arrival.incoming]

theorem handed_of_dataless {t : Turn} (h : l.Dataless t) : (l.turn t).handed = l.handed := by
  have hturns := l.turns t
  generalize l.turn t = later at hturns ⊢
  cases hturns with
  | handed bytes running => exact absurd rfl (h running bytes)
  | _ => rfl

theorem handed_of_data (h : l.phase = .running) (bytes : Bytes) :
    (l.turn (.incoming (.data bytes))).handed = l.handed ++ [bytes] := by
  have hturns := l.turns (.incoming (.data bytes))
  generalize l.turn (.incoming (.data bytes)) = later at hturns ⊢
  cases hturns with
  | idle hno => exact absurd rfl (hno h bytes)
  | handed => rfl
  | done hno => exact absurd rfl (hno h bytes)

theorem handed_step (l : Line ω ι κ) (e : Event ω ι κ ε) :
    (l.step e).handed = l.handed ++ if l.phase = .running then e.data?.toList else [] := by
  have hother : ∀ {t : Turn}, (∀ bytes, t ≠ .incoming (.data bytes)) → e.data? = none →
      (l.turn t).handed = l.handed ++ if l.phase = .running then e.data?.toList else [] := by
    intro t ht hnone
    rw [handed_of_dataless (dataless_of_ne ht), hnone]
    simp
  cases e with
  | use u => simp [step, use, Event.data?]
  | write taken => exact hother (by simp) rfl
  | timeout => exact hother (by simp) rfl
  | next item =>
    cases hd : (Event.next item : Event ω ι κ ε).data? with
    | none =>
      rw [← hd]
      refine hother (fun bytes heq => ?_) hd
      rw [data?_eq_some_iff.2 (Turn.incoming.inj heq)] at hd
      simp at hd
    | some bytes =>
      rw [step, data?_eq_some_iff.1 hd]
      split_ifs with hrun
      · exact handed_of_data hrun bytes
      · rw [handed_of_dataless (dataless_of_stopped hrun _), List.append_nil]

theorem stopped_turn (h : l.phase ≠ .running) (t : Turn) : (l.turn t).phase ≠ .running := by
  have hturns := l.turns t
  generalize l.turn t = later at hturns ⊢
  cases hturns with
  | idle => exact h
  | wrote running => exact absurd running h
  | closed => simp
  | handed bytes running => exact absurd running h
  | done => simp

theorem stopped_step (h : l.phase ≠ .running) (e : Event ω ι κ ε) :
    (l.step e).phase ≠ .running := by
  cases e with
  | use u => exact h
  | write taken => exact stopped_turn h _
  | next item => exact stopped_turn h _
  | timeout => exact stopped_turn h _

theorem stopped_run (h : l.phase ≠ .running) (events : List (Event ω ι κ ε)) :
    (l.run events).phase ≠ .running ∧ (l.run events).handed = l.handed := by
  induction events generalizing l with
  | nil => exact ⟨h, rfl⟩
  | cons e rest ih =>
    obtain ⟨hphase, hhanded⟩ := ih (stopped_step h e)
    refine ⟨hphase, hhanded.trans ?_⟩
    rw [handed_step, if_neg h, List.append_nil]

theorem handed_run (l : Line ω ι κ) (events : List (Event ω ι κ ε)) :
    ∃ taken, (l.run events).handed = l.handed ++ taken ∧ taken <+: events.filterMap Event.data? ∧
      ((l.run events).phase = .running → taken = events.filterMap Event.data?) := by
  induction events generalizing l with
  | nil => exact ⟨[], (List.append_nil _).symm, List.prefix_refl _, fun _ => rfl⟩
  | cons e rest ih =>
    -- a pump that has stopped does not run again, so the first event decides
    by_cases hrun : l.phase = .running
    · obtain ⟨taken, hhanded, hstart, hall⟩ := ih (l.step e)
      have hdata : (e :: rest).filterMap Event.data? =
          e.data?.toList ++ rest.filterMap Event.data? := by
        cases hd : e.data? <;> simp [hd]
      refine ⟨e.data?.toList ++ taken, ?_, ?_, fun hlast => ?_⟩
      · rw [handed_step, if_pos hrun, List.append_assoc] at hhanded
        exact hhanded
      · rw [hdata]
        exact (List.prefix_append_right_inj _).2 hstart
      · rw [hdata, hall hlast]
    · obtain ⟨hphase, hhanded⟩ := stopped_run hrun (e :: rest)
      exact ⟨[], by rw [hhanded, List.append_nil], List.nil_prefix, fun h => absurd h hphase⟩

theorem stopped_of_takesClose {e : Event ω ι κ ε} (h : l.TakesClose e) :
    (l.step e).phase ≠ .running ∧ (l.step e).handed = l.handed := by
  have hturn : ∀ t, (Pump.step .running l.connection t).phase ≠ .running →
      (∀ bytes, t ≠ .incoming (.data bytes)) →
      (l.turn t).phase ≠ .running ∧ (l.turn t).handed = l.handed := by
    intro t hstops hno
    refine ⟨?_, handed_of_dataless (dataless_of_ne hno)⟩
    by_cases hp : l.phase = .running
    · simpa only [turn, hp] using hstops
    · exact stopped_turn hp t
  cases e with
  | use u => exact h.elim
  | timeout => exact h.elim
  | write taken =>
    obtain ⟨rest, hq⟩ := List.head?_eq_some_iff.1 h
    exact hturn _ (by simp [Pump.step, command, hq]) (by simp)
  | next item =>
    have hclose : WebSocket.Arrival.next item = .close := h
    rw [step, hclose]
    exact hturn _ (by simp [Pump.step, incoming, finish]) (by simp)

def Settled (l : Line ω ι κ) : Prop :=
  l.phase = .done → l.connection.state = .closed ∧ l.connection.pending.isEmpty = true

theorem Settled.turn (h : l.Settled) (t : Turn) : (l.turn t).Settled := by
  have hturns := l.turns t
  generalize l.turn t = later at hturns ⊢
  cases hturns with
  | idle => exact h
  | wrote running => exact fun hdone => by simp [running] at hdone
  | closed => exact fun hdone => by simp at hdone
  | handed bytes running => exact fun hdone => by simp [running] at hdone
  | done hno gone => exact fun _ => ⟨gone.closed, gone.pending⟩

theorem Settled.step (h : l.Settled) (e : Event ω ι κ ε) : (l.step e).Settled := by
  cases e with
  | use u => exact fun hdone => drained_use (h hdone).1 (h hdone).2 u
  | write taken => exact h.turn _
  | next item => exact h.turn _
  | timeout => exact h.turn _

theorem state_le_turn (l : Line ω ι κ) (t : Turn) :
    l.connection.state ≤ (l.turn t).connection.state := by
  have hturns := l.turns t
  generalize l.turn t = later at hturns ⊢
  cases hturns with
  | handed bytes => exact (l.connection.receive_state bytes).symm ▸ Lifecycle.le_refl _
  | done hno gone => exact gone.closed ▸ Lifecycle.le_closed _
  | _ => exact Lifecycle.le_refl _

theorem turn_of_done (h : l.phase = .done) (t : Turn) : l.turn t = l := by
  have hsame : Pump.step l.phase l.connection t =
      { phase := l.phase, connection := l.connection } := by
    rw [h]
    cases t <;> rfl
  simp [turn, hsame]

theorem closed_of_turn {t : Turn} (h : (l.turn t).connection.state = .closed) :
    l.connection.state = .closed ∨ (l.turn t).phase = .done := by
  have hturns := l.turns t
  generalize l.turn t = later at h hturns ⊢
  cases hturns with
  | handed bytes => exact .inl ((l.connection.receive_state bytes).symm.trans h)
  | done => exact .inr rfl
  | _ => exact .inl h

theorem state_le_step (l : Line ω ι κ) (e : Event ω ι κ ε) :
    l.connection.state ≤ (l.step e).connection.state := by
  cases e with
  | use u => exact state_le_use l.connection u
  | write taken => exact l.state_le_turn _
  | next item => exact l.state_le_turn _
  | timeout => exact l.state_le_turn _

theorem Settled.run (h : l.Settled) (events : List (Event ω ι κ ε)) : (l.run events).Settled := by
  induction events generalizing l with
  | nil => exact h
  | cons e rest ih => exact ih (h.step e)

/-- Whatever others do meanwhile: a pump writes frames in their order and none after a close, hands
in the data that arrives until it takes a close or stops, and leaves a closed connection without
waiters when it is done. While it runs, nothing of the queue and nothing of the data is left out. -/
theorem keeps_order (c : Connection ω ι κ) (events : List (Event ω ι κ ε)) :
    let l := (start c).run events
    l.sent <+: l.due ∧
      (∀ before after, l.written = before ++ .close :: after → after = []) ∧
      l.handed <+: events.filterMap Event.data? ∧
      (∀ before e after, events = before ++ e :: after →
        ((start c).run before).TakesClose e → l.handed = ((start c).run before).handed) ∧
      (l.phase = .running → l.queued = l.sent.map .frame ++ l.connection.queue ∧
        l.handed = events.filterMap Event.data?) ∧
      (l.phase = .done → l.connection.state = .closed ∧ l.connection.pending.isEmpty = true) := by
  intro l
  obtain ⟨frames, rest, horder⟩ := (order_start c).run events
  obtain ⟨taken, hhanded, hstart, hall⟩ := (start c).handed_run events
  have hhanded : l.handed = taken := hhanded
  have hsent : l.sent = frames := horder.sent
  refine ⟨hsent ▸ horder.prefix_due, fun before after => horder.close_last, hhanded ▸ hstart,
    ?_, fun hrun => ⟨?_, hhanded.trans (hall hrun)⟩, ?_⟩
  · rintro before e after rfl htakes
    have hlast : l = (((start c).run before).step e).run after := List.foldl_append
    obtain ⟨hphase, hsame⟩ := stopped_of_takesClose htakes
    rw [hlast, (stopped_run hphase after).2, hsame]
  · rw [hsent, ← (horder.running hrun).1]
    exact horder.queued
  · exact Settled.run (fun h => by simp [start] at h) events

def exchange : List (Event Nat Unit Unit Unit) :=
  [.use (.ask [9] 0), .write true, .next (some (.ok (.binary [7]))), .use .close,
    .write true, .next (some (.ok (.binary [8]))), .next (some (.ok (.close none)))]

theorem keeps_order_exchange :
    let fresh : Line Nat Unit Unit := start { state := .opened }
    let l := fresh.run exchange
    let held := fresh.run (exchange.take 4)
    let frame := (Envelope.request 0 [9]).encode
    (l.written = [.data frame, .close] ∧ l.sent <+: l.due ∧
      ∀ after, l.written = [.data frame] ++ .close :: after → after = []) ∧
    (held.phase = .running ∧ held.queued = [.frame frame] ++ held.connection.queue ∧
      held.handed = [[7]]) ∧
    (held.TakesClose (.write true : Event Nat Unit Unit Unit) ∧ l.handed = held.handed) ∧
    l.phase = .done ∧ l.connection.state = .closed ∧ l.connection.pending.isEmpty = true := by
  intro fresh l held frame
  have hwritten : l.written = [.data frame, .close] := by decide
  have hrunning : held.phase = .running := by decide
  have htakes : held.TakesClose (.write true : Event Nat Unit Unit Unit) := by
    change held.connection.queue.head? = some .close
    decide
  have hdone : l.phase = .done := by decide
  obtain ⟨hstart, hlast, -, hclose, -, hend⟩ := keeps_order { state := .opened } exchange
  obtain ⟨-, -, -, -, hexact, -⟩ := keeps_order { state := .opened } (exchange.take 4)
  exact ⟨⟨hwritten, hstart, fun after => hlast [.data frame] after⟩,
    ⟨hrunning, hexact hrunning⟩,
    ⟨htakes, hclose (exchange.take 4) (.write true) (exchange.drop 5) rfl htakes⟩,
    hdone, hend hdone⟩

end Line
end Pump
end Parley
