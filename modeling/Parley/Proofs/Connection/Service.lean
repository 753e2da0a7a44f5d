import Mathlib
import Parley.Proofs.Connection.Queue
import Parley.Proofs.Connection.Roles

/-!
# Answers to requests

Each request of the peer is answered once, under its own id. Without a handler it is answered as it
comes in; otherwise the handler that is installed then has a run of its own, and the answer is
queued when that run ends. Runs end in any order, and handlers may be exchanged meanwhile.
-/

namespace Parley

def Command.answer? : Command → Option Envelope
  | .close => none
  | .frame bytes =>
    match Envelope.decode bytes with
    | .ok ⟨.response, id, body⟩ => some ⟨.response, id, body⟩
    | .ok ⟨.requestError, id, body⟩ => some ⟨.requestError, id, body⟩
    | _ => none

def Outcome.answer (id : UInt32) : Outcome → Envelope
  | .done body => ⟨.response, id, body⟩
  | .failed text => ⟨.requestError, id, Bytes.ofString text⟩
  | .panicked (some text) => ⟨.requestError, id, Bytes.ofString text⟩
  | .panicked none => ⟨.requestError, id, Bytes.ofString "Unknown failure"⟩

theorem Outcome.envelope_eq_answer (id : UInt32) (o : Outcome) : o.envelope id = o.answer id := by
  cases o with
  | done body => rfl
  | failed text => rfl
  | panicked text => cases text <;> rfl

namespace Command

@[simp] theorem answer?_outcome (id : UInt32) (o : Outcome) :
    (Command.frame (o.envelope id).encode).answer? = some (o.answer id) := by
  rw [answer?, Envelope.decode_encode, Outcome.envelope_eq_answer]
  cases o with
  | done body => rfl
  | failed text => rfl
  | panicked text => cases text <;> rfl

@[simp] theorem answer?_request (id : UInt32) (body : Bytes) :
    (Command.frame (Envelope.request id body).encode).answer? = none := by
  simp [answer?, Envelope.request, Envelope.make]

@[simp] theorem answer?_info (body : Bytes) :
    (Command.frame (Envelope.info body).encode).answer? = none := by
  simp [answer?, Envelope.info, Envelope.make]

@[simp] theorem answer?_close : Command.close.answer? = none := rfl

end Command

namespace Service
variable {κ : Type}

def answer? (q : Service κ) : Option Envelope := q.outcome.map (Outcome.answer q.id)

def ended (q : Service κ) (o : Option Outcome) : Service κ := { q with outcome := q.outcome.or o }

@[simp] theorem ended_none (q : Service κ) : q.ended none = q := by
  simp [ended]

theorem ended_of_some {q : Service κ} {o : Outcome} (h : q.outcome = some o)
    (o' : Option Outcome) : q.ended o' = q := by
  rw [ended, h]
  cases q
  subst h
  rfl

end Service

namespace Session
variable {ι κ : Type}

open Pump.Line (fresh)

def answered (s : Session ι κ) (e : Event ι κ) : List Envelope :=
  (s.posts e).filterMap Command.answer?

def ending (place : Nat) (events : List (Event ι κ)) : Option Outcome :=
  events.findSome? fun
    | .move (.finish p o) => if p = place then some o else none
    | _ => none

def taken (handler : Option κ) (place : Nat) (rest : List (Event ι κ)) (a : UInt32 × Bytes) :
    Service κ :=
  match handler with
  | none => ⟨none, a.1, a.2, some (.failed "No request handler set")⟩
  | some h => ⟨some h, a.1, a.2, ending place rest⟩

/-- The requests of a run, each with the handler it found and the end of that handler's run. They
are numbered from those on that are being served. -/
def services (s : Session ι κ) : List (Event ι κ) → List (Service κ)
  | [] => []
  | .frame bytes :: rest =>
    ((Frame.ask? bytes).map (taken s.connection.request s.served.length rest)).toList ++
      (s.step (.frame bytes)).services rest
  | .move m :: rest => (s.step (.move m)).services rest

inductive Serves (s : Session ι κ) : Event ι κ → List (Service κ) → List Envelope → Prop where
  | other {e : Event ι κ} (hask : ∀ bytes, e = .frame bytes → Frame.ask? bytes = none)
    (hend : ∀ place o q, e = .move (.finish place o) → s.served[place]? = some q →
      q.outcome ≠ none) : Serves s e s.served []
  | begun {bytes : Bytes} {id : UInt32} {body : Bytes} {handler : κ}
    (hask : Frame.ask? bytes = some (id, body)) (hset : s.connection.request = some handler) :
    Serves s (.frame bytes) (s.served ++ [⟨some handler, id, body, none⟩]) []
  | refused {bytes : Bytes} {id : UInt32} {body : Bytes}
    (hask : Frame.ask? bytes = some (id, body)) (hset : s.connection.request = none) :
    Serves s (.frame bytes)
      (s.served ++ [⟨none, id, body, some (.failed "No request handler set")⟩])
      [(Outcome.failed "No request handler set").answer id]
  | ended {place : Nat} {q : Service κ} (o : Outcome) (hq : s.served[place]? = some q)
    (hopen : q.outcome = none) :
    Serves s (.move (.finish place o)) (s.served.set place { q with outcome := some o })
      [o.answer q.id]

section
variable {s : Session ι κ} {c : Connection Nat ι κ}

theorem answers_of_queue (h : c.queue = s.connection.queue) :
    (fresh s.connection c).filterMap Command.answer? = [] := by
  simp only [fresh, h, List.drop_length, List.filterMap_nil]

theorem answers_of_post (h : c.queue = s.connection.queue) (ha : c.attended = true) (x : Command) :
    (fresh s.connection (c.post x)).filterMap Command.answer? = x.answer?.toList := by
  simp only [fresh, Connection.post, ha, if_true, h, List.drop_left, List.filterMap_cons,
    List.filterMap_nil]
  cases x.answer? <;> rfl

theorem answered_ask (s : Session ι κ) (body : Bytes) : s.answered (.move (.ask body)) = [] := by
  simp only [answered, posts, step, move]
  rcases s.ask_cases body with ⟨token, c, -, hc, heq⟩ | ⟨e, -, heq⟩
  · simp only [heq, fresh, hc.queue, List.drop_left, List.filterMap_cons, Command.answer?_request,
      List.filterMap_nil]
  · rw [heq]
    exact answers_of_queue rfl

theorem answered_tell (s : Session ι κ) (body : Bytes) : s.answered (.move (.tell body)) = [] := by
  simp only [answered, posts, step, move, Connection.sendInfo, Connection.transmit]
  split_ifs with h
  · rw [answers_of_post rfl h.2, Command.answer?_info]
    rfl
  · exact answers_of_queue rfl

theorem answered_close (ha : s.connection.attended = true) : s.answered (.move .close) = [] := by
  have hpost :=
    answers_of_post (s := s) (c := { s.connection with state := .closing }) rfl ha .close
  simp only [answered, posts, step, move, Connection.close]
  split
  · exact hpost
  · exact hpost
  · exact answers_of_queue rfl
  · exact answers_of_queue rfl

theorem answered_carry (s : Session ι κ) : s.answered (.move .carry) = [] := by
  have hnil : s.posts (.move .carry) = [] := by
    simp only [posts, step, move, carry]
    split <;> rename_i hq <;> simp [fresh, hq]
  rw [answered, hnil, List.filterMap_nil]

theorem answered_quiet (ha : s.connection.attended = true) {m : Move ι κ} (hm : m.Quiet) :
    s.answered (.move m) = [] := by
  cases m with
  | ask body => exact hm.elim
  | tell body => exact s.answered_tell body
  | finish place o => exact hm.elim
  | wake place =>
    refine answers_of_queue ?_
    simp only [step, move, wake]
    split <;> rfl
  | setInfo handler => exact answers_of_queue rfl
  | setRequest handler => exact answers_of_queue rfl
  | close => exact answered_close ha
  | markOpen =>
    refine answers_of_queue ?_
    simp only [step, move, Connection.markOpen]
    split <;> rfl
  | markClosing =>
    refine answers_of_queue ?_
    simp only [step, move, Connection.markClosing]
    split <;> rfl
  | markClosed => exact hm.elim
  | abandon => exact hm.elim
  | carry => exact s.answered_carry

theorem serves_finish (ha : s.connection.attended = true) (place : Nat) (o : Outcome) :
    Serves s (.move (.finish place o)) (s.finish place o).served
      (s.answered (.move (.finish place o))) := by
  have hanswered : s.answered (.move (.finish place o)) =
      (fresh s.connection (s.finish place o).connection).filterMap Command.answer? := rfl
  rw [hanswered]
  by_cases hopen : ∃ q, s.served[place]? = some q ∧ q.outcome = none
  · obtain ⟨q, hq, ho⟩ := hopen
    have heq : s.finish place o = s.resolve place q o := by simp only [finish, hq, if_pos ho]
    rw [heq, resolve, Connection.answer, answers_of_post rfl ha, Command.answer?_outcome]
    exact .ended o hq ho
  · have heq : s.finish place o = s := by
      rcases s.finish_cases place o with ⟨q, hq, ho, -⟩ | heq
      · exact absurd ⟨q, hq, ho⟩ hopen
      · exact heq
    rw [heq, answers_of_queue rfl]
    refine .other (by simp) fun p o' q hmove hq ho => hopen ⟨q, ?_, ho⟩
    simp only [Event.move.injEq, Move.finish.injEq] at hmove
    rw [hmove.1]
    exact hq

theorem serves_frame (ha : s.connection.attended = true) (bytes : Bytes) :
    Serves s (.frame bytes) (s.receive bytes).served (s.answered (.frame bytes)) := by
  have hanswered : s.answered (.frame bytes) =
      (fresh s.connection (s.receive bytes).connection).filterMap Command.answer? := rfl
  rw [hanswered]
  cases hask : Frame.ask? bytes with
  | some a =>
    obtain ⟨id, body⟩ := a
    rw [receive_of_ask hask]
    cases hset : s.connection.request with
    | some handler =>
      have hnone := answers_of_queue (s := s) (c := s.connection) rfl
      exact hnone ▸ .begun hask hset
    | none =>
      have hpost := answers_of_post (s := s) rfl ha
        (.frame ((Outcome.failed Outcome.noHandler).envelope id).encode)
      rw [Command.answer?_outcome] at hpost
      exact hpost ▸ .refused hask hset
  | none =>
    have hqueue : (s.receive bytes).connection.queue = s.connection.queue := by
      cases hr : Frame.reply? bytes with
      | none => rw [receive_of_neither hask hr]
      | some a =>
        rcases receive_of_reply (s := s) hr with ⟨n, -, heq⟩ | ⟨-, heq⟩
        · rw [heq]
        · rw [heq]
    rw [(serves_alike_receive hask).served, answers_of_queue hqueue]
    refine .other (fun b hb => ?_) (by simp)
    rw [← Event.frame.inj hb]
    exact hask

theorem attended_step (s : Session ι κ) {e : Event ι κ} (he : e ≠ .move .abandon) :
    (s.step e).connection.attended = s.connection.attended := by
  cases e with
  | frame bytes =>
    cases hask : Frame.ask? bytes with
    | some a =>
      rw [step, receive_of_ask hask]
      split_ifs
      · rfl
      · exact Connection.post_attended _ _
    | none => exact (serves_alike_receive hask).attended
  | move m =>
    by_cases hm : m.Quiet
    · exact (agrees_of_quiet s hm).attended
    · cases m with
      | ask body =>
        rcases s.ask_cases body with ⟨token, c, -, hc, heq⟩ | ⟨e, -, heq⟩
        · rw [step, move, heq, hc.rest]
        · rw [step, move, heq]
      | finish place o =>
        rcases s.finish_cases place o with ⟨q, -, -, heq⟩ | heq
        · rw [step, move, heq]
          exact Connection.post_attended _ _
        · rw [step, move, heq]
      | markClosed => rfl
      | abandon => exact absurd rfl he
      | _ => exact absurd trivial hm

theorem serves (ha : s.connection.attended = true) {e : Event ι κ} (he : e ≠ .move .abandon) :
    Serves s e (s.step e).served (s.answered e) := by
  have hmove : ∀ {m : Move ι κ}, (∀ place o, m ≠ .finish place o) →
      (s.move m).served = s.served → s.answered (.move m) = [] →
      Serves s (.move m) (s.move m).served (s.answered (.move m)) := by
    intro m hm hserved hanswered
    rw [hserved, hanswered]
    exact .other (by simp) fun place o q heq => absurd (Event.move.inj heq) (hm place o)
  cases e with
  | frame bytes => exact serves_frame ha bytes
  | move m =>
    by_cases hm : m.Quiet
    · refine hmove ?_ (agrees_of_quiet s hm).served (answered_quiet ha hm)
      rintro place o rfl
      exact hm
    · cases m with
      | ask body =>
        refine hmove (by simp) ?_ (s.answered_ask body)
        rcases s.ask_cases body with ⟨token, c, -, -, heq⟩ | ⟨e, -, heq⟩ <;> rw [move, heq]
      | finish place o => exact serves_finish ha place o
      | markClosed => exact hmove (by simp) rfl (answers_of_queue rfl)
      | abandon => exact absurd rfl he
      | _ => exact absurd trivial hm

end

theorem ending_cons (place : Nat) (e : Event ι κ) (rest : List (Event ι κ)) :
    ending place (e :: rest) = (ending place [e]).or (ending place rest) := by
  simp only [ending, List.findSome?_cons, List.findSome?_nil]
  split <;> simp_all

theorem ending_eq_none {place : Nat} {events : List (Event ι κ)}
    (h : ∀ o, .move (.finish place o) ∉ events) : ending place events = none := by
  refine List.findSome?_eq_none_iff.2 fun e he => ?_
  split
  · rename_i p o
    refine if_neg ?_
    rintro rfl
    exact h o he
  · rfl

def settled (served : List (Service κ)) (events : List (Event ι κ)) : List (Service κ) :=
  served.mapIdx fun place q => q.ended (ending place events)

theorem getElem?_settled (served : List (Service κ)) (events : List (Event ι κ)) (place : Nat) :
    (settled served events)[place]? = (served[place]?).map (·.ended (ending place events)) := by
  rw [settled, List.getElem?_mapIdx]

theorem settled_eq_self {served : List (Service κ)} {events : List (Event ι κ)}
    (h : ∀ place (q : Service κ), served[place]? = some q →
      q.ended (ending place events) = q) : settled served events = served := by
  refine List.ext_getElem? fun place => ?_
  rw [getElem?_settled]
  cases hq : served[place]? with
  | none => rfl
  | some q => exact congrArg some (h place q hq)

theorem settled_of_endless {events : List (Event ι κ)}
    (h : ∀ place o, .move (.finish place o) ∉ events) (served : List (Service κ)) :
    settled served events = served :=
  settled_eq_self fun place q _ => by rw [ending_eq_none (h place), Service.ended_none]

theorem settled_settled (served : List (Service κ)) (e : Event ι κ) (rest : List (Event ι κ)) :
    settled (settled served [e]) rest = settled served (e :: rest) := by
  refine List.ext_getElem? fun place => ?_
  rw [getElem?_settled, getElem?_settled, getElem?_settled, Option.map_map,
    ending_cons place e rest]
  simp only [Function.comp_def, Service.ended, Option.or_assoc]

theorem served_step {s : Session ι κ} (ha : s.connection.attended = true) {e : Event ι κ}
    (he : e ≠ .move .abandon) : (s.step e).served = settled s.served [e] ++ s.services [e] := by
  have hserves := serves ha he
  generalize (s.step e).served = served, s.answered e = answers at hserves
  cases hserves with
  | other hask hend =>
    have hsame : settled s.served [e] = s.served := by
      refine settled_eq_self fun place q hq => ?_
      cases ho : q.outcome with
      | some o => exact Service.ended_of_some ho _
      | none =>
        rw [ending_eq_none, Service.ended_none]
        intro o hmem
        exact hend place o q (List.mem_singleton.1 hmem).symm hq ho
    have hnone : s.services [e] = [] := by
      cases e with
      | frame bytes => simp [services, hask bytes rfl]
      | move m => rfl
    rw [hsame, hnone, List.append_nil]
  | begun hask hset =>
    rw [settled_of_endless (by simp)]
    simp [services, hask, taken, hset, ending]
  | refused hask hset =>
    rw [settled_of_endless (by simp)]
    simp [services, hask, taken, hset]
  | ended o hq hopen =>
    rename_i place q
    change _ = settled s.served _ ++ []
    rw [List.append_nil]
    refine List.ext_getElem? fun k => ?_
    rw [getElem?_settled]
    by_cases hk : k = place
    · subst hk
      rw [List.getElem?_set_self (List.getElem?_eq_some_iff.1 hq).1, hq]
      simp [ending, Service.ended, hopen]
    · rw [List.getElem?_set_ne (Ne.symm hk), ending_eq_none (by simp [hk])]
      simp

theorem services_cons (s : Session ι κ) (e : Event ι κ) (rest : List (Event ι κ)) :
    s.services (e :: rest) =
      (s.services [e]).mapIdx (fun n q => q.ended (ending (n + s.served.length) rest)) ++
        (s.step e).services rest := by
  cases e with
  | move m => rfl
  | frame bytes =>
    simp only [services, List.append_nil]
    cases Frame.ask? bytes with
    | none => rfl
    | some a => cases hset : s.connection.request <;> simp [taken, Service.ended, ending]

theorem served_run {s : Session ι κ} (ha : s.connection.attended = true)
    {events : List (Event ι κ)} (hno : .move .abandon ∉ events) :
    (s.run events).served = settled s.served events ++ s.services events := by
  induction events generalizing s with
  | nil => simp [run, services, settled_of_endless]
  | cons e rest ih =>
    obtain ⟨he, hrest⟩ := not_or.1 (mt List.mem_cons.2 hno)
    have hstep := served_step ha (Ne.symm he)
    have hlater := ih ((attended_step s (Ne.symm he)).trans ha) hrest
    have hlength : (settled s.served [e]).length = s.served.length := List.length_mapIdx
    calc ((s.step e).run rest).served
        = settled (settled s.served [e] ++ s.services [e]) rest ++ (s.step e).services rest := by
          rw [hlater, hstep]
      _ = settled (settled s.served [e]) rest ++
            (s.services [e]).mapIdx (fun n q => q.ended (ending (n + s.served.length) rest)) ++
              (s.step e).services rest := by
          rw [settled, List.mapIdx_append, hlength]
          rfl
      _ = settled s.served (e :: rest) ++ s.services (e :: rest) := by
          rw [settled_settled, s.services_cons e rest, List.append_assoc]

theorem answers_step {s : Session ι κ} (ha : s.connection.attended = true) {e : Event ι κ}
    (he : e ≠ .move .abandon) :
    (s.served.filterMap Service.answer? ++ s.answered e).Perm
      ((s.step e).served.filterMap Service.answer?) := by
  have hserves := serves ha he
  generalize (s.step e).served = served, s.answered e = answers at hserves
  cases hserves with
  | other hask hend => rw [List.append_nil]
  | begun hask hset =>
    rw [List.filterMap_append, List.append_nil]
    exact .of_eq (List.append_nil _).symm
  | refused hask hset =>
    rw [List.filterMap_append]
    exact .refl _
  | ended o hq hopen =>
    rename_i place q
    obtain ⟨hlt, hval⟩ := List.getElem?_eq_some_iff.1 hq
    have hnone : q.answer? = none := by rw [Service.answer?, hopen, Option.map_none]
    have hsome : Service.answer? { q with outcome := some o } = some (o.answer q.id) := rfl
    have hold : s.served = s.served.take place ++ q :: s.served.drop (place + 1) := by
      rw [← hval, List.cons_getElem_drop_succ, List.take_append_drop]
    rw [List.set_eq_take_cons_drop _ hlt, List.filterMap_append, List.filterMap_cons_some hsome]
    nth_rewrite 1 [hold]
    rw [List.filterMap_append, List.filterMap_cons_none hnone]
    exact (List.perm_append_singleton _ _).trans List.perm_middle.symm

theorem answers_run {s : Session ι κ} (ha : s.connection.attended = true)
    {events : List (Event ι κ)} (hno : .move .abandon ∉ events) :
    (s.served.filterMap Service.answer? ++ (s.posted events).filterMap Command.answer?).Perm
      ((s.run events).served.filterMap Service.answer?) := by
  induction events generalizing s with
  | nil => simp [posted, run]
  | cons e rest ih =>
    obtain ⟨he, hrest⟩ := not_or.1 (mt List.mem_cons.2 hno)
    have hstep := answers_step ha (Ne.symm he)
    have hlater := ih ((attended_step s (Ne.symm he)).trans ha) hrest
    rw [posted, List.filterMap_append, ← List.append_assoc]
    exact (hstep.append_right _).trans hlater

theorem attended_run {s : Session ι κ} (ha : s.connection.attended = true)
    {events : List (Event ι κ)} (hno : .move .abandon ∉ events) :
    (s.run events).connection.attended = true := by
  induction events generalizing s with
  | nil => exact ha
  | cons e rest ih =>
    obtain ⟨he, hrest⟩ := not_or.1 (mt List.mem_cons.2 hno)
    exact ih ((attended_step s (Ne.symm he)).trans ha) hrest

section
variable {s : Session ι κ} {bytes : Bytes} {id : UInt32} {body : Bytes}

theorem answered_refused (ha : s.connection.attended = true)
    (hask : Frame.ask? bytes = some (id, body)) (hset : s.connection.request = none) :
    s.answered (.frame bytes) = [(Outcome.failed "No request handler set").answer id] := by
  have hserves := serves ha (e := .frame bytes) (by simp)
  generalize (s.step (.frame bytes)).served = served, s.answered (.frame bytes) = answers
    at hserves ⊢
  cases hserves with
  | other hno => simp [hno bytes rfl] at hask
  | begun hask' hset' => simp [hset] at hset'
  | refused hask' =>
    obtain ⟨rfl, rfl⟩ := Prod.mk.inj (Option.some.inj (hask.symm.trans hask'))
    rfl

theorem answered_begun (ha : s.connection.attended = true)
    (hask : Frame.ask? bytes = some (id, body)) {handler : κ}
    (hset : s.connection.request = some handler) :
    s.answered (.frame bytes) = [] ∧
      (s.step (.frame bytes)).served = s.served ++ [⟨some handler, id, body, none⟩] := by
  have hserves := serves ha (e := .frame bytes) (by simp)
  generalize (s.step (.frame bytes)).served = served, s.answered (.frame bytes) = answers
    at hserves ⊢
  cases hserves with
  | other hno => simp [hno bytes rfl] at hask
  | begun hask' hset' =>
    obtain ⟨rfl, rfl⟩ := Prod.mk.inj (Option.some.inj (hask.symm.trans hask'))
    obtain rfl := Option.some.inj (hset.symm.trans hset')
    exact ⟨rfl, rfl⟩
  | refused hask' hset' => simp [hset] at hset'

theorem answered_ended (ha : s.connection.attended = true) {place : Nat} {q : Service κ}
    (hq : s.served[place]? = some q) (hopen : q.outcome = none) (o : Outcome) :
    s.answered (.move (.finish place o)) = [o.answer q.id] := by
  have hserves := serves ha (e := .move (.finish place o)) (by simp)
  generalize (s.step (.move (.finish place o))).served = served,
    s.answered (.move (.finish place o)) = answers at hserves ⊢
  cases hserves with
  | other hask hend => exact absurd hopen (hend place o q rfl hq)
  | ended o hq' hopen' =>
    obtain rfl := Option.some.inj (hq.symm.trans hq')
    rfl

end

/-- In a run whose queue is taken care of, the answers that are queued are those to the requests
that came in, each as often as it was asked for. A request that finds no handler is answered at
once. Any other is handed to the handler that is installed, and answered when the run of that
handler ends. -/
theorem each_request_answered (state : Lifecycle) (info : Option ι) (request : Option κ)
    (events : List (Event ι κ)) (hno : .move .abandon ∉ events) :
    let s : Session ι κ := start state info request
    ((s.posted events).filterMap Command.answer?).Perm
      ((s.services events).filterMap Service.answer?) ∧
    ∀ before bytes after id body, events = before ++ .frame bytes :: after →
      Envelope.decode bytes = .ok ⟨.request, id, body⟩ →
      let now := s.run before
      let place := (s.services before).length
      match now.connection.request with
      | none => now.answered (.frame bytes) =
          [⟨.requestError, id, Bytes.ofString "No request handler set"⟩]
      | some handler =>
        (now.connection.receive bytes).1 = some (.serve handler id body) ∧
        now.answered (.frame bytes) = [] ∧
        ∀ between o later, after = between ++ .move (.finish place o) :: later →
          (∀ o', .move (.finish place o') ∉ between) →
          ((now.step (.frame bytes)).run between).answered (.move (.finish place o)) =
            [o.answer id] := by
  intro s
  have ha : s.connection.attended = true := rfl
  have hserved : ∀ {events}, .move .abandon ∉ events → (s.run events).served = s.services events :=
    fun h => (served_run ha h).trans rfl
  constructor
  · have hall := answers_run ha hno
    rw [hserved hno] at hall
    exact hall
  · rintro before bytes after id body rfl hdecode now place
    have hask : Frame.ask? bytes = some (id, body) := by rw [Frame.ask?, hdecode]
    obtain ⟨hbefore, hrest⟩ := not_or.1 (mt List.mem_append.2 hno)
    have hnow : now.connection.attended = true := attended_run ha hbefore
    cases hset : now.connection.request with
    | none => exact answered_refused hnow hask hset
    | some handler =>
      obtain ⟨hnone, hbegun⟩ := answered_begun hnow hask hset
      refine ⟨by rw [Connection.receive_of_ask hask, hset], hnone, ?_⟩
      rintro between o later rfl hopen
      have hbetween : .move .abandon ∉ between := fun hmem =>
        hrest (List.mem_cons_of_mem _ (List.mem_append_left _ hmem))
      have hthen : (now.step (.frame bytes)).connection.attended = true :=
        (attended_step now (by simp)).trans hnow
      have hplace : place = now.served.length := congrArg List.length (hserved hbefore).symm
      have hq : ((now.step (.frame bytes)).run between).served[place]? =
          some ⟨some handler, id, body, none⟩ := by
        rw [served_run hthen hbetween, hbegun, hplace,
          List.getElem?_append_left (by simp [settled]), getElem?_settled,
          List.getElem?_concat_length, ← hplace, ending_eq_none hopen]
        rfl
      exact answered_ended (attended_run hthen hbetween) hq rfl o

theorem each_request_answered_crossed :
    let ask (id : UInt32) : Event Unit Nat := .frame (Envelope.request id [1]).encode
    let before : List (Event Unit Nat) := [ask 7, .move (.setRequest (some 0))]
    let between : List (Event Unit Nat) :=
      [.move (.setRequest (some 1)), ask 7, ask 7, .move (.setRequest none),
        .move (.finish 3 (.panicked none)), .move .close]
    let events := before ++ ask 7 :: (between ++ [.move (.finish 1 (.failed "no"))])
    let s : Session Unit Nat := start .opened none none
    .move .abandon ∉ events ∧
      (s.posted events).filterMap Command.answer? =
        [⟨.requestError, 7, Bytes.ofString "No request handler set"⟩,
          ⟨.requestError, 7, Bytes.ofString "Unknown failure"⟩,
          ⟨.requestError, 7, Bytes.ofString "no"⟩] ∧
      ((s.posted events).filterMap Command.answer?).Perm
        ((s.services events).filterMap Service.answer?) ∧
      (s.services before).length = 1 ∧ (∀ o, .move (.finish 1 o) ∉ between) ∧
      (((s.run before).step (ask 7)).run between).answered (.move (.finish 1 (.failed "no"))) =
        [(Outcome.failed "no").answer 7] := by
  intro ask before between events s
  have hno : .move .abandon ∉ events := by simp [events, before, between, ask]
  have hopen : ∀ o, .move (.finish 1 o) ∉ between := by simp [between, ask]
  obtain ⟨hperm, hrun⟩ := each_request_answered .opened none none events hno
  have hlast := hrun before (Envelope.request 7 [1]).encode
    (between ++ [.move (.finish 1 (.failed "no"))]) 7 [1] rfl (Envelope.decode_encode _)
  obtain ⟨-, -, hend⟩ := hlast
  exact ⟨hno, by decide +kernel, hperm, rfl, hopen, hend between (.failed "no") [] rfl hopen⟩

end Session
end Parley
