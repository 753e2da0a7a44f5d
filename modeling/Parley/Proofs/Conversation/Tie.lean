import Mathlib
import Parley.Proofs.Connection.Roles
import Parley.Proofs.Conversation

/-!
# How requests and replies belong together

The requests that one side sent reach the other in the order they were sent, so a request is known
to both by its place in that order. Tokens are not: they come back as soon as they are free. The tie
between the two sides says where each request stands by its place, and every step keeps it.
-/

namespace Parley

structure Sent where
  token : UInt32
  number : Nat
  body : Bytes

namespace Conversation
open Session
variable {ι κ : Type}

/-- How the requests of `x` stand with `y`. The book has all requests that `x` sent, in order;
`places` says which of them the replies on their way to `x` are for. -/
structure Tie (x y : Session ι κ) (book : List Sent) (places : List Nat) : Prop where
  asked : x.asked = book.map fun e => (e.number, e.body)
  numbers : (book.map Sent.number).Nodup
  /-- The first requests were taken in, the next are on their way, and the last were lost. -/
  requests : ∃ lost, y.served.map (fun q => (q.id, q.body)) ++ x.asks ++ lost =
    book.map (fun e => (e.token, e.body)) ∧ (x.connection.attended = true → lost = [])
  answers : List.Forall₂ y.Answers places y.answers
  distinct : places.Nodup
  awaited : ∀ k ∈ places, ∀ e, book[k]? = some e → e.number ∉ x.told
  /-- The store has exactly the waiters that were told nothing. -/
  pending : ∀ t n, x.connection.pending.get? t = some n ↔ x.connection.state ≠ .closed ∧
    ∃ e ∈ book, e.token.toNat = t ∧ e.number = n ∧ n ∉ x.told
  once : x.told.Nodup
  told : ∀ p ∈ x.handed, ∃ k e, book[k]? = some e ∧ e.number = p.1 ∧ y.Answers k (e.token, p.2)
  /-- When a run has ended, its waiter was told or the reply is on its way. -/
  answered : y.connection.attended = true → x.connection.state ≠ .closed →
    ∀ k e a, book[k]? = some e → y.Answers k a → e.number ∉ x.told → k ∈ places

variable {x x' y y' : Session ι κ} {book : List Sent} {places : List Nat}

theorem tie_start (state state' : Lifecycle) (info info' : Option ι) (request request' : Option κ) :
    Tie (.start state info request) (.start state' info' request') [] [] where
  asked := rfl
  numbers := .nil
  requests := ⟨[], rfl, fun _ => rfl⟩
  answers := .nil
  distinct := .nil
  awaited := by simp
  pending := by simp [Session.start]
  once := .nil
  told := by simp [Session.start, handed]
  answered := by simp

theorem Tie.token_of_served (h : Tie x y book places) {k : Nat} {q : Service κ}
    (hq : y.served[k]? = some q) : ∃ e, book[k]? = some e ∧ e.token = q.id ∧ e.body = q.body := by
  obtain ⟨lost, hbook, -⟩ := h.requests
  have hk := congrArg (·[k]?) hbook
  have hlt : k < (y.served.map fun q => (q.id, q.body)).length := by
    rw [List.length_map]
    exact (List.getElem?_eq_some_iff.1 hq).1
  simp only [List.append_assoc, List.getElem?_append_left hlt, List.getElem?_map, hq,
    Option.map_some] at hk
  obtain ⟨e, he, heq⟩ := Option.map_eq_some_iff.1 hk.symm
  exact ⟨e, he, congrArg Prod.fst heq, congrArg Prod.snd heq⟩

theorem Tie.token_of_answers (h : Tie x y book places) {k : Nat} {a : UInt32 × Reply}
    (ha : y.Answers k a) : ∃ e, book[k]? = some e ∧ e.token = a.1 := by
  obtain ⟨q, o, hq, -, rfl⟩ := ha
  obtain ⟨e, he, hid, -⟩ := h.token_of_served hq
  exact ⟨e, he, hid⟩

theorem Tie.answers_of_mem (h : Tie x y book places) {k : Nat} (hk : k ∈ places) :
    ∃ a, y.Answers k a := by
  obtain ⟨i, hi, rfl⟩ := List.getElem_of_mem hk
  obtain ⟨hlen, hget⟩ := List.forall₂_iff_get.1 h.answers
  exact ⟨_, hget i hi (hlen ▸ hi)⟩

theorem Tie.place_eq (h : Tie x y book places) {j k : Nat} {d e : Sent} (hj : book[j]? = some d)
    (hk : book[k]? = some e) (heq : d.number = e.number) : j = k := by
  have hlt : j < (book.map Sent.number).length := by
    rw [List.length_map]
    exact (List.getElem?_eq_some_iff.1 hj).1
  refine (List.getElem?_inj hlt h.numbers).1 ?_
  rw [List.getElem?_map, List.getElem?_map, hj, hk, Option.map_some, Option.map_some, heq]

theorem Tie.not_told (h : Tie x y book places) {k : Nat} {e : Sent} (he : book[k]? = some e)
    (hno : ∀ a, ¬ y.Answers k a) : e.number ∉ x.told := by
  intro hmem
  obtain ⟨p, hp, hpe⟩ := List.mem_map.1 hmem
  obtain ⟨j, d, hd, hdp, ha⟩ := h.told p hp
  obtain rfl := h.place_eq hd he (hdp.trans hpe)
  exact hno _ ha

theorem Tie.get?_of_mem (h : Tie x y book places) (hx : x.connection.state ≠ .closed) {e : Sent}
    (he : e ∈ book) (hn : e.number ∉ x.told) :
    x.connection.pending.get? e.token.toNat = some e.number :=
  (h.pending _ _).2 ⟨hx, e, he, rfl, rfl, hn⟩

theorem Tie.pending_erase (h : Tie x y book places) {e : Sent} (he : e ∈ book)
    (hget : x.connection.pending.get? e.token.toNat = some e.number) (t n : Nat) :
    (x.connection.pending.erase e.token.toNat).get? t = some n ↔ x.connection.state ≠ .closed ∧
      ∃ d ∈ book, d.token.toNat = t ∧ d.number = n ∧ n ≠ e.number ∧ n ∉ x.told := by
  rw [Token.Store.get?_erase, Option.ite_none_left_eq_some, h.pending t n]
  constructor
  · rintro ⟨ht, hx, d, hd, hdt, rfl, hn⟩
    refine ⟨hx, d, hd, hdt, rfl, fun hde => ht ?_, hn⟩
    rw [← hdt, List.inj_on_of_nodup_map h.numbers hd he hde]
  · rintro ⟨hx, d, hd, rfl, rfl, hne, hn⟩
    refine ⟨fun hde => hne ?_, hx, d, hd, rfl, rfl, hn⟩
    have hd := h.get?_of_mem hx hd hn
    rw [hde, hget] at hd
    exact (Option.some.inj hd).symm

theorem Tie.pending_ask (h : Tie x y book places) {token : UInt32} {body : Bytes}
    {c : Connection Nat ι κ} (hc : Connection.Asked x.connection c token body x.tries)
    (hnew : x.tries ∉ x.told) (t n : Nat) :
    c.pending.get? t = some n ↔
      ∃ e ∈ book ++ [⟨token, x.tries, body⟩], e.token.toNat = t ∧ e.number = n ∧ n ∉ x.told := by
  have hopen : x.connection.state ≠ .closed := by simp [hc.opened]
  rw [hc.get?]
  constructor
  · intro hn
    split_ifs at hn with ht
    · obtain rfl := Option.some.inj hn
      exact ⟨_, List.mem_append_right _ (List.mem_singleton.2 rfl), ht.symm, rfl, hnew⟩
    · obtain ⟨-, e, he, hrest⟩ := (h.pending t n).1 hn
      exact ⟨e, List.mem_append_left _ he, hrest⟩
  · rintro ⟨e, he, rfl, rfl, hn⟩
    rcases List.mem_append.1 he with he | he
    · have hget := h.get?_of_mem hopen he hn
      rw [if_neg fun ht => ?_, hget]
      rw [ht, hc.fresh] at hget
      simp at hget
    · obtain rfl := List.mem_singleton.1 he
      exact if_pos rfl

theorem Tie.congr (h : Tie x y book places) (hx : AsksAlike x x') (hy : ServesAlike y y') :
    Tie x' y' book places := by
  have hans : y'.Answers = y.Answers := by
    unfold Answers
    rw [hy.served]
  have htold : ∀ n, n ∈ x'.told ↔ n ∈ x.told := fun n => (hx.handed.map _).mem_iff
  have hopen : x'.connection.state ≠ .closed ↔ x.connection.state ≠ .closed := not_congr hx.closed
  refine ⟨?_, h.numbers, ?_, ?_, h.distinct, ?_, ?_, ?_, ?_, ?_⟩
  · rw [hx.asked, h.asked]
  · rw [hy.served, hx.asks, hx.attended]
    exact h.requests
  · rw [hans, hy.answers]
    exact h.answers
  · simpa only [htold] using h.awaited
  · simpa only [hx.pending, hopen, htold] using h.pending
  · exact (hx.handed.map _).nodup_iff.2 h.once
  · intro p hp
    rw [hans]
    exact h.told p (hx.handed.mem_iff.1 hp)
  · simpa only [hy.attended, hopen, hans, htold] using h.answered

theorem Tie.ask (h : Tie x y book places) (hx : x.Numbered) {token : UInt32} {body : Bytes}
    {c : Connection Nat ι κ} (hc : Connection.Asked x.connection c token body x.tries) :
    Tie { x with connection := c, tries := x.tries + 1, asked := x.asked ++ [(x.tries, body)] } y
      (book ++ [⟨token, x.tries, body⟩]) places := by
  have hopen : x.connection.state ≠ .closed := by simp [hc.opened]
  have hopen' : c.state ≠ .closed := by
    rw [hc.rest]
    exact hopen
  have hnew := hx.next_not_told
  have hold : ∀ e ∈ book, e.number ≠ x.tries := fun e he => by
    refine Nat.ne_of_lt (hx.asked (e.number, e.body) ?_)
    rw [h.asked]
    exact List.mem_map_of_mem he
  have hlookup : ∀ {k e}, (book ++ [⟨token, x.tries, body⟩])[k]? = some e →
      book[k]? = some e ∨ e = (⟨token, x.tries, body⟩ : Sent) := fun {k e} he => by
    rw [List.getElem?_append] at he
    split_ifs at he with hk
    · exact .inl he
    · exact .inr (List.mem_singleton.1 (List.mem_of_getElem? he))
  refine ⟨?_, ?_, ?_, h.answers, h.distinct, ?_, ?_, h.once, ?_, ?_⟩
  · rw [List.map_append, ← h.asked]
    rfl
  · rw [List.map_append, List.nodup_append]
    refine ⟨h.numbers, List.nodup_singleton _, fun n hn m hm => ?_⟩
    obtain ⟨e, he, rfl⟩ := List.mem_map.1 hn
    obtain rfl := List.mem_singleton.1 hm
    exact hold e he
  · obtain ⟨lost, hbook, hlost⟩ := h.requests
    obtain rfl := hlost hc.attended
    refine ⟨[], ?_, fun _ => rfl⟩
    rw [List.map_append, ← hbook]
    simp [asks, out, Connection.frames, hc.queue]
  · intro k hk e he
    rcases hlookup he with he | rfl
    · exact h.awaited k hk e he
    · exact hnew
  · intro t n
    rw [h.pending_ask hc hnew]
    exact (and_iff_right hopen').symm
  · intro p hp
    obtain ⟨k, e, he, hrest⟩ := h.told p hp
    refine ⟨k, e, ?_, hrest⟩
    rw [List.getElem?_append_left (List.getElem?_eq_some_iff.1 he).1]
    exact he
  · intro hy _ k e a he ha hn
    obtain ⟨d, hd, -⟩ := h.token_of_answers ha
    rw [List.getElem?_append_left (List.getElem?_eq_some_iff.1 hd).1] at he
    exact h.answered hy hopen k e a he ha hn

theorem Tie.markClosed (h : Tie x y book places) :
    Tie (x.move .markClosed) y book places := by
  have hclosed : (x.move .markClosed).connection.state = .closed := rfl
  refine ⟨h.asked, h.numbers, h.requests, h.answers, h.distinct, h.awaited, fun t n => ?_,
    h.once, h.told, fun _ ho => absurd hclosed ho⟩
  have hempty : (x.move .markClosed).connection.pending.get? t = none := rfl
  simp only [hempty, hclosed, reduceCtorEq, ne_eq, not_true_eq_false, false_and]

theorem Tie.abandon_asking (h : Tie x y book places) :
    Tie (x.move .abandon) y book places := by
  obtain ⟨lost, hbook, -⟩ := h.requests
  refine ⟨h.asked, h.numbers, ⟨x.connection.frames.filterMap Frame.ask? ++ lost, ?_, ?_⟩,
    h.answers, h.distinct, h.awaited, h.pending, h.once, h.told, h.answered⟩
  · rw [← hbook]
    simp [asks, out, move, Connection.abandon, Connection.frames]
  · exact fun ha => absurd ha (by simp [move, Connection.abandon])

theorem Tie.abandon_answering (h : Tie x y book places) :
    ∃ places, Tie x (y.move .abandon) book places := by
  have hout : y.answers =
      (y.move .abandon).answers ++ y.connection.frames.filterMap Frame.reply? := by
    simp [Session.answers, out, move, Connection.abandon, Connection.frames]
  have hans := h.answers
  rw [hout] at hans
  have hkept : (places.take (y.move .abandon).answers.length).Sublist places :=
    List.take_sublist _ _
  refine ⟨places.take (y.move .abandon).answers.length, h.asked, h.numbers, h.requests,
    List.forall₂_take_append _ _ _ hans, h.distinct.sublist hkept,
    fun k hk => h.awaited k (hkept.subset hk), h.pending, h.once, h.told, fun ha => ?_⟩
  exact absurd ha (by simp [move, Connection.abandon])

theorem Tie.finish (h : Tie x y book places) {place : Nat} {q : Service κ}
    (hq : y.served[place]? = some q) (ho : q.outcome = none) (o : Outcome) :
    ∃ places, Tie x (y.resolve place q o) book places := by
  have hopen := not_answers hq ho
  have hattended : (y.resolve place q o).connection.attended = y.connection.attended := by
    simp [resolve, Connection.answer]
  have hrequests := h.requests
  rw [← requests_resolve hq o] at hrequests
  have hanswers := h.answers.imp fun k a (ha : y.Answers k a) => ha.resolve hq ho o
  have htold : ∀ p ∈ x.handed, ∃ k e, book[k]? = some e ∧ e.number = p.1 ∧
      (y.resolve place q o).Answers k (e.token, p.2) := fun p hp => by
    obtain ⟨k, e, he, hep, ha⟩ := h.told p hp
    exact ⟨k, e, he, hep, ha.resolve hq ho o⟩
  cases ha : y.connection.attended with
  | false =>
    refine ⟨places, h.asked, h.numbers, hrequests, ?_, h.distinct, h.awaited, h.pending, h.once,
      htold, fun ha' => ?_⟩
    · rw [answers_resolve, ha, if_neg Bool.false_ne_true]
      exact hanswers
    · rw [hattended, ha] at ha'
      exact absurd ha' Bool.false_ne_true
  | true =>
    refine ⟨places ++ [place], h.asked, h.numbers, hrequests, ?_, ?_, ?_, h.pending, h.once, htold,
      fun _ hx k e a he hka hn => ?_⟩
    · rw [answers_resolve, ha, if_pos rfl]
      exact List.rel_append hanswers (.cons (answers_resolve_self hq o) .nil)
    · refine List.nodup_append.2 ⟨h.distinct, List.nodup_singleton _, fun k hk m hm => ?_⟩
      obtain rfl := List.mem_singleton.1 hm
      rintro rfl
      obtain ⟨a, hka⟩ := h.answers_of_mem hk
      exact hopen a hka
    · intro k hk e he
      rcases List.mem_append.1 hk with hk | hk
      · exact h.awaited k hk e he
      · obtain rfl := List.mem_singleton.1 hk
        exact h.not_told he hopen
    · by_cases hk : k = place
      · exact List.mem_append_right _ (List.mem_singleton.2 hk)
      · have hold := (answers_resolve_of_ne hk o a).1 hka
        exact List.mem_append_left _ (h.answered ha hx k e a he hold hn)

theorem Tie.move_asking (h : Tie x y book places) (hx : x.Numbered) (m : Move ι κ) :
    ∃ book, Tie (x.move m) y book places := by
  by_cases hm : m.Quiet
  · exact ⟨book, h.congr (agrees_of_quiet x hm).asks_alike (.refl y)⟩
  · cases m with
    | ask body =>
      rcases x.ask_cases body with ⟨token, c, -, hc, heq⟩ | ⟨e, -, heq⟩
      · rw [move, heq]
        exact ⟨_, h.ask hx hc⟩
      · rw [move, heq]
        exact ⟨book, h.congr ⟨rfl, .rfl, rfl, rfl, .refl _, rfl⟩ (.refl y)⟩
    | finish place o =>
      rcases x.finish_cases place o with ⟨q, -, -, heq⟩ | heq
      · rw [move, heq]
        exact ⟨book, h.congr (answer_asks_alike x q.id o _) (.refl y)⟩
      · rw [move, heq]
        exact ⟨book, h⟩
    | markClosed => exact ⟨book, h.markClosed⟩
    | abandon => exact ⟨book, h.abandon_asking⟩
    | _ => exact absurd trivial hm

theorem Tie.move_answering (h : Tie x y book places) (m : Move ι κ) :
    ∃ places, Tie x (y.move m) book places := by
  by_cases hm : m.Quiet
  · exact ⟨places, h.congr (.refl x) (agrees_of_quiet y hm).serves_alike⟩
  · cases m with
    | ask body =>
      rcases y.ask_cases body with ⟨token, c, -, hc, heq⟩ | ⟨e, -, heq⟩
      · rw [move, heq]
        refine ⟨places, h.congr (.refl x) ⟨?_, rfl, ?_⟩⟩
        · rw [hc.rest]
        · simp [Session.answers, out, Connection.frames, hc.queue]
      · rw [move, heq]
        exact ⟨places, h.congr (.refl x) ⟨rfl, rfl, rfl⟩⟩
    | finish place o =>
      rcases y.finish_cases place o with ⟨q, hq, ho, heq⟩ | heq
      · rw [move, heq]
        exact h.finish hq ho o
      · rw [move, heq]
        exact ⟨places, h⟩
    | markClosed => exact ⟨places, h.congr (.refl x) ⟨rfl, rfl, rfl⟩⟩
    | abandon => exact h.abandon_answering
    | _ => exact absurd trivial hm

theorem Tie.serve (h : Tie x y book places) {rest : List Bytes} {id : UInt32} {body : Bytes}
    (hasks : x.asks = (id, body) :: asks { x with wire := rest }) (handler : Option κ) :
    Tie { x with wire := rest } { y with served := y.served ++ [⟨handler, id, body, none⟩] } book
      places := by
  have hans : ∀ k a, Answers { y with served := y.served ++ [⟨handler, id, body, none⟩] } k a ↔
      y.Answers k a := by
    intro k a
    constructor
    · rintro ⟨q, o, hq, ho, ha⟩
      rw [List.getElem?_append] at hq
      split_ifs at hq with hk
      · exact ⟨q, o, hq, ho, ha⟩
      · rw [List.mem_singleton.1 (List.mem_of_getElem? hq)] at ho
        simp at ho
    · rintro ⟨q, o, hq, ho, ha⟩
      refine ⟨q, o, ?_, ho, ha⟩
      rw [List.getElem?_append_left (List.getElem?_eq_some_iff.1 hq).1]
      exact hq
  refine ⟨h.asked, h.numbers, ?_, h.answers.imp fun k a => (hans k a).2, h.distinct, h.awaited,
    h.pending, h.once, fun p hp => ?_, fun hy hx k e a he hka => ?_⟩
  · obtain ⟨lost, hbook, hlost⟩ := h.requests
    refine ⟨lost, ?_, hlost⟩
    rw [← hbook, hasks]
    simp
  · obtain ⟨k, e, he, hep, hka⟩ := h.told p hp
    exact ⟨k, e, he, hep, (hans _ _).2 hka⟩
  · exact h.answered hy hx k e a he ((hans k a).1 hka)

theorem Tie.arrive_ask (h : Tie x y book places) {frame : Bytes} {rest : List Bytes}
    (hwire : x.wire = frame :: rest) {id : UInt32} {body : Bytes}
    (hask : Frame.ask? frame = some (id, body)) :
    ∃ places, Tie { x with wire := rest } (y.receive frame) book places := by
  have hasks : x.asks = (id, body) :: asks { x with wire := rest } := by
    rw [asks_of_wire hwire, hask]
    rfl
  have hserve := h.serve hasks y.connection.request
  rw [receive_of_ask hask]
  cases hr : y.connection.request with
  | some handler =>
    rw [hr] at hserve
    exact ⟨places, hserve⟩
  | none =>
    rw [hr] at hserve
    have hplace : (y.served ++ [⟨none, id, body, none⟩])[y.served.length]? =
        some (⟨none, id, body, none⟩ : Service κ) := List.getElem?_concat_length
    obtain ⟨places, hfinish⟩ := hserve.finish hplace rfl (.failed Outcome.noHandler)
    refine ⟨places, ?_⟩
    simpa [resolve, Service.begin] using hfinish

theorem Tie.arrive_reply (h : Tie x y book places) {frame : Bytes} {rest : List Bytes}
    (hwire : y.wire = frame :: rest) {id : UInt32} {r : Reply}
    (hreply : Frame.reply? frame = some (id, r)) :
    ∃ places, Tie (x.receive frame) ({ y with wire := rest } : Session ι κ) book places := by
  have hanswers : y.answers = (id, r) :: Session.answers { y with wire := rest } := by
    rw [answers_of_wire hwire, hreply]
    rfl
  have hall := h.answers
  rw [hanswers] at hall
  obtain ⟨k, rest', hk, hlater, rfl⟩ := List.forall₂_cons_right_iff.1 hall
  obtain ⟨hnodup, hdistinct⟩ := List.nodup_cons.1 h.distinct
  obtain ⟨e, he, rfl⟩ := h.token_of_answers hk
  have hmem : e ∈ book := List.mem_of_getElem? he
  -- the reply is for place `k`, whose waiter still stands under the token of the request
  have hwaits : e.number ∉ x.told := h.awaited k List.mem_cons_self e he
  rcases receive_of_reply (s := x) hreply with ⟨n, hn, heq⟩ | ⟨hn, heq⟩
  · have hopen : x.connection.state ≠ .closed := ((h.pending _ _).1 hn).1
    obtain rfl : n = e.number := Option.some.inj (hn.symm.trans (h.get?_of_mem hopen hmem hwaits))
    have hhanded : (x.receive frame).handed.Perm ((e.number, r) :: x.handed) := by
      rw [heq]
      simp only [handed, List.append_assoc, List.singleton_append]
      exact List.perm_middle
    have htold : (x.receive frame).told.Perm (e.number :: x.told) := hhanded.map _
    have hnot : ∀ {m}, m ∉ (x.receive frame).told ↔ m ≠ e.number ∧ m ∉ x.told := by
      intro m
      rw [htold.mem_iff, List.mem_cons, not_or]
    rw [heq] at hhanded htold hnot ⊢
    refine ⟨rest', h.asked, h.numbers, h.requests, hlater, hdistinct, fun j hj d hd => ?_,
      fun t m => ?_, ?_, fun p hp => ?_, fun ha ho j d a hd hja hm => ?_⟩
    · refine hnot.2 ⟨fun hde => ?_, h.awaited j (List.mem_cons_of_mem _ hj) d hd⟩
      obtain rfl := h.place_eq hd he hde
      exact hnodup hj
    · rw [h.pending_erase hmem hn]
      simp only [hnot]
    · exact htold.nodup_iff.2 (List.nodup_cons.2 ⟨hwaits, h.once⟩)
    · rcases List.mem_cons.1 (hhanded.mem_iff.1 hp) with rfl | hp
      · exact ⟨k, e, he, rfl, hk⟩
      · exact h.told p hp
    · obtain ⟨hne, hm⟩ := hnot.1 hm
      rcases List.mem_cons.1 (h.answered ha ho j d a hd hja hm) with rfl | hj
      · exact absurd (congrArg Sent.number (Option.some.inj (hd.symm.trans he))) hne
      · exact hj
  · -- The store has a waiter for every place on the way, so the side has closed.
    have hclosed : x.connection.state = .closed := by
      by_contra hopen
      rw [h.get?_of_mem hopen hmem hwaits] at hn
      simp at hn
    rw [heq]
    exact ⟨rest', h.asked, h.numbers, h.requests, hlater, hdistinct,
      fun j hj => h.awaited j (List.mem_cons_of_mem _ hj), h.pending, h.once, h.told,
      fun _ hx => absurd hclosed hx⟩

theorem Tie.arrive_from_asking (h : Tie x y book places) {frame : Bytes} {rest : List Bytes}
    (hwire : x.wire = frame :: rest) :
    ∃ places, Tie { x with wire := rest } (y.receive frame) book places := by
  cases ha : Frame.ask? frame with
  | some a => exact h.arrive_ask hwire ha
  | none =>
    refine ⟨places, h.congr ⟨rfl, .rfl, rfl, rfl, .refl _, ?_⟩ (serves_alike_receive ha)⟩
    rw [asks_of_wire hwire, ha]
    rfl

theorem Tie.arrive_from_answering (h : Tie x y book places) {frame : Bytes} {rest : List Bytes}
    (hwire : y.wire = frame :: rest) :
    ∃ places, Tie (x.receive frame) ({ y with wire := rest } : Session ι κ) book places := by
  cases hr : Frame.reply? frame with
  | some a => exact h.arrive_reply hwire hr
  | none =>
    refine ⟨places, h.congr (asks_alike_receive hr) ⟨rfl, rfl, ?_⟩⟩
    rw [answers_of_wire hwire, hr]
    rfl

structure Sound (c : Conversation ι κ) : Prop where
  numbered : ∀ p, (c.side p).Numbered
  tied : ∀ p, ∃ book places, Tie (c.side p) (c.side p.other) book places

theorem sound_start (state : Party → Lifecycle) (info : Party → Option ι)
    (request : Party → Option κ) : (start state info request).Sound where
  numbered p := by
    rw [side_start]
    exact numbered_start _ _ _
  tied p := by
    rw [side_start, side_start]
    exact ⟨[], [], tie_start _ _ _ _ _ _⟩

theorem Sound.step {c : Conversation ι κ} (h : c.Sound) (e : Event ι κ) : (c.step e).Sound where
  numbered := side_keeps (fun s e hs => hs.step e)
    (fun s wire hs => ⟨hs.pending, hs.handed, hs.dropped, hs.ascending, hs.asked⟩) h.numbered e
  tied p := by
    obtain ⟨book, places, ht⟩ := h.tied p
    cases e with
    | move q m =>
      rcases eq_or_eq_other q p with rfl | rfl
      · simp only [Conversation.step, side_put, side_put_other]
        obtain ⟨book, ht⟩ := ht.move_asking (h.numbered q) m
        exact ⟨book, places, ht⟩
      · simp only [Conversation.step, side_put, side_other_put]
        exact ⟨book, ht.move_answering m⟩
    | deliver q =>
      simp only [Conversation.step, deliver]
      split
      · exact ⟨book, places, ht⟩
      · rename_i frame rest hw
        rcases eq_or_eq_other q p with rfl | rfl
        · simp only [side_put, side_other_put]
          exact ⟨book, ht.arrive_from_asking hw⟩
        · simp only [Party.other_other, side_put, side_put_other]
          exact ⟨book, ht.arrive_from_answering hw⟩

theorem sound_run (state : Party → Lifecycle) (info : Party → Option ι)
    (request : Party → Option κ) (events : List (Event ι κ)) :
    ((start state info request).run events).Sound :=
  run_keeps (fun _ e h => h.step e) (sound_start state info request) events

end Conversation
end Parley
