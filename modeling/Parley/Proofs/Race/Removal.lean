import Mathlib
import Parley.Proofs.Race.Ending

/-!
# Who takes an entry out

As long as frames can be queued, every call that has a waiter but no frame out finds its own waiter
under its token, and the tokens that wait for a reply are those of requests that went out. From the
moment on when frames cannot be queued any more, a call may take the waiter of another one back, but
only that of a call that fails as well.
-/

namespace Parley

def Connection.Live (c : Connection ω ι κ) : Prop := c.state = .opened ∧ c.attended = true

theorem Connection.Wanes.live {c c' : Connection ω ι κ} (h : c.Wanes c') (hl : c'.Live) : c.Live :=
  ⟨h.opened hl.1, h.attended hl.2⟩

namespace Stage

/-- The call has kept its waiter under the token, and its frame is not queued. -/
def Holds (token : UInt32) : Stage → Prop
  | .kept t | .confirmed t | .refused t => t = token
  | _ => False

/-- Whatever comes, the call returns an error. -/
def Doomed (c : Connection ω ι κ) : Stage → Prop
  | .kept _ => ¬ c.Live
  | .confirmed _ => c.attended = false
  | .refused _ | .returned (.error _) => True
  | _ => False

theorem Doomed.mono {c c' : Connection ω ι κ} (hl : c'.Live → c.Live)
    (ha : c'.attended = true → c.attended = true) {stage : Stage} (h : stage.Doomed c) :
    stage.Doomed c' := by
  cases stage with
  | kept token => exact fun hlive => h (hl hlive)
  | confirmed token =>
    have hc : c.attended = false := h
    change c'.attended = false
    by_contra hne
    rw [ha (by simpa using hne)] at hc
    simp at hc
  | refused token => trivial
  | returned result =>
    cases result with
    | ok token => exact h.elim
    | error e => trivial
  | begun => exact h.elim
  | cleared => exact h.elim

end Stage

namespace Race
variable {ι κ : Type} {s later : Race ι κ} {n : Nat}

theorem Plain.holds {c : Connection Nat ι κ} {a b : Stage} (h : Plain c a b) {token : UInt32}
    (hb : b.Holds token) : a.Holds token := by
  cases h <;> exact hb

theorem Plain.returned {c : Connection Nat ι κ} {a b : Stage} (h : Plain c a b)
    {result : Except Error UInt32} (ha : a = .returned result) : b = .returned result := by
  cases h <;> simp_all

theorem Plain.doomed {c : Connection Nat ι κ} {a b : Stage} (h : Plain c a b) (ha : a.Doomed c) :
    b.Doomed c := by
  cases h with
  | confirmed token ho =>
    change c.attended = false
    have hdead : ¬ c.Live := ha
    simpa [Connection.Live, ho] using hdead
  | refused => trivial
  | lost => trivial
  | barred => exact ha.elim
  | full => exact ha.elim
  | cleared => exact ha.elim
  | rest => exact ha

theorem Plain.not_refused {c : Connection Nat ι κ} {a b : Stage} (h : Plain c a b) (hl : c.Live)
    {token : UInt32} : b ≠ .refused token := by
  rintro rfl
  cases h with
  | refused _ ho => exact ho hl.1
  | lost _ ha => simp [hl.2] at ha

structure Follows (s later : Race ι κ) : Prop where
  doomed : ∀ n, (s.stage n).Doomed s.connection → (later.stage n).Doomed later.connection
  returned : ∀ n result, s.stage n = .returned result → later.stage n = .returned result

theorem Follows.trans {last : Race ι κ} (h : s.Follows later) (h' : later.Follows last) :
    s.Follows last :=
  ⟨fun n hn => h'.doomed n (h.doomed n hn), fun n r hn => h'.returned n r (h.returned n r hn)⟩

theorem follows_of_stage (hstage : later.stage = s.stage)
    (hl : later.connection.Live → s.connection.Live)
    (ha : later.connection.attended = true → s.connection.attended = true) : s.Follows later :=
  ⟨fun _ hn => hstage ▸ hn.mono hl ha, fun _ _ hn => hstage ▸ hn⟩

theorem follows_of_reach {stage : Stage} (hstage : later.stage = (s.reach n stage).stage)
    (hdoomed : (s.stage n).Doomed s.connection → stage.Doomed later.connection)
    (hreturned : ∀ r, s.stage n = .returned r → stage = .returned r)
    (hl : later.connection.Live → s.connection.Live)
    (ha : later.connection.attended = true → s.connection.attended = true) : s.Follows later := by
  refine ⟨fun m hm => ?_, fun m r hm => ?_⟩
  · rw [hstage]
    by_cases hmn : m = n
    · subst m
      rw [reach_stage_self]
      exact hdoomed hm
    · rw [reach_stage_of_ne hmn]
      exact hm.mono hl ha
  · rw [hstage]
    by_cases hmn : m = n
    · subst m
      rw [reach_stage_self]
      exact hreturned r hm
    · rwa [reach_stage_of_ne hmn]

theorem follows_advance (s : Race ι κ) (n : Nat) : s.Follows (s.advance n) := by
  have hadvances := s.advances n
  generalize s.advance n = later at hadvances ⊢
  cases hadvances with
  | plain h => exact follows_of_reach rfl h.doomed (fun r hr => h.returned hr) id id
  | kept before =>
    exact follows_of_reach rfl (by simp [before, Stage.Doomed]) (by simp [before]) id id
  | queued before attended pending state still =>
    refine follows_of_reach rfl (by simp [before, Stage.Doomed, attended]) (by simp [before]) ?_ ?_
    · exact fun hl => ⟨state ▸ hl.1, attended⟩
    · exact fun _ => attended
  | withdrew before => exact follows_of_reach rfl (fun _ => trivial) (by simp [before]) id id

theorem follows_wanes {c : Connection Nat ι κ} (h : s.connection.Wanes c) {k : Nat} :
    s.Follows { s with connection := c, shutting := k } :=
  follows_of_stage rfl h.live h.attended

theorem follows_receive (s : Race ι κ) (bytes : Bytes) : s.Follows (s.receive bytes) := by
  cases hr : Frame.reply? bytes with
  | none =>
    rw [receive_of_other hr]
    exact follows_wanes (Connection.wanes_receive hr)
  | some a =>
    rcases receive_of_reply (s := s) hr with ⟨m, -, heq⟩ | ⟨-, heq⟩
    · rw [heq]
      exact follows_of_stage rfl id id
    · rw [heq]
      exact follows_of_stage rfl id id

theorem follows_step (s : Race ι κ) (e : Event) : s.Follows (s.step e) := by
  cases e with
  | advance n => exact s.follows_advance n
  | shut => exact follows_wanes s.connection.wanes_shut
  | drain =>
    simp only [step]
    split_ifs
    · exact follows_of_stage rfl id id
    · exact follows_of_stage rfl id id
  | close => exact follows_wanes s.connection.wanes_close
  | markClosing => exact follows_wanes s.connection.wanes_markClosing
  | abandon => exact follows_wanes s.connection.wanes_abandon
  | frame bytes => exact s.follows_receive bytes

theorem follows_run (s : Race ι κ) (events : List Event) : s.Follows (s.run events) := by
  induction events generalizing s with
  | nil => exact ⟨fun _ h => h, fun _ _ h => h⟩
  | cons e rest ih => exact (s.follows_step e).trans (ih (s.step e))

/-- What holds while frames can be queued. -/
structure Early (s : Race ι κ) : Prop where
  unrefused : ∀ n token, s.stage n ≠ .refused token
  own : ∀ n token, (s.stage n).Holds token → s.connection.pending.get? token.toNat = some n
  nodup : s.unanswered.Nodup
  sent : ∀ token ∈ s.unanswered, ∃ n, s.connection.pending.get? token.toNat = some n ∧
    s.stage n = .returned (.ok token)

structure Orderly (s : Race ι κ) : Prop where
  early : s.connection.Live → s.Early
  foreign : ∀ m n token, (s.stage m).Holds token →
    s.connection.pending.get? token.toNat = some n → n = m ∨ (s.stage n).Doomed s.connection
  late : ∀ token ∈ s.unanswered, ∀ n, s.connection.pending.get? token.toNat = some n →
    s.stage n = .returned (.ok token) ∨ (s.stage n).Doomed s.connection

theorem orderly_start (info : Option ι) (request : Option κ) (body : Nat → Bytes) :
    (start info request body).Orderly where
  early _ := ⟨by simp [start], by simp [start, Stage.Holds], by simp [start], by simp [start]⟩
  foreign := by simp [start]
  late := by simp [start]

structure Moves (s later : Race ι κ) (n : Nat) (stage : Stage) : Prop where
  self : later.stage n = stage
  other : ∀ m, m ≠ n → later.stage m = s.stage m
  follows : s.Follows later

theorem moves_of_reach {stage : Stage} (hfollows : s.Follows later)
    (h : later.stage = (s.reach n stage).stage) : s.Moves later n stage :=
  ⟨by rw [h, reach_stage_self], fun m hmn => by rw [h, reach_stage_of_ne hmn], hfollows⟩

theorem Moves.unrefused {stage : Stage} (hmoves : s.Moves later n stage) (h : s.Early)
    (hstage : ∀ token, stage ≠ .refused token) (m : Nat) (token : UInt32) :
    later.stage m ≠ .refused token := by
  by_cases hmn : m = n
  · rw [hmn, hmoves.self]
    exact hstage token
  · rw [hmoves.other m hmn]
    exact h.unrefused m token

theorem Moves.holds_of_returned {result : Except Error UInt32}
    (hmoves : s.Moves later n (.returned result)) {m : Nat} {u : UInt32}
    (hm : (later.stage m).Holds u) : (s.stage m).Holds u := by
  have hmn : m ≠ n := by
    rintro rfl
    rw [hmoves.self] at hm
    exact hm
  exact hmoves.other m hmn ▸ hm

theorem Orderly.of_fewer (h : s.Orderly) (hfollows : s.Follows later)
    (hholds : ∀ m token, (later.stage m).Holds token → (s.stage m).Holds token)
    (hentries : ∀ t n, later.connection.pending.get? t = some n →
      s.connection.pending.get? t = some n)
    (hout : ∀ token ∈ later.unanswered, token ∈ s.unanswered)
    (hearly : later.connection.Live → later.Early) : later.Orderly where
  early := hearly
  foreign m n token hm hn :=
    (h.foreign m n token (hholds m token hm) (hentries _ n hn)).imp_right (hfollows.doomed n)
  late token ht n hn :=
    (h.late token (hout token ht) n (hentries _ n hn)).imp (hfollows.returned n _)
      (hfollows.doomed n)

theorem Orderly.plain (h : s.Orderly) {stage : Stage} (hp : Plain s.connection (s.stage n) stage)
    (hfollows : s.Follows (s.reach n stage)) : (s.reach n stage).Orderly := by
  have hholds : ∀ m token, ((s.reach n stage).stage m).Holds token → (s.stage m).Holds token := by
    intro m token hm
    by_cases hmn : m = n
    · subst m
      rw [reach_stage_self] at hm
      exact hp.holds hm
    · rwa [reach_stage_of_ne hmn] at hm
  refine h.of_fewer hfollows hholds (fun t m hm => hm) (fun token ht => ht) fun hlive => ?_
  have hearly := h.early hlive
  have hmoves : s.Moves (s.reach n stage) n stage := moves_of_reach hfollows rfl
  refine ⟨hmoves.unrefused hearly fun _ => hp.not_refused hlive,
    fun m token hm => hearly.own m token (hholds m token hm), hearly.nodup, fun token ht => ?_⟩
  obtain ⟨m, hm, hret⟩ := hearly.sent token ht
  exact ⟨m, hm, hfollows.returned m _ hret⟩

section kept
variable {token : UInt32} (hmoves : s.Moves later n (.kept token))
  (fresh : s.connection.pending.get? token.toNat = none)
  (hget : ∀ t, later.connection.pending.get? t =
    if t = token.toNat then some n else s.connection.pending.get? t)
  (hout : later.unanswered = s.unanswered)
include hmoves fresh hget hout

theorem Early.kept (h : s.Early) : later.Early := by
  refine ⟨hmoves.unrefused h (by simp), fun m u hm => ?_, hout ▸ h.nodup, fun u hu => ?_⟩
  · by_cases hmn : m = n
    · rw [hmn, hmoves.self] at hm
      obtain rfl : token = u := hm
      rw [hget, if_pos rfl, hmn]
    · rw [hmoves.other m hmn] at hm
      have hown := h.own m u hm
      rw [hget, if_neg (ne_of_fresh fresh hown), hown]
  · obtain ⟨m, hm, hret⟩ := h.sent u (hout ▸ hu)
    refine ⟨m, ?_, hmoves.follows.returned m _ hret⟩
    rw [hget, if_neg (ne_of_fresh fresh hm), hm]

theorem Orderly.kept (h : s.Orderly) (hlive : later.connection.Live → s.connection.Live)
    (hdead : ¬ s.connection.Live → (later.stage n).Doomed later.connection) : later.Orderly := by
  refine ⟨fun hl => (h.early (hlive hl)).kept hmoves fresh hget hout, fun m k u hm hk => ?_,
    fun u hu k hk => ?_⟩
  · rw [hget] at hk
    by_cases hmn : m = n
    · rw [hmn, hmoves.self] at hm
      obtain rfl : token = u := hm
      rw [if_pos rfl] at hk
      exact .inl ((Option.some.inj hk).symm.trans hmn.symm)
    · rw [hmoves.other m hmn] at hm
      split_ifs at hk with hu
      · obtain rfl := Option.some.inj hk
        -- while frames can be queued, the token would not have been free
        refine .inr (hdead fun hl => ?_)
        exact ne_of_fresh fresh ((h.early hl).own m u hm) hu
      · exact (h.foreign m k u hm hk).imp_right (hmoves.follows.doomed k)
  · rw [hget] at hk
    rw [hout] at hu
    split_ifs at hk with heq
    · obtain rfl := Option.some.inj hk
      refine .inr (hdead fun hl => ?_)
      obtain ⟨m, hm, -⟩ := (h.early hl).sent u hu
      exact ne_of_fresh fresh hm heq
    · exact (h.late u hu k hk).imp (hmoves.follows.returned k _) (hmoves.follows.doomed k)

end kept

section queued
variable {token : UInt32} (hmoves : s.Moves later n (.returned (.ok token)))
  (before : s.stage n = .confirmed token)
  (hsame : later.connection.pending = s.connection.pending)
  (hout : later.unanswered = s.unanswered ++ [token])
include hmoves before hsame hout

theorem Early.queued (h : s.Early) : later.Early := by
  have hown := h.own n token (by rw [before]; rfl)
  refine ⟨hmoves.unrefused h (by simp), fun m u hm => ?_, ?_, fun u hu => ?_⟩
  · rw [hsame]
    exact h.own m u (hmoves.holds_of_returned hm)
  · rw [hout, ← List.concat_eq_append, List.nodup_concat]
    refine ⟨fun hmem => ?_, h.nodup⟩
    obtain ⟨m, hm, hret⟩ := h.sent token hmem
    obtain rfl := Option.some.inj (hown.symm.trans hm)
    rw [before] at hret
    simp at hret
  · rw [hsame]
    rw [hout] at hu
    rcases List.mem_append.1 hu with hu | hu
    · obtain ⟨m, hm, hret⟩ := h.sent u hu
      exact ⟨m, hm, hmoves.follows.returned m _ hret⟩
    · obtain rfl := List.mem_singleton.1 hu
      exact ⟨n, hown, hmoves.self⟩

theorem Orderly.queued (h : s.Orderly) (hlive : later.connection.Live → s.connection.Live) :
    later.Orderly := by
  refine ⟨fun hl => (h.early (hlive hl)).queued hmoves before hsame hout, fun m k u hm hk => ?_,
    fun u hu k hk => ?_⟩
  · rw [hsame] at hk
    exact (h.foreign m k u (hmoves.holds_of_returned hm) hk).imp_right (hmoves.follows.doomed k)
  · rw [hsame] at hk
    rw [hout] at hu
    rcases List.mem_append.1 hu with hu | hu
    · exact (h.late u hu k hk).imp (hmoves.follows.returned k _) (hmoves.follows.doomed k)
    · obtain rfl := List.mem_singleton.1 hu
      rcases h.foreign n k u (by rw [before]; rfl) hk with rfl | hdoomed
      · exact .inl hmoves.self
      · exact .inr (hmoves.follows.doomed k hdoomed)

end queued

theorem Orderly.withdrew (h : s.Orderly) {token : UInt32} (before : s.stage n = .refused token)
    (hlater : later = { s.reach n (.returned (.error .notConnected)) with
      connection := s.connection.withdraw token
      dropped := s.dropped ++ (s.connection.pending.get? token.toNat).toList })
    (hfollows : s.Follows later) : later.Orderly := by
  have hmoves : s.Moves later n (.returned (.error .notConnected)) :=
    moves_of_reach hfollows (by rw [hlater])
  refine h.of_fewer hfollows (fun m u hm => hmoves.holds_of_returned hm) (fun t m hm => ?_)
    (fun u hu => ?_) fun hl => ?_
  · rw [hlater] at hm
    simp only [Connection.withdraw, Token.Store.get?_erase, Option.ite_none_left_eq_some] at hm
    exact hm.2
  · rw [hlater] at hu
    exact hu
  · rw [hlater] at hl
    exact absurd before ((h.early hl).unrefused n token)

theorem Orderly.advance (h : s.Orderly) (n : Nat) : (s.advance n).Orderly := by
  have hadvances := s.advances n
  have hfollows := s.follows_advance n
  generalize s.advance n = later at hadvances hfollows ⊢
  cases hadvances with
  | plain hp => exact h.plain hp hfollows
  | @kept token pending before fresh get? =>
    have hmoves : s.Moves _ n (.kept token) := moves_of_reach hfollows rfl
    refine h.kept hmoves fresh get? rfl id fun hl => ?_
    rw [hmoves.self]
    exact hl
  | @queued token c before attended pending state still =>
    have hmoves : s.Moves _ n (.returned (.ok token)) := moves_of_reach hfollows rfl
    exact h.queued hmoves before pending rfl fun hl => ⟨state ▸ hl.1, attended⟩
  | withdrew before => exact h.withdrew before rfl hfollows

theorem Orderly.wanes (h : s.Orderly) {c : Connection Nat ι κ} (hc : s.connection.Wanes c)
    {k : Nat} : { s with connection := c, shutting := k }.Orderly := by
  have hsame : ∀ t, c.pending.get? t = s.connection.pending.get? t := fun t => by rw [hc.pending]
  refine h.of_fewer (follows_wanes hc) (fun m token hm => hm) (fun t m hm => hsame t ▸ hm)
    (fun token ht => ht) fun hl => ?_
  have hearly := h.early (hc.live hl)
  refine ⟨hearly.unrefused, fun m token hm => ?_, hearly.nodup, fun token ht => ?_⟩
  · exact (hsame _).trans (hearly.own m token hm)
  · obtain ⟨m, hm, hret⟩ := hearly.sent token ht
    exact ⟨m, (hsame _).trans hm, hret⟩

/-- A reply is to a request that was queued and has had none, or there is nobody to take it. -/
def Answers (s : Race ι κ) : Event → Prop
  | .frame bytes => ∀ a ∈ Frame.reply? bytes,
      a.1 ∈ s.unanswered ∨ s.connection.pending.get? a.1.toNat = none
  | _ => True

instance (s : Race ι κ) (e : Event) : Decidable (s.Answers e) :=
  match e with
  | .frame bytes => inferInstanceAs (Decidable (∀ a ∈ Frame.reply? bytes,
      a.1 ∈ s.unanswered ∨ s.connection.pending.get? a.1.toNat = none))
  | .advance _ | .shut | .drain | .close | .markClosing | .abandon => .isTrue trivial

/-- The peer replies to what was queued, and to each request once. -/
def Honest (s : Race ι κ) : List Event → Prop
  | [] => True
  | e :: rest => s.Answers e ∧ (s.step e).Honest rest

instance decidableHonest : (s : Race ι κ) → (events : List Event) → Decidable (s.Honest events)
  | _, [] => .isTrue trivial
  | s, e :: rest =>
    have := decidableHonest (s.step e) rest
    inferInstanceAs (Decidable (s.Answers e ∧ (s.step e).Honest rest))

theorem Orderly.receive (h : s.Orderly) {bytes : Bytes} (hfair : s.Answers (.frame bytes)) :
    (s.receive bytes).Orderly := by
  cases hr : Frame.reply? bytes with
  | none =>
    rw [receive_of_other hr]
    exact h.wanes (Connection.wanes_receive hr)
  | some a =>
    obtain ⟨id, r⟩ := a
    have hfollows := s.follows_receive bytes
    rcases receive_of_reply (s := s) hr with ⟨m, hm, heq⟩ | ⟨hm, heq⟩
    · rw [heq] at hfollows ⊢
      have hout : id ∈ s.unanswered := (hfair (id, r) hr).resolve_right (by simp [hm])
      refine h.of_fewer hfollows (fun k token hk => hk) (fun t k hk => ?_)
        (fun token ht => List.mem_of_mem_erase ht) fun hl => ?_
      · rw [Token.Store.get?_erase, Option.ite_none_left_eq_some] at hk
        exact hk.2
      · have hearly := h.early hl
        obtain ⟨k, hk, hret⟩ := hearly.sent id hout
        refine ⟨hearly.unrefused, fun j token hj => ?_, hearly.nodup.erase id, fun token ht => ?_⟩
        · have hown := hearly.own j token hj
          have hne : token.toNat ≠ id.toNat := by
            intro heq
            rw [heq, hk] at hown
            obtain rfl := Option.some.inj hown
            rw [hret] at hj
            exact hj
          rw [Token.Store.get?_erase, if_neg hne, hown]
        · obtain ⟨hne, ht⟩ := hearly.nodup.mem_erase_iff.1 ht
          obtain ⟨j, hj, hret⟩ := hearly.sent token ht
          refine ⟨j, ?_, hret⟩
          rw [Token.Store.get?_erase, if_neg (fun heq => hne (UInt32.toNat_inj.1 heq)), hj]
    · rw [heq] at hfollows ⊢
      refine h.of_fewer hfollows (fun k token hk => hk) (fun t k hk => hk)
        (fun token ht => List.mem_of_mem_erase ht) fun hl => ?_
      have hearly := h.early hl
      exact ⟨hearly.unrefused, hearly.own, hearly.nodup.erase id,
        fun token ht => hearly.sent token (List.mem_of_mem_erase ht)⟩

theorem Orderly.step (h : s.Orderly) (hacc : s.Accounted) {e : Event} (hfair : s.Answers e) :
    (s.step e).Orderly := by
  cases e with
  | advance n => exact h.advance n
  | shut => exact h.wanes s.connection.wanes_shut
  | drain =>
    simp only [Race.step]
    split_ifs with hk
    · exact h
    · refine h.of_fewer (follows_of_stage rfl id id) (fun m token hm => hm) (fun t m hm => ?_)
        (fun token ht => ht) fun hl => ?_
      · simp [Connection.drain, Token.Store.drain] at hm
      · have hs : s.connection.state = .opened := hl.1
        rw [hacc.shut hk] at hs
        simp at hs
  | close => exact h.wanes s.connection.wanes_close
  | markClosing => exact h.wanes s.connection.wanes_markClosing
  | abandon => exact h.wanes s.connection.wanes_abandon
  | frame bytes => exact h.receive hfair

theorem orderly_run (h : s.Orderly) (hacc : s.Accounted) {before after : List Event}
    (hfair : s.Honest (before ++ after)) :
    (s.run before).Orderly ∧ (s.run before).Honest after := by
  induction before generalizing s with
  | nil => exact ⟨h, hfair⟩
  | cons e rest ih => exact ih (h.step hacc hfair.1) (hacc.step e) hfair.2

theorem Orderly.removed (h : s.Orderly) {e : Event} (hfair : s.Answers e) {t : Nat}
    (hn : s.connection.pending.get? t = some n)
    (hgone : (s.step e).connection.pending.get? t ≠ some n)
    (hsafe : ¬ (s.stage n).Doomed s.connection) :
    e = .drain ∨ ∃ (token : UInt32) (bytes : Bytes) (r : Reply), token.toNat = t ∧
      s.stage n = .returned (.ok token) ∧ e = .frame bytes ∧
      Frame.reply? bytes = some (token, r) := by
  have hwanes : ∀ {c}, s.connection.Wanes c → c.pending.get? t = some n := by
    intro c hc
    rw [hc.pending, hn]
  cases e with
  | drain => exact .inl rfl
  | shut => exact absurd (hwanes s.connection.wanes_shut) hgone
  | close => exact absurd (hwanes s.connection.wanes_close) hgone
  | markClosing => exact absurd (hwanes s.connection.wanes_markClosing) hgone
  | abandon => exact absurd (hwanes s.connection.wanes_abandon) hgone
  | advance m =>
    refine absurd ?_ hgone
    change (s.advance m).connection.pending.get? t = some n
    have hadvances := s.advances m
    generalize s.advance m = later at hadvances ⊢
    cases hadvances with
    | plain => exact hn
    | kept before fresh get? =>
      refine (get? t).trans ?_
      split_ifs with ht
      · rw [ht, fresh] at hn
        simp at hn
      · exact hn
    | queued before attended pending state still => simpa only [pending] using hn
    | withdrew before =>
      rename_i token
      simp only [Connection.withdraw, Token.Store.get?_erase]
      split_ifs with ht
      · have hheld : (s.stage m).Holds token := by
          rw [before]
          rfl
        rcases h.foreign m n token hheld (ht ▸ hn) with rfl | hdoomed
        · rw [before] at hsafe
          exact absurd trivial hsafe
        · exact absurd hdoomed hsafe
      · exact hn
  | frame bytes =>
    cases hr : Frame.reply? bytes with
    | none =>
      refine absurd ?_ hgone
      rw [Race.step, receive_of_other hr]
      exact hwanes (Connection.wanes_receive hr)
    | some a =>
      obtain ⟨id, r⟩ := a
      rcases receive_of_reply (s := s) hr with ⟨m, hm, heq⟩ | ⟨-, heq⟩
      · by_cases ht : t = id.toNat
        · subst t
          have hout : id ∈ s.unanswered := (hfair (id, r) hr).resolve_right (by simp [hn])
          have hret := (h.late id hout n hn).resolve_right hsafe
          exact .inr ⟨id, bytes, r, rfl, hret, rfl, hr⟩
        · refine absurd ?_ hgone
          rw [Race.step, heq]
          simp only [Token.Store.get?_erase, if_neg ht, hn]
      · refine absurd ?_ hgone
        rw [Race.step, heq]
        exact hn

theorem accounted_run (h : s.Accounted) (events : List Event) : (s.run events).Accounted := by
  induction events generalizing s with
  | nil => exact h
  | cons e rest ih => exact ih (h.step e)

def narrow : List Event :=
  [.advance 0, .advance 0, .advance 0, .advance 0,
    .frame (Envelope.response 0 [7]).encode,
    .advance 1, .advance 1, .advance 1, .advance 1, .advance 2, .advance 2,
    .shut, .advance 2, .drain, .advance 2]

/-- Once a connection has ended and every call has returned, nobody waits, and every call that waits
for its reply ends, whatever the peer sent. If the peer replies to requests that were queued only,
and to none of them twice, then the entry of a request that was sent is taken out by nothing but its
reply and the end. -/
theorem none_stranded (info : Option ι) (request : Option κ) (body : Nat → Bytes)
    (events : List Event) :
    let fresh := start info request body
    let s := fresh.run events
    (s.connection.state = .closed → s.shutting = 0 → s.Settled →
      s.connection.pending.isEmpty = true ∧
        ∀ n result, s.stage n = .returned result → (s.callEnd n).isSome) ∧
    (fresh.Honest events → ∀ before e after, events = before ++ e :: after →
      ∀ t n token, (fresh.run before).connection.pending.get? t = some n →
        ((fresh.run before).step e).connection.pending.get? t ≠ some n →
        s.stage n = .returned (.ok token) →
        e = .drain ∨ ∃ bytes r, e = .frame bytes ∧ Frame.reply? bytes = some (token, r) ∧
          token.toNat = t ∧ (fresh.run before).stage n = .returned (.ok token)) := by
  intro fresh s
  have hacc : ∀ events, (fresh.run events).Accounted :=
    accounted_run (accounted_start info request body)
  refine ⟨fun hclosed hshut hsettled => ?_, ?_⟩
  · have hempty := (hacc events).isEmpty hsettled hclosed hshut
    exact ⟨hempty, fun n result hn => (hacc events).callEnd hempty hn⟩
  · rintro hhonest before e after rfl t n token hn hgone hret
    obtain ⟨horderly, hrest⟩ :=
      orderly_run (orderly_start info request body) (accounted_start info request body) hhonest
    have hlast : s = (fresh.run before).run (e :: after) := List.foldl_append
    have hfollows : (fresh.run before).Follows s := hlast ▸ follows_run _ _
    have hsafe : ¬ ((fresh.run before).stage n).Doomed (fresh.run before).connection := by
      intro hdoomed
      have hlater := hfollows.doomed n hdoomed
      rw [hret] at hlater
      exact hlater
    rcases horderly.removed hrest.1 hn hgone hsafe with hdrain | ⟨id, bytes, r, hid, hnow, he, hr⟩
    · exact .inl hdrain
    · obtain rfl : id = token := by simpa [hret] using (hfollows.returned n _ hnow).symm
      exact .inr ⟨bytes, r, he, hr, hid, hnow⟩

theorem none_stranded_narrow :
    let fresh : Race Unit Unit := start none none fun n => [UInt8.ofNat n]
    let s := fresh.run narrow
    let asked := fresh.run (narrow.take 4)
    let told := Event.frame (Envelope.response 0 [7]).encode
    (s.connection.state = .closed ∧ s.shutting = 0 ∧ s.Settled ∧
      s.connection.pending.isEmpty = true ∧ (s.callEnd 1).isSome) ∧
    (fresh.Honest narrow ∧ asked.connection.pending.get? 0 = some 0 ∧
      (asked.step told).connection.pending.get? 0 ≠ some 0 ∧ s.stage 0 = .returned (.ok 0) ∧
      (told = .drain ∨ ∃ bytes r, told = .frame bytes ∧ Frame.reply? bytes = some (0, r) ∧
        (0 : UInt32).toNat = 0 ∧ asked.stage 0 = .returned (.ok 0))) := by
  intro fresh s asked told
  have hclosed : s.connection.state = .closed := by decide
  have hshut : s.shutting = 0 := by decide
  have hsettled : s.Settled := by
    intro n
    match n with
    | 0 => exact .inr ⟨.ok 0, by decide⟩
    | 1 => exact .inr ⟨.ok 0, by decide⟩
    | 2 => exact .inr ⟨.error .notConnected, by decide⟩
    | n + 3 => exact .inl rfl
  have hsent : s.stage 1 = .returned (.ok 0) := by decide
  have hhonest : fresh.Honest narrow := by decide
  have hkept : asked.connection.pending.get? 0 = some 0 := by decide
  have hgone : (asked.step told).connection.pending.get? 0 ≠ some 0 := by decide
  have hret : s.stage 0 = .returned (.ok 0) := by decide
  obtain ⟨hend, hremoved⟩ := none_stranded none none (fun n => [UInt8.ofNat n]) narrow
    (ι := Unit) (κ := Unit)
  obtain ⟨hempty, hcalls⟩ := hend hclosed hshut hsettled
  exact ⟨⟨hclosed, hshut, hsettled, hempty, hcalls 1 _ hsent⟩, hhonest, hkept, hgone, hret,
    hremoved hhonest (narrow.take 4) told (narrow.drop 5) rfl 0 0 0 hkept hgone hret⟩

def Queued (s : Race ι κ) (token : UInt32) : Prop := ∃ n, s.stage n = .returned (.ok token)

/-- The peer replies to what was queued, and maybe more than once. -/
def Responds (s : Race ι κ) : List Event → Prop
  | [] => True
  | e :: rest =>
    (∀ bytes, e = .frame bytes → ∀ a ∈ Frame.reply? bytes, s.Queued a.1) ∧ (s.step e).Responds rest

/-- Call 0 is answered twice. The second reply takes the waiter of call 1, which then takes back
that of call 2. -/
def twice : List Event :=
  let told := Event.frame (Envelope.response 0 [7]).encode
  [.advance 0, .advance 0, .advance 0, .advance 0, told, .advance 1, .advance 1, told,
    .advance 2, .advance 2, .advance 2, .advance 2, .shut, .advance 1]

/-- It is not enough that the peer replies to queued requests only: without a reply of its own and
without the end, a request that was sent loses its entry. -/
theorem second_reply_strands :
    let fresh : Race Unit Unit := start none none fun _ => []
    let s := fresh.run twice
    let later := s.step (.advance 1)
    fresh.Responds (twice ++ [.advance 1]) ∧ ¬ fresh.Honest (twice ++ [.advance 1]) ∧
      s.stage 2 = .returned (.ok 0) ∧ s.connection.pending.get? 0 = some 2 ∧
      later.connection.pending.get? 0 = none ∧ later.stage 2 = .returned (.ok 0) := by
  have htold : Frame.reply? (Envelope.response 0 [7]).encode = some (0, .ok [7]) := by decide
  have hanswers (s : Race Unit Unit) (h : s.stage 0 = .returned (.ok 0)) :
      ∀ bytes, Event.frame (Envelope.response 0 [7]).encode = .frame bytes →
        ∀ a ∈ Frame.reply? bytes, s.Queued a.1 := by
    rintro _ ⟨⟩ a ha
    obtain rfl := Option.some.inj (htold.symm.trans ha)
    exact ⟨0, h⟩
  intro fresh s later
  refine ⟨?_, by decide, by decide, by decide, by decide, by decide⟩
  exact ⟨nofun, nofun, nofun, nofun, hanswers _ (by decide), nofun, nofun, hanswers _ (by decide),
    nofun, nofun, nofun, nofun, nofun, nofun, nofun, trivial⟩

end Race
end Parley
