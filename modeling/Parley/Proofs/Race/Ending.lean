import Mathlib
import Parley.Proofs.Race

/-!
# Nobody is left at the end

Whoever waits is the waiter of a call that went on from there, and once the connection has ended
only calls that will take their waiter back have one. A waiter that is gone was handed a reply or
dropped.
-/

namespace Parley

def Stage.Owns (token : UInt32) : Stage → Prop
  | .kept t | .confirmed t | .refused t | .returned (.ok t) => t = token
  | _ => False

/-- The call will not queue its frame once the connection has ended. -/
def Stage.Leaving : Stage → Prop
  | .kept _ | .refused _ => True
  | _ => False

namespace Race
variable {ι κ : Type} {s : Race ι κ} {n : Nat}

theorem Plain.owns_iff {c : Connection Nat ι κ} {a b : Stage} (h : Plain c a b) (token : UInt32) :
    b.Owns token ↔ a.Owns token := by
  cases h <;> exact Iff.rfl

theorem Plain.leaving {c : Connection Nat ι κ} {a b : Stage} (h : Plain c a b)
    (hc : c.state = .closed) (ha : a.Leaving) : b.Leaving := by
  cases h with
  | confirmed token ho => simp [hc] at ho
  | refused => trivial
  | _ => exact ha.elim

structure Accounted (s : Race ι κ) : Prop where
  shut : s.shutting ≠ 0 → s.connection.state = .closed
  owner : ∀ t n, s.connection.pending.get? t = some n →
    ∃ token : UInt32, token.toNat = t ∧ (s.stage n).Owns token
  leaving : s.connection.state = .closed → s.shutting = 0 →
    ∀ t n, s.connection.pending.get? t = some n → (s.stage n).Leaving
  found : ∀ n token, (s.stage n).Owns token →
    (∃ t, s.connection.pending.get? t = some n) ∨ n ∈ s.handed.map (·.1) ∨ n ∈ s.dropped

theorem accounted_start (info : Option ι) (request : Option κ) (body : Nat → Bytes) :
    (start info request body).Accounted :=
  ⟨by simp [start], by simp [start], by simp [start], by simp [start, Stage.Owns]⟩

theorem Accounted.wanes (h : s.Accounted) {c : Connection Nat ι κ} (hc : s.connection.Wanes c)
    {k : Nat} (hshut : k ≠ 0 → c.state = .closed)
    (hclosed : c.state = .closed → k = 0 → s.connection.state = .closed ∧ s.shutting = 0) :
    { s with connection := c, shutting := k }.Accounted where
  shut := hshut
  owner t m hm := h.owner t m (hc.pending ▸ hm)
  leaving hs hk t m hm :=
    h.leaving (hclosed hs hk).1 (hclosed hs hk).2 t m (hc.pending ▸ hm)
  found m token hm := by
    simp only [hc.pending]
    exact h.found m token hm

theorem Accounted.plain (h : s.Accounted) {stage : Stage}
    (hp : Plain s.connection (s.stage n) stage) : (s.reach n stage).Accounted where
  shut := h.shut
  owner t m hm := by
    obtain ⟨token, ht, howns⟩ := h.owner t m hm
    refine ⟨token, ht, ?_⟩
    by_cases hmn : m = n
    · subst m
      rw [reach_stage_self]
      exact (hp.owns_iff token).2 howns
    · rwa [reach_stage_of_ne hmn]
  leaving hs hk t m hm := by
    have hleaving := h.leaving hs hk t m hm
    by_cases hmn : m = n
    · subst m
      rw [reach_stage_self]
      exact hp.leaving hs hleaving
    · rwa [reach_stage_of_ne hmn]
  found m token hm := by
    refine h.found m token ?_
    by_cases hmn : m = n
    · subst m
      rw [reach_stage_self] at hm
      exact (hp.owns_iff token).1 hm
    · rwa [reach_stage_of_ne hmn] at hm

theorem ne_of_fresh {t u m : Nat} (fresh : s.connection.pending.get? u = none)
    (h : s.connection.pending.get? t = some m) : t ≠ u := by
  rintro rfl
  rw [fresh] at h
  simp at h

theorem Accounted.kept (h : s.Accounted) {token : UInt32} {pending : Token.Store (.word 32) Nat}
    (before : s.stage n = .cleared) (fresh : s.connection.pending.get? token.toNat = none)
    (get? : ∀ t, pending.get? t =
      if t = token.toNat then some n else s.connection.pending.get? t) :
    { s.reach n (.kept token) with
      connection := { s.connection with pending } : Race ι κ }.Accounted := by
  -- an entry has an owner, and a call that has not kept its waiter owns none
  have hold : ∀ t m, s.connection.pending.get? t = some m → m ≠ n := by
    rintro t m hm rfl
    obtain ⟨u, -, howns⟩ := h.owner t m hm
    rw [before] at howns
    exact howns
  refine ⟨h.shut, fun t m hm => ?_, fun hs hk t m hm => ?_, fun m u hm => ?_⟩
  · change pending.get? t = some m at hm
    rw [get?] at hm
    split_ifs at hm with ht
    · obtain rfl := Option.some.inj hm
      refine ⟨token, ht.symm, ?_⟩
      change ((s.reach n (.kept token)).stage n).Owns token
      rw [reach_stage_self]
      rfl
    · obtain ⟨u, hu, howns⟩ := h.owner t m hm
      refine ⟨u, hu, ?_⟩
      change ((s.reach n (.kept token)).stage m).Owns u
      rwa [reach_stage_of_ne (hold t m hm)]
  · change pending.get? t = some m at hm
    change ((s.reach n (.kept token)).stage m).Leaving
    rw [get?] at hm
    split_ifs at hm with ht
    · obtain rfl := Option.some.inj hm
      rw [reach_stage_self]
      trivial
    · rw [reach_stage_of_ne (hold t m hm)]
      exact h.leaving hs hk t m hm
  · change (∃ t, pending.get? t = some m) ∨ _
    by_cases hmn : m = n
    · exact .inl ⟨token.toNat, by rw [get?, if_pos rfl, hmn]⟩
    · have hm : ((s.reach n (.kept token)).stage m).Owns u := hm
      rw [reach_stage_of_ne hmn] at hm
      refine (h.found m u hm).imp_left fun ⟨t, ht⟩ => ⟨t, ?_⟩
      rw [get?, if_neg (ne_of_fresh fresh ht), ht]

theorem Accounted.queued (h : s.Accounted) {token : UInt32} {c : Connection Nat ι κ}
    (before : s.stage n = .confirmed token) (hp : c.pending = s.connection.pending)
    (hs : c.state = s.connection.state) (unanswered : List UInt32) :
    { s.reach n (.returned (.ok token)) with connection := c, unanswered }.Accounted := by
  have howns : ∀ u m, ((s.reach n (.returned (.ok token))).stage m).Owns u ↔
      (s.stage m).Owns u := by
    intro u m
    by_cases hmn : m = n
    · subst m
      rw [reach_stage_self, before]
      exact Iff.rfl
    · rw [reach_stage_of_ne hmn]
  refine ⟨fun hk => hs ▸ h.shut hk, fun t m hm => ?_, fun hc hk t m hm => ?_, fun m u hm => ?_⟩
  · obtain ⟨u, hu, hm⟩ := h.owner t m (hp ▸ hm)
    exact ⟨u, hu, (howns u m).2 hm⟩
  · have hleaving := h.leaving (hs ▸ hc) hk t m (hp ▸ hm)
    have hmn : m ≠ n := by
      rintro rfl
      rw [before] at hleaving
      exact hleaving
    change ((s.reach n (.returned (.ok token))).stage m).Leaving
    rwa [reach_stage_of_ne hmn]
  · simp only [hp]
    exact h.found m u ((howns u m).1 hm)

theorem Accounted.withdrew (h : s.Accounted) {token : UInt32}
    (before : s.stage n = .refused token) :
    { s.reach n (.returned (.error .notConnected)) with
      connection := s.connection.withdraw token
      dropped := s.dropped ++ (s.connection.pending.get? token.toNat).toList }.Accounted := by
  have hold : ∀ t m, (s.connection.withdraw token).pending.get? t = some m →
      s.connection.pending.get? t = some m ∧ m ≠ n := by
    intro t m hm
    rw [Connection.withdraw, Token.Store.get?_erase, Option.ite_none_left_eq_some] at hm
    refine ⟨hm.2, ?_⟩
    rintro rfl
    obtain ⟨u, hu, howns⟩ := h.owner t m hm.2
    rw [before] at howns
    obtain rfl : token = u := howns
    exact hm.1 hu.symm
  refine ⟨h.shut, fun t m hm => ?_, fun hs hk t m hm => ?_, fun m u hm => ?_⟩
  · obtain ⟨hm, hmn⟩ := hold t m hm
    change ∃ u : UInt32, _ ∧ ((s.reach n (.returned (.error .notConnected))).stage m).Owns u
    rw [reach_stage_of_ne hmn]
    exact h.owner t m hm
  · obtain ⟨hm, hmn⟩ := hold t m hm
    change ((s.reach n (.returned (.error .notConnected))).stage m).Leaving
    rw [reach_stage_of_ne hmn]
    exact h.leaving hs hk t m hm
  · have hm : ((s.reach n (.returned (.error .notConnected))).stage m).Owns u := hm
    have hmn : m ≠ n := by
      rintro rfl
      rw [reach_stage_self] at hm
      exact hm
    rw [reach_stage_of_ne hmn] at hm
    simp only [Connection.withdraw, Token.Store.get?_erase, List.mem_append, Option.mem_toList]
    rcases h.found m u hm with ⟨t, ht⟩ | hhanded | hdropped
    · by_cases heq : t = token.toNat
      · exact .inr (.inr (.inr (heq ▸ ht)))
      · exact .inl ⟨t, by rw [if_neg heq, ht]⟩
    · exact .inr (.inl hhanded)
    · exact .inr (.inr (.inl hdropped))

theorem Accounted.advance (h : s.Accounted) (n : Nat) : (s.advance n).Accounted := by
  have hadvances := s.advances n
  generalize s.advance n = later at hadvances ⊢
  cases hadvances with
  | plain hp => exact h.plain hp
  | kept before fresh get? => exact h.kept before fresh get?
  | queued before attended pending state still => exact h.queued before pending state _
  | withdrew before => exact h.withdrew before

theorem Accounted.receive (h : s.Accounted) (bytes : Bytes) : (s.receive bytes).Accounted := by
  cases hr : Frame.reply? bytes with
  | none =>
    have hclosed := Connection.receive_state s.connection bytes
    rw [receive_of_other hr]
    exact h.wanes (Connection.wanes_receive hr) (fun hk => hclosed ▸ h.shut hk)
      fun hc hk => ⟨hclosed ▸ hc, hk⟩
  | some a =>
    rcases receive_of_reply (s := s) hr with ⟨m, hm, heq⟩ | ⟨-, heq⟩
    · rw [heq]
      have hold : ∀ t n, (s.connection.pending.erase a.1.toNat).get? t = some n →
          s.connection.pending.get? t = some n := by
        intro t n hn
        rw [Token.Store.get?_erase, Option.ite_none_left_eq_some] at hn
        exact hn.2
      refine ⟨h.shut, fun t n hn => h.owner t n (hold t n hn),
        fun hs hk t n hn => h.leaving hs hk t n (hold t n hn), fun n token howns => ?_⟩
      simp only [Token.Store.get?_erase, List.map_append, List.mem_append, List.map_cons,
        List.map_nil, List.mem_singleton]
      rcases h.found n token howns with ⟨t, ht⟩ | hhanded | hdropped
      · by_cases heq : t = a.1.toNat
        · subst t
          exact .inr (.inl (.inr (Option.some.inj (ht.symm.trans hm))))
        · exact .inl ⟨t, by rw [if_neg heq, ht]⟩
      · exact .inr (.inl (.inl hhanded))
      · exact .inr (.inr hdropped)
    · rw [heq]
      exact ⟨h.shut, h.owner, h.leaving, h.found⟩

theorem mem_drain {c : Connection Nat ι κ} {t n : Nat} (h : c.pending.get? t = some n) :
    n ∈ c.drain.1 :=
  List.mem_map.2 ⟨(t, n), List.mem_reverse.2 (Token.Store.get?_eq_some_iff.1 h), rfl⟩

theorem Accounted.step (h : s.Accounted) (e : Event) : (s.step e).Accounted := by
  cases e with
  | advance n => exact h.advance n
  | shut => exact h.wanes s.connection.wanes_shut (fun _ => rfl) (by simp)
  | drain =>
    simp only [Race.step]
    split_ifs with hk
    · exact h
    · have hnone : ∀ t n, s.connection.drain.2.pending.get? t ≠ some n := by
        simp [Connection.drain, Token.Store.drain]
      refine ⟨fun _ => h.shut hk, fun t n hn => absurd hn (hnone t n),
        fun _ _ t n hn => absurd hn (hnone t n), fun n token howns => ?_⟩
      rcases h.found n token howns with ⟨t, ht⟩ | hhanded | hdropped
      · exact .inr (.inr (List.mem_append_right _ (mem_drain ht)))
      · exact .inr (.inl hhanded)
      · exact .inr (.inr (List.mem_append_left _ hdropped))
  | close =>
    have hclosed := s.connection.close_eq_closed_iff
    exact h.wanes s.connection.wanes_close (fun hk => hclosed.2 (h.shut hk))
      fun hc hk => ⟨hclosed.1 hc, hk⟩
  | markClosing =>
    have hclosed := s.connection.markClosing_eq_closed_iff
    exact h.wanes s.connection.wanes_markClosing (fun hk => hclosed.2 (h.shut hk))
      fun hc hk => ⟨hclosed.1 hc, hk⟩
  | abandon => exact h.wanes s.connection.wanes_abandon h.shut fun hc hk => ⟨hc, hk⟩
  | frame bytes => exact h.receive bytes

def Settled (s : Race ι κ) : Prop :=
  ∀ n, s.stage n = .begun ∨ ∃ result, s.stage n = .returned result

theorem Accounted.isEmpty (h : s.Accounted) (hsettled : s.Settled)
    (hclosed : s.connection.state = .closed) (hshut : s.shutting = 0) :
    s.connection.pending.isEmpty = true := by
  rw [Token.Store.isEmpty_iff]
  intro t
  cases hget : s.connection.pending.get? t with
  | none => rfl
  | some n =>
    have hleaving := h.leaving hclosed hshut t n hget
    rcases hsettled n with hn | ⟨result, hn⟩
    · rw [hn] at hleaving
      exact hleaving.elim
    · rw [hn] at hleaving
      exact hleaving.elim

theorem awaited_isSome {ran : List (Nat × Reply)} {dropped : List Nat}
    (h : n ∈ ran.map (·.1) ∨ n ∈ dropped) : (Reply.awaited ran dropped n).isSome := by
  unfold Reply.awaited
  cases hfind : ran.find? (·.1 == n) with
  | some p => rfl
  | none =>
    have hnot : n ∉ ran.map (·.1) := by
      intro hmem
      obtain ⟨p, hp, hpn⟩ := List.mem_map.1 hmem
      exact List.find?_eq_none.1 hfind p hp (by simpa using hpn)
    simp [h.resolve_left hnot]

theorem Accounted.callEnd (h : s.Accounted) (hempty : s.connection.pending.isEmpty = true)
    {result : Except Error UInt32} (hn : s.stage n = .returned result) :
    (s.callEnd n).isSome := by
  unfold Race.callEnd
  rw [hn]
  cases result with
  | error e => rfl
  | ok token =>
    have howns : (s.stage n).Owns token := by
      rw [hn]
      rfl
    rcases h.found n token howns with ⟨t, ht⟩ | hgone
    · rw [Token.Store.isEmpty_iff.1 hempty t] at ht
      simp at ht
    · exact awaited_isSome hgone

end Race
end Parley
