import Mathlib
import Parley.Proofs.Trust.Policy
import Parley.Trust.Decision

/-!
# The decision fails closed

The failure of a path check is always pinned to a certificate of the chain that is judged, so it
always counts. It can be overruled at that certificate only, and only by the predicate.
-/

namespace Parley.Trust

def readable (presented : List Bytes) : Bool :=
  presented.all fun der => (Certificate.read der).toOption.isSome

theorem mapM_option {α β : Type} (f : α → Option β) (l : List α) :
    l.mapM f = if l.all fun a => (f a).isSome then some (l.filterMap f) else none := by
  induction l with
  | nil => rfl
  | cons a rest ih =>
    rw [List.mapM_cons, ih]
    cases h : f a with
    | none => simp [h]
    | some b =>
      simp only [List.all_cons, h, Option.isSome_some, Bool.true_and, Option.bind_eq_bind,
        Option.bind_some, List.filterMap_cons]
      split_ifs <;> rfl

theorem presentedChain_error {anchors : List Certificate} {presented : List Bytes}
    (h : readable presented = false) :
    presentedChain anchors presented = .error (.certificate .badEncoding) := by
  have hread : presented.mapM (fun der => (Certificate.read der).toOption) = none := by
    rw [mapM_option, if_neg]
    rw [readable] at h
    simp only [h, Bool.false_eq_true, not_false_eq_true]
  simp only [presentedChain, hread]

theorem forall₂_of_mapM {α β : Type} {f : α → Option β} {l : List α} {k : List β}
    (h : l.mapM f = some k) : List.Forall₂ (fun a b => f a = some b) l k := by
  induction l generalizing k with
  | nil =>
    obtain rfl : [] = k := Option.some.inj h
    exact .nil
  | cons a rest ih =>
    rw [List.mapM_cons] at h
    obtain ⟨b, hb, h⟩ := Option.bind_eq_some_iff.1 h
    obtain ⟨bs, hbs, h⟩ := Option.bind_eq_some_iff.1 h
    obtain rfl : b :: bs = k := Option.some.inj h
    exact .cons hb (ih hbs)

theorem toOption_eq_some_iff {ε α : Type} {x : Except ε α} {a : α} :
    x.toOption = some a ↔ x = .ok a := by
  cases x with
  | error e => simp [Except.toOption]
  | ok b => simp [Except.toOption]

theorem presentedChain_of_readable {presented : List Bytes} (h : readable presented = true) :
    ∃ front, List.Forall₂ (fun der c => Certificate.read der = .ok c) presented front ∧
      ∀ anchors, presentedChain anchors presented =
        .ok (front ++ (completing? anchors front).toList) := by
  have hread := mapM_option (fun der => (Certificate.read der).toOption) presented
  rw [readable] at h
  rw [if_pos h] at hread
  refine ⟨_, ?_, fun anchors => by rw [presentedChain, hread]⟩
  exact (forall₂_of_mapM hread).imp fun _ _ => toOption_eq_some_iff.1

theorem presentedChain_ok (anchors : List Certificate) {presented : List Bytes}
    (h : readable presented = true) :
    ∃ chain, presentedChain anchors presented = .ok chain ∧ presented.length ≤ chain.length := by
  obtain ⟨front, hfront, hchain⟩ := presentedChain_of_readable h
  refine ⟨_, hchain anchors, ?_⟩
  rw [List.length_append, hfront.length_eq]
  exact Nat.le_add_right _ _

theorem deepestInvalid?_lt {chain : List Certificate} {now : Moment} {depth : Nat}
    (h : deepestInvalid? chain now = some depth) : depth < chain.length := by
  obtain ⟨⟨c, d⟩, hfind, rfl⟩ := Option.map_eq_some_iff.1 h
  have hmem := List.mem_reverse.1 (List.mem_of_find?_eq_some hfind)
  exact (List.mem_zipIdx' hmem).1

theorem locate_depth_lt (e : Tls.HandshakeError) {chain : List Certificate} {presented : Nat}
    (now : Moment) (hpos : 0 < presented) (hle : presented ≤ chain.length) :
    (Failure.locate e chain presented now).depth < chain.length := by
  have hleaf : 0 < chain.length := hpos.trans_le hle
  have hdate : (deepestInvalid? chain now).getD 0 < chain.length := by
    cases h : deepestInvalid? chain now with
    | none => exact hleaf
    | some depth => exact deepestInvalid?_lt h
  unfold Failure.locate
  split
  · simp only
    omega
  all_goals first | exact hdate | exact hleaf

variable {anchors chain : List Certificate} {leaf : Bytes} {intermediates : List Bytes}

theorem decide_of_failure {m : Type → Type} [Monad m] {policy : Policy m} (e : Tls.HandshakeError)
    (clock : Moment) (now : Nat)
    (h : presentedChain anchors (leaf :: intermediates) = .ok chain) :
    decide anchors policy leaf intermediates (.error e) clock now = do
      let time := policyTime clock now
      let failure := Failure.locate e chain (intermediates.length + 1) time
      let verdicts ← policy.evaluate chain (some failure) time
      if accepted verdicts then return ⟨.ok (), verdicts⟩
      return ⟨.error e, verdicts⟩ := by
  simp only [decide, h]

theorem decide_without {m : Type → Type} [Monad m] [LawfulMonad m] (anchors : List Certificate)
    (hostname : Option String) (leaf : Bytes) (intermediates : List Bytes)
    (e : Tls.HandshakeError) (clock : Moment) (now : Nat) :
    ∃ verdicts,
      decide anchors (⟨hostname, none⟩ : Policy m) leaf intermediates (.error e) clock now =
        pure ⟨.error (if readable (leaf :: intermediates) then e else .certificate .badEncoding),
          verdicts⟩ := by
  cases hread : readable (leaf :: intermediates) with
  | false =>
    refine ⟨[], ?_⟩
    simp only [decide, presentedChain_error hread, Bool.false_eq_true, if_false]
  | true =>
    obtain ⟨chain, hchain, hlen⟩ := presentedChain_ok anchors hread
    have hlt := locate_depth_lt e (policyTime clock now) (Nat.succ_pos intermediates.length) hlen
    rw [decide_of_failure e clock now hchain]
    simp only [Policy.evaluate_without, pure_bind, Policy.refused_at_failure hlt,
      Bool.false_eq_true, if_false, if_true]
    exact ⟨_, rfl⟩

theorem decide_run {σ : Type} {policy : Policy (StateM σ)} (e : Tls.HandshakeError) (clock : Moment)
    (now : Nat) (h : presentedChain anchors (leaf :: intermediates) = .ok chain) (memory : σ) :
    let time := policyTime clock now
    let v := (policy.evaluate chain
      (some (Failure.locate e chain (intermediates.length + 1) time)) time).run memory
    (decide anchors policy leaf intermediates (.error e) clock now).run memory =
      (⟨if accepted v.1 then .ok () else .error e, v.1⟩, v.2) := by
  intro time v
  rw [decide_of_failure e clock now h, StateT.run_bind]
  change StateT.run (if accepted v.1 then _ else _) v.2 = _
  cases accepted v.1 <;> rfl

theorem decide_recorded {σ : Type} (anchors : List Certificate) (hostname : Option String)
    (leaf : Bytes) (intermediates : List Bytes) (e : Tls.HandshakeError) (clock : Moment)
    (now : Nat) (ask : Bool → Certificate → StateM σ Bool) (memory : σ) :
    let r := (decide anchors ⟨hostname, some ask⟩ leaf intermediates (.error e) clock
      now).run memory
    ∃ record, (decide anchors ⟨hostname, some (recorded ask)⟩ leaf intermediates (.error e) clock
        now).run (memory, []) = (r.1, r.2, record) ∧
      (r.1.result = .ok () →
        ∃ chain c, presentedChain anchors (leaf :: intermediates) = .ok chain ∧
          let depth :=
            (Failure.locate e chain (intermediates.length + 1) (policyTime clock now)).depth
          chain[depth]? = some c ∧ record[chain.length - 1 - depth]? = some ⟨false, c, true⟩) := by
  cases hread : readable (leaf :: intermediates) with
  | false =>
    refine ⟨[], ?_, fun hok => ?_⟩
    · simp only [decide, presentedChain_error hread]
      rfl
    · simp only [decide, presentedChain_error hread] at hok
      exact absurd hok (by simp)
  | true =>
    obtain ⟨chain, hchain, hlen⟩ := presentedChain_ok anchors hread
    have hlt := locate_depth_lt e (policyTime clock now) (Nat.succ_pos intermediates.length) hlen
    obtain ⟨record, hsame, hasked⟩ :=
      Policy.asked_at_failure hostname (policyTime clock now) ask hlt memory
    rw [decide_run e clock now hchain, decide_run e clock now hchain, hsame]
    refine ⟨record, rfl, fun hok => ⟨chain, _, hchain, List.getElem?_eq_getElem hlt, hasked ?_⟩⟩
    by_contra hno
    rw [if_neg hno] at hok
    simp at hok

/-- A failure of the path check stands. Without a predicate the decision is the failure itself, or
that a certificate cannot be read. With a predicate, even one with memory, the peer is accepted only
if the predicate was asked about the certificate that the failure is pinned to, in its turn, heard
that it did not pass, and said yes. -/
theorem decide_fails_closed (anchors : List Certificate) (hostname : Option String) (leaf : Bytes)
    (intermediates : List Bytes) (e : Tls.HandshakeError) (clock : Moment) (now : Nat) :
    (∀ {m : Type → Type} [Monad m] [LawfulMonad m], ∃ verdicts,
      decide anchors (⟨hostname, none⟩ : Policy m) leaf intermediates (.error e) clock now =
        pure ⟨.error (if readable (leaf :: intermediates) then e else .certificate .badEncoding),
          verdicts⟩) ∧
    ∀ {σ : Type} (ask : Bool → Certificate → StateM σ Bool) (memory : σ),
      let r := (decide anchors ⟨hostname, some ask⟩ leaf intermediates (.error e) clock
        now).run memory
      ∃ record, (decide anchors ⟨hostname, some (recorded ask)⟩ leaf intermediates (.error e) clock
          now).run (memory, []) = (r.1, r.2, record) ∧
        (r.1.result = .ok () →
          ∃ chain c, presentedChain anchors (leaf :: intermediates) = .ok chain ∧
            let depth :=
              (Failure.locate e chain (intermediates.length + 1) (policyTime clock now)).depth
            chain[depth]? = some c ∧ record[chain.length - 1 - depth]? = some ⟨false, c, true⟩) :=
  ⟨decide_without anchors hostname leaf intermediates e clock now,
    decide_recorded anchors hostname leaf intermediates e clock now⟩

def bare : Bytes :=
  let algorithm := Asn1.Element.encodeSequence [Asn1.Element.encode 6 [42]]
  let time := Asn1.Element.encode 23 (Bytes.ofString "000101000000Z")
  let bits := Asn1.Element.encode 3 [0]
  Asn1.Element.encodeSequence
    [Asn1.Element.encodeSequence
      [Asn1.Element.encode 2 [1], algorithm, Asn1.Element.encodeSequence [],
        Asn1.Element.encodeSequence [time, time], Asn1.Element.encodeSequence [],
        Asn1.Element.encodeSequence [algorithm, bits]],
      algorithm, bits]

theorem decide_fails_closed_bare :
    let ask : Bool → Certificate → StateM Unit Bool := fun _ _ => pure true
    (∃ verdicts, decide [] (⟨none, none⟩ : Policy Id) bare [] (.error .decrypt) ⟨0, 0⟩ 0 =
      pure ⟨.error .decrypt, verdicts⟩) ∧
    ((decide [] ⟨none, some ask⟩ bare [] (.error .decrypt) ⟨0, 0⟩ 0).run ()).1.result = .ok () ∧
    ∃ record chain c, ((decide [] ⟨none, some (recorded ask)⟩ bare [] (.error .decrypt) ⟨0, 0⟩
        0).run ((), [])).2.2 = record ∧ presentedChain [] [bare] = .ok chain ∧
      chain[0]? = some c ∧ record[chain.length - 1]? = some ⟨false, c, true⟩ := by
  intro ask
  obtain ⟨hwithout, hwith⟩ := decide_fails_closed [] none bare [] .decrypt ⟨0, 0⟩ 0
  have hread : readable [bare] = true := by decide +kernel
  have hok : ((decide [] ⟨none, some ask⟩ bare [] (.error .decrypt) ⟨0, 0⟩ 0).run ()).1.result =
      .ok () := by
    decide +kernel
  obtain ⟨record, hrecord, hasked⟩ := hwith ask ()
  obtain ⟨chain, c, hchain, hc, hanswer⟩ := hasked hok
  rw [hread] at hwithout
  exact ⟨hwithout, hok, record, chain, c, by rw [hrecord], hchain, hc, hanswer⟩

end Parley.Trust
