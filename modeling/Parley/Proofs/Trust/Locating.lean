import Mathlib
import Parley.Proofs.Trust.Acceptance
import Parley.Proofs.Trust.Decision

/-!
# Where a failure is pinned

An error of the path check is pinned to one certificate of the chain. The peer answers for an
unknown issuer with the last certificate that it sent, so an anchor behind that is never to blame. A
date is looked for from the deep end, and everything else is the leaf's.
-/

namespace Parley

def Certificate.InWindow (c : Certificate) (now : Moment) : Prop :=
  c.notBefore.moment.before now ∧ now.before c.notAfter.moment

theorem Certificate.inWindow_iff {c : Certificate} {now : Moment} :
    c.InWindow now ↔ c.isValidAt now = true :=
  Certificate.isValidAt_iff.symm

namespace Trust
variable {chain : List Certificate} {now : Moment} {e : Tls.HandshakeError} {presented : Nat}

structure DeepestOutside (chain : List Certificate) (now : Moment) (depth : Nat) : Prop where
  outside : ∃ c, chain[depth]? = some c ∧ ¬ c.InWindow now
  deeper : ∀ i c, depth < i → chain[i]? = some c → c.InWindow now

theorem deepestInvalid?_concat (chain : List Certificate) (c : Certificate) (now : Moment) :
    deepestInvalid? (chain ++ [c]) now =
      if c.isValidAt now then deepestInvalid? chain now else some chain.length := by
  simp only [deepestInvalid?, List.zipIdx_append, List.reverse_append]
  cases h : c.isValidAt now with
  | true => simp [h]
  | false => simp [h]

theorem DeepestOutside.concat {depth : Nat} {c : Certificate}
    (h : DeepestOutside chain now depth) (hc : c.InWindow now) :
    DeepestOutside (chain ++ [c]) now depth := by
  obtain ⟨d, hd, hout⟩ := h.outside
  have hlt : depth < chain.length := (List.getElem?_eq_some_iff.1 hd).1
  constructor
  · exact ⟨d, (List.getElem?_append_left hlt).trans hd, hout⟩
  · intro i a hi ha
    rcases Nat.lt_or_ge i chain.length with hin | hlast
    · apply h.deeper i a hi
      rwa [List.getElem?_append_left hin] at ha
    · rw [List.getElem?_append_right hlast, List.getElem?_singleton] at ha
      split_ifs at ha
      rwa [← Option.some.inj ha]

theorem deepestInvalid?_spec (chain : List Certificate) (now : Moment) :
    (∃ depth, deepestInvalid? chain now = some depth ∧ DeepestOutside chain now depth) ∨
      deepestInvalid? chain now = none ∧ ∀ c ∈ chain, c.InWindow now := by
  induction chain using List.reverseRecOn with
  | nil => exact .inr ⟨rfl, nofun⟩
  | append_singleton chain c ih =>
    rw [deepestInvalid?_concat]
    by_cases hc : c.isValidAt now = true
    · rw [if_pos hc]
      have hin : c.InWindow now := Certificate.inWindow_iff.2 hc
      rcases ih with ⟨depth, hsome, hdepth⟩ | ⟨hnone, hall⟩
      · exact .inl ⟨depth, hsome, hdepth.concat hin⟩
      · refine .inr ⟨hnone, fun a ha => ?_⟩
        rcases List.mem_append.1 ha with ha | ha
        · exact hall a ha
        · rwa [List.mem_singleton.1 ha]
    · rw [if_neg hc]
      refine .inl ⟨chain.length, rfl, ⟨c, by simp, mt Certificate.inWindow_iff.1 hc⟩, ?_⟩
      intro i a hi ha
      have hlt := (List.getElem?_eq_some_iff.1 ha).1
      simp only [List.length_append, List.length_singleton] at hlt
      omega

inductive OfDates : Tls.HandshakeError → Prop
  | expired : OfDates (.certificate .expired)
  | expiredAt (time notAfter : Nat) : OfDates (.certificate (.expiredAt time notAfter))
  | notValidYet : OfDates (.certificate .notValidYet)
  | notValidYetAt (time notBefore : Nat) : OfDates (.certificate (.notValidYetAt time notBefore))

theorem locate_unknownIssuer (chain : List Certificate) (presented : Nat) (now : Moment) :
    Failure.locate (.certificate .unknownIssuer) chain presented now =
      ⟨Tls.HandshakeError.message (.certificate .unknownIssuer), true, presented - 1⟩ :=
  rfl

theorem locate_of_dates (h : OfDates e) :
    Failure.locate e chain presented now =
      ⟨e.message, false, (deepestInvalid? chain now).getD 0⟩ := by
  cases h with
  | expired => rfl
  | expiredAt time notAfter => rfl
  | notValidYet => rfl
  | notValidYetAt time notBefore => rfl

theorem locate_of_other (hissuer : e ≠ .certificate .unknownIssuer) (hdates : ¬ OfDates e) :
    Failure.locate e chain presented now = ⟨e.message, false, 0⟩ := by
  unfold Failure.locate
  split
  · exact absurd rfl hissuer
  · exact absurd .expired hdates
  · exact absurd (.expiredAt _ _) hdates
  · exact absurd .notValidYet hdates
  · exact absurd (.notValidYetAt _ _) hdates
  · rfl

theorem locate_reason : (Failure.locate e chain presented now).reason = e.message := by
  unfold Failure.locate
  split
  all_goals rfl

theorem locate_unknownIssuer_iff :
    (Failure.locate e chain presented now).unknownIssuer = true ↔
      e = .certificate .unknownIssuer := by
  by_cases hissuer : e = .certificate .unknownIssuer
  · rw [hissuer, locate_unknownIssuer]
    exact iff_of_true rfl rfl
  by_cases hdates : OfDates e
  · rw [locate_of_dates hdates]
    exact iff_of_false Bool.false_ne_true hissuer
  · rw [locate_of_other hissuer hdates]
    exact iff_of_false Bool.false_ne_true hissuer

/-- An error is pinned to a certificate of the chain. An unknown issuer, and nothing else, counts as
one, and is pinned to the last certificate that was presented; a date to the deepest certificate
that is outside its window, or the leaf if there is none; any other error to the leaf. -/
theorem locate_attributes (e : Tls.HandshakeError) (chain : List Certificate) (presented : Nat)
    (now : Moment) (hpos : 0 < presented) (hle : presented ≤ chain.length) :
    let f := Failure.locate e chain presented now
    f.depth < chain.length ∧ f.reason = e.message ∧
      (f.unknownIssuer = true ↔ e = .certificate .unknownIssuer) ∧
      (e = .certificate .unknownIssuer → f.depth = presented - 1) ∧
      (OfDates e → DeepestOutside chain now f.depth ∨
        f.depth = 0 ∧ ∀ c ∈ chain, c.InWindow now) ∧
      (e ≠ .certificate .unknownIssuer → ¬ OfDates e → f.depth = 0) := by
  intro f
  refine ⟨locate_depth_lt e now hpos hle, locate_reason, locate_unknownIssuer_iff, ?_, ?_, ?_⟩
  · intro hissuer
    simp only [f, hissuer, locate_unknownIssuer]
  · intro hdates
    simp only [f, locate_of_dates hdates]
    rcases deepestInvalid?_spec chain now with ⟨depth, hsome, hdepth⟩ | ⟨hnone, hall⟩
    · rw [hsome]
      exact .inl hdepth
    · rw [hnone]
      exact .inr ⟨rfl, hall⟩
  · intro hissuer hdates
    simp only [f, locate_of_other hissuer hdates]

theorem locate_attributes_anchored :
    let start : CivilTime := { year := 2000, month := 1, day := 1, hour := 0, minute := 0 }
    let anchor : Certificate :=
      ⟨⟨[⟨"CN", "Root"⟩]⟩, ⟨[⟨"CN", "Root"⟩]⟩, start, { start with year := 2090 }, []⟩
    let expired := { anchor with notAfter := { start with year := 2001 } }
    let chain := [expired, expired, anchor]
    let now : Moment := ⟨1735689600, 0⟩
    let located (e : Tls.HandshakeError) := Failure.locate e chain 2 now
    0 < 2 ∧ 2 ≤ chain.length ∧ (located (.certificate .unknownIssuer)).depth = 1 ∧
      DeepestOutside chain now (located (.certificate (.expiredAt 1735689600 978307200))).depth ∧
      (located .decrypt).depth = 0 := by
  intro start anchor expired chain now located
  have hle : 2 ≤ chain.length := by decide
  have hlocated (e : Tls.HandshakeError) := locate_attributes e chain 2 now (by decide) hle
  obtain ⟨-, -, -, hissuer, -⟩ := hlocated (.certificate .unknownIssuer)
  obtain ⟨-, -, -, -, hdates, -⟩ := hlocated (.certificate (.expiredAt 1735689600 978307200))
  obtain ⟨-, -, -, -, -, hother⟩ := hlocated .decrypt
  refine ⟨by decide, hle, hissuer rfl, ?_, hother (by decide) nofun⟩
  rcases hdates (.expiredAt _ _) with hdeepest | ⟨-, hall⟩
  · exact hdeepest
  · have hin := hall expired (List.mem_cons_self ..)
    exact absurd hin.2 (by decide)

end Trust
end Parley
