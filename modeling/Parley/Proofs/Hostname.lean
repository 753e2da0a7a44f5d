import Mathlib
import Parley.Hostname

/-!
# Patterns for host names

A pattern stands for a host label by label and in no other way. Whole names that agree up to ASCII
case have labels that do, so the comparison of whole names adds nothing to that of the labels.
-/

namespace Parley.Hostname

def Alike : List Char → List Char → Prop :=
  List.Forall₂ fun c d => c.beqCaseInsensitiveAsciiOnly d = true

theorem forall₂_eq_iff {α β : Type} {f : α → β} {l k : List α} :
    List.Forall₂ (fun a b => f a = f b) l k ↔ l.map f = k.map f := by
  rw [← List.forall₂_eq_eq_eq, List.forall₂_map_left_iff, List.forall₂_map_right_iff]

theorem alike_iff {a b : List Char} : Alike a b ↔ a.map fold = b.map fold := by
  simp only [Alike, Char.beqCaseInsensitiveAsciiOnly, beq_iff_eq]
  exact forall₂_eq_iff

theorem alike_eq : Alike = fun a b => a.map fold = b.map fold :=
  funext₂ fun _ _ => propext alike_iff

theorem same_iff {a b : List Char} : same a b = true ↔ Alike a b := by
  rw [alike_iff, same, beq_iff_eq]

theorem fold_comp_fold : fold ∘ fold = fold := funext Char.toLower_toLower_eq_toLower

theorem fold_eq_iff {c d : Char} (hd : d.isAlpha = false) : fold c = d ↔ c = d := by
  have hkeep : ∀ {e : Char}, e.isAlpha = false → fold e = e := fun he =>
    Char.toLower_eq_of_not_isUpper fun hupper => by simp [Char.isAlpha, hupper] at he
  constructor
  · intro h
    have hc : c.isAlpha = false := by rw [← Char.isAlpha_toLower_eq_isAlpha, ← hd, ← h, fold]
    rw [← hkeep hc, h]
  · rintro rfl
    exact hkeep hd

theorem labels_eq_splitOn (s : List Char) : labels s = s.splitOn '.' := by
  induction s with
  | nil => rfl
  | cons c rest ih => simp only [labels, List.splitOn_cons_eq_if_modifyHead, ih, beq_iff_eq]

theorem labels_injective : Function.Injective labels := by
  intro a b h
  have hjoined := congrArg ['.'].intercalate h
  simpa only [labels_eq_splitOn, List.intercalate_splitOn] using hjoined

theorem labels_map_fold (s : List Char) : labels (s.map fold) = (labels s).map (·.map fold) := by
  induction s with
  | nil => rfl
  | cons c rest ih =>
    rw [List.map_cons, labels, labels, ih]
    by_cases hc : c = '.'
    · rw [if_pos hc, if_pos ((fold_eq_iff (by decide)).2 hc), List.map_cons, List.map_nil]
    · rw [if_neg hc, if_neg (mt (fold_eq_iff (by decide)).1 hc)]
      cases labels rest with
      | nil => rfl
      | cons first others => rfl

theorem alike_iff_labels {a b : List Char} :
    Alike a b ↔ List.Forall₂ Alike (labels a) (labels b) := by
  rw [alike_eq, forall₂_eq_iff, ← labels_map_fold, ← labels_map_fold, labels_injective.eq_iff]

/-- Whether a label of a pattern stands for a label of a host. -/
def Covers (host pattern : List Char) : Prop := pattern = ['*'] ∧ host ≠ [] ∨ Alike host pattern

theorem labelMatches_iff {host pattern : List Char} :
    labelMatches host pattern = true ↔ Covers host pattern := by
  simp [labelMatches, Covers, same_iff]

theorem covers_map_fold_iff {host pattern : List Char} :
    Covers (host.map fold) (pattern.map fold) ↔ Covers host pattern := by
  have hstar : pattern.map fold = ['*'] ↔ pattern = ['*'] := by
    simp [List.map_eq_cons_iff, fold_eq_iff]
  simp [Covers, alike_iff, hstar, fold_comp_fold]

def labelwise (host pattern : List Char) : Bool :=
  (labels host).length == (labels pattern).length &&
    ((labels host).zip (labels pattern)).all fun (a, b) => labelMatches a b

theorem labelwise_iff {host pattern : List Char} :
    labelwise host pattern = true ↔ List.Forall₂ Covers (labels host) (labels pattern) := by
  simp [labelwise, List.forall₂_iff_zip, labelMatches_iff]

theorem labelwise_of_alike {host pattern : List Char} (h : Alike host pattern) :
    labelwise host pattern = true :=
  labelwise_iff.2 ((alike_iff_labels.1 h).imp fun _ _ => .inr)

theorem matchesName_eq_labelwise (host pattern : String) :
    matchesName host pattern = labelwise host.toList pattern.toList := by
  rw [Bool.eq_iff_iff]
  refine Iff.trans Bool.or_eq_true_iff ⟨?_, .inr⟩
  rintro (h | h)
  · exact labelwise_of_alike (same_iff.1 h)
  · exact h

theorem labelwise_iff_of_notMem {host pattern : List Char} (h : ['*'] ∉ labels pattern) :
    labelwise host pattern = true ↔ Alike host pattern := by
  refine ⟨fun hmatch => alike_iff_labels.2 ?_, labelwise_of_alike⟩
  obtain ⟨hlen, hall⟩ := List.forall₂_iff_zip.1 (labelwise_iff.1 hmatch)
  refine List.forall₂_iff_zip.2 ⟨hlen, fun {a b} hab => (hall hab).resolve_left ?_⟩
  rintro ⟨rfl, -⟩
  exact h (List.of_mem_zip hab).2

theorem labelwise_map_fold (host pattern : List Char) :
    labelwise (host.map fold) (pattern.map fold) = labelwise host pattern := by
  rw [Bool.eq_iff_iff, labelwise_iff, labelwise_iff, labels_map_fold, labels_map_fold,
    List.forall₂_map_left_iff, List.forall₂_map_right_iff]
  simp only [covers_map_fold_iff]

theorem labelwise_congr {host host' pattern pattern' : List Char} (hhost : Alike host host')
    (hpattern : Alike pattern pattern') : labelwise host' pattern' = labelwise host pattern := by
  rw [← labelwise_map_fold host', ← labelwise_map_fold host, ← alike_iff.1 hhost,
    ← alike_iff.1 hpattern]

/-- A pattern stands for a host exactly when both have equally many labels between their dots and
each label of the pattern is a star over a label that is not empty, or the host's label up to ASCII
case. Looking at the whole names first makes no difference; without a star they have to agree up to
case, and case never makes a difference. -/
theorem matchesName_labelwise (host pattern : String) :
    (matchesName host pattern = true ↔
      List.Forall₂ Covers (host.toList.splitOn '.') (pattern.toList.splitOn '.')) ∧
    matchesName host pattern = labelwise host.toList pattern.toList ∧
    (matchesName host pattern = true →
      (host.toList.splitOn '.').length = (pattern.toList.splitOn '.').length) ∧
    (['*'] ∉ pattern.toList.splitOn '.' →
      (matchesName host pattern = true ↔ Alike host.toList pattern.toList)) ∧
    ∀ host' pattern' : String, Alike host.toList host'.toList →
      Alike pattern.toList pattern'.toList →
        matchesName host' pattern' = matchesName host pattern := by
  have hcovers : matchesName host pattern = true ↔
      List.Forall₂ Covers (labels host.toList) (labels pattern.toList) := by
    rw [matchesName_eq_labelwise, labelwise_iff]
  simp only [← labels_eq_splitOn]
  refine ⟨hcovers, matchesName_eq_labelwise host pattern, fun h => (hcovers.1 h).length_eq,
    fun hstar => ?_, fun host' pattern' hhost hpattern => ?_⟩
  · rw [matchesName_eq_labelwise, labelwise_iff_of_notMem hstar]
  · rw [matchesName_eq_labelwise, matchesName_eq_labelwise, labelwise_congr hhost hpattern]

theorem matchesName_labelwise_dotted :
    List.Forall₂ Covers (".Mail..é".toList.splitOn '.') (".*..é".toList.splitOn '.') ∧
      matchesName ".Mail..é" ".*..é" = true ∧
    (['*'] ∉ ".mAIL.".toList.splitOn '.' ∧ Alike ".Mail.".toList ".mAIL.".toList ∧
      matchesName ".Mail." ".mAIL." = true) ∧
    Alike ".Mail..é".toList ".MAIL..é".toList ∧ matchesName ".MAIL..é" ".*..é" = true := by
  have hcovers : List.Forall₂ Covers (".Mail..é".toList.splitOn '.') (".*..é".toList.splitOn '.') :=
    (matchesName_labelwise _ _).1.1 (by decide)
  have hstar : matchesName ".Mail..é" ".*..é" = true := (matchesName_labelwise _ _).1.2 hcovers
  have hnone : ['*'] ∉ ".mAIL.".toList.splitOn '.' := by decide
  have halike : Alike ".Mail.".toList ".mAIL.".toList := alike_iff.2 (by decide)
  have hcapitals : Alike ".Mail..é".toList ".MAIL..é".toList := alike_iff.2 (by decide)
  refine ⟨hcovers, hstar, ⟨hnone, halike, ?_⟩, hcapitals, ?_⟩
  · exact ((matchesName_labelwise ".Mail." ".mAIL.").2.2.2.1 hnone).2 halike
  · have hsame := (matchesName_labelwise ".Mail..é" ".*..é").2.2.2.2 ".MAIL..é" ".*..é" hcapitals
      (alike_iff.2 rfl)
    exact hsame.trans hstar

end Parley.Hostname
