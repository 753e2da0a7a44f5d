import Mathlib
import Parley.Proofs.Target.Host
import Parley.WebSocket.Upgrade

/-!
# Targets from printed URIs

A target is read again from its printed URI, as a client's handshake does it. The slash that stands
for an empty path adds an octet, for which a text of the greatest length has no room.
-/

namespace Parley

namespace Uri
open String (utf8Len)
variable {s : String} {front fragment : List Char} {u : Uri}

theorem utf8Size_toLower (c : Char) : c.toLower.utf8Size = c.utf8Size := by
  have hone : ∀ d : Char, d.val.toNat ≤ 127 → d.utf8Size = 1 := fun d hd =>
    Char.utf8Size_eq_one_iff.2 (UInt32.le_iff_toNat_le.2 hd)
  rw [Char.toLower]
  split
  case isTrue h =>
    have hlow : 65 ≤ c.val.toNat := UInt32.le_iff_toNat_le.1 h.1
    have hhigh : c.val.toNat ≤ 90 := UInt32.le_iff_toNat_le.1 h.2
    have hshift : (c.val + ('a'.val - 'A'.val)).toNat = c.val.toNat + 32 := by
      rw [UInt32.toNat_add]
      apply Nat.mod_eq_of_lt
      change c.val.toNat + 32 < 2 ^ 32
      omega
    rw [hone _ (by dsimp only; omega), hone c (by omega)]
  case isFalse => rfl

theorem utf8Len_map_toLower (cs : List Char) : utf8Len (cs.map Char.toLower) = utf8Len cs := by
  induction cs with
  | nil => rfl
  | cons c rest ih =>
    rw [List.map_cons, String.utf8Len_cons, String.utf8Len_cons, ih, utf8Size_toLower]

theorem Names.utf8Len_eq {scheme : List Char} (h : Names front scheme) :
    utf8Len front = utf8Len scheme := by
  cases h with
  | known _ folded => rw [← folded, utf8Len_map_toLower]
  | other => rfl

theorem Names.self {scheme : List Char} (h : Names front scheme) : Names scheme scheme := by
  cases h with
  | known known => exact .known known (by rcases known with rfl | rfl <;> decide)
  | other chars short http https => exact .other chars short http https

def slashed (u : Uri) : Uri := { u with path := if u.path.isEmpty then "/" else u.path }

theorem slashed_of_empty (h : u.path = "") : u.slashed = { u with path := "/" } := by
  rw [slashed, h]
  rfl

theorem slashed_of_ne (h : u.path ≠ "") : u.slashed = u := by
  rw [slashed, if_neg (by simpa using h)]

theorem text_slashed (u : Uri) : u.slashed.text = u.text := by
  by_cases h : u.path = ""
  · rw [slashed_of_empty h, text, text, h]
    rfl
  · rw [slashed_of_ne h]

theorem text_toList (u : Uri) :
    u.text.toList =
      u.scheme.toList ++ (separator ++ (u.authority.toList ++ u.slashed.behind [])) := by
  have hquery : ((u.query.map ("?" ++ ·)).getD "").toList =
      queryChars (u.query.map String.toList) := by
    cases u.query with
    | none => rfl
    | some q => exact String.toList_append
  simp only [text, slashed, behind, separator, String.toList_append, hquery, List.append_assoc,
    List.append_nil]
  rfl

theorem Spells.text_spells (h : Spells s front fragment u) (hfits : u.text.utf8ByteSize ≤ maxSize) :
    Spells u.text u.scheme.toList [] u.slashed where
  text := u.text_toList
  fits := hfits
  scheme := h.scheme.self
  nonempty := h.nonempty
  authority := h.authority
  slash := by
    by_cases hpath : u.path = ""
    · rw [slashed_of_empty hpath]
      simp
    · rw [slashed_of_ne hpath]
      exact h.slash
  path := by
    by_cases hpath : u.path = ""
    · rw [slashed_of_empty hpath]
      simp [isPathChar]
    · rw [slashed_of_ne hpath]
      exact h.path
  query := h.query
  fragment := nofun

theorem Spells.size_eq (h : Spells s front fragment u) :
    u.text.utf8ByteSize + utf8Len fragment =
      s.utf8ByteSize + if u.path = "" then 1 else 0 := by
  have hscheme := h.scheme.utf8Len_eq
  have hpath : utf8Len u.slashed.path.toList =
      utf8Len u.path.toList + if u.path = "" then 1 else 0 := by
    by_cases hpath : u.path = ""
    · rw [slashed_of_empty hpath, hpath, if_pos rfl]
      change utf8Len "/".toList = utf8Len "".toList + 1
      decide
    · rw [slashed_of_ne hpath, if_neg hpath]
      rfl
  rw [← String.utf8Len_toList s, ← String.utf8Len_toList u.text, h.text, text_toList]
  simp only [behind, String.utf8Len_append, List.append_nil, hpath, hscheme]
  change _ + (_ + (_ + (_ + _ + utf8Len (queryChars (u.query.map String.toList))))) + _ = _
  omega

theorem Spells.fragment_eq_nil_iff (h : Spells s front fragment u) :
    fragment = [] ↔ '#' ∉ s.toList := by
  constructor
  · rintro rfl hmem
    rw [h.text, behind] at hmem
    simp only [List.mem_append, List.append_nil] at hmem
    rcases hmem with hfront | hmark | hauthority | hpath | hquery
    · exact (h.scheme.ne hfront).2.2 rfl
    · simp [separator] at hmark
    · exact absurd (not_isDelimiter (h.authority.chars _ hauthority)) (by decide)
    · exact (ne_of_isPathChar (h.path _ hpath)).2 rfl
    · cases hq : u.query with
      | none => simp [hq, queryChars] at hquery
      | some q =>
        have hmem : '#' ∈ q.toList := by simpa [hq, queryChars] using hquery
        exact ne_of_isQueryChar (h.query q hq _ hmem) rfl
  · intro hno
    cases hfragment : fragment with
    | nil => rfl
    | cons c rest =>
      obtain rfl := h.fragment c (by rw [hfragment]; rfl)
      refine absurd ?_ hno
      rw [h.text, behind, hfragment]
      simp

/-- The printed URI is longer than its text only by the slash for an empty path. -/
theorem Spells.too_long_iff (h : Spells s front fragment u) :
    maxSize < u.text.utf8ByteSize ↔
      s.utf8ByteSize = maxSize ∧ u.path = "" ∧ '#' ∉ s.toList := by
  have hsize := h.size_eq
  have hfits := h.fits
  have hnil : utf8Len fragment = 0 ↔ fragment = [] := String.utf8Len_eq_zero
  rw [← h.fragment_eq_nil_iff, ← hnil]
  by_cases hpath : u.path = ""
  · simp only [hpath, if_true, true_and] at hsize ⊢
    omega
  · simp only [hpath, if_false, false_and, and_false, iff_false, not_lt] at hsize ⊢
    omega

theorem utf8Len_replicate (n : Nat) (c : Char) :
    utf8Len (List.replicate n c) = n * c.utf8Size := by
  induction n with
  | zero => exact (Nat.zero_mul _).symm
  | succ n ih => rw [List.replicate_succ, String.utf8Len_cons, ih, Nat.add_one_mul]

def queried (n : Nat) : String := "ws://h?" ++ .ofList (List.replicate n 'q')

def queriedUri (n : Nat) : Uri := ⟨"ws", "h", "", some (.ofList (List.replicate n 'q'))⟩

theorem size_queried (n : Nat) : (queried n).utf8ByteSize = 7 + n := by
  rw [queried, String.utf8ByteSize_append, String.utf8ByteSize_ofList (List.replicate n 'q'),
    utf8Len_replicate]
  exact congrArg (7 + ·) (Nat.mul_one n)

theorem spells_queried {n : Nat} (h : 7 + n ≤ maxSize) :
    Spells (queried n) "ws".toList [] (queriedUri n) where
  text := by
    rw [queried, String.toList_append]
    simp [queriedUri, behind, separator, queryChars]
  fits := (size_queried n).trans_le h
  scheme := names_ws
  nonempty := by simp [queriedUri]
  authority := by
    refine ⟨⟨{}, ?_, rfl, Nat.zero_le 1, rfl⟩, by simp [queriedUri]⟩
    simp [queriedUri, Scan.step, isAuthorityChar, bind, Except.bind, pure, Except.pure]
  slash := nofun
  path := nofun
  query := by
    rintro q ⟨⟩ c hc
    rw [String.toList_ofList] at hc
    rw [List.eq_of_mem_replicate hc]
    decide
  fragment := nofun

end Uri

namespace Target

theorem ofUri_slashed {u : Uri} {t : Target} (h : ofUri u = .ok t) :
    ofUri u.slashed = .ok { t with uri := u.slashed } := by
  obtain ⟨rfl, hsecure, hpresent, hhost, hport⟩ := ofUri_eq_ok_iff.1 h
  exact ofUri_eq_ok_iff.2 ⟨rfl, hsecure, hpresent, hhost, hport⟩

theorem request_slashed (t : Target) (key : Bytes) :
    WebSocket.Upgrade.request { t with uri := t.uri.slashed } key =
      WebSocket.Upgrade.request t key := by
  by_cases h : t.uri.path = ""
  · rw [Uri.slashed_of_empty h, WebSocket.Upgrade.request, WebSocket.Upgrade.request, h]
    rfl
  · rw [Uri.slashed_of_ne h]

theorem uriParse_too_long {s : String} (h : Uri.maxSize < s.utf8ByteSize) :
    Uri.parse s = .error .tooLong := by
  rw [Uri.parse]
  exact if_pos h

theorem parse_too_long {s : String} (h : Uri.maxSize < s.utf8ByteSize) :
    parse s = .error (.transport (Fault.message s (.uri .tooLong))) := by
  rw [parse, read, uriParse_too_long h]
  rfl

/-- A target is read again from its printed URI, and its upgrade is asked for, unless that text is
too long: the slash for an empty path may make it longer than the text that was read at first. -/
theorem parse_text {s : String} {t : Target} (h : parse s = .ok t) :
    t.uri.slashed.text = t.uri.text ∧
      (Uri.maxSize < t.uri.text.utf8ByteSize ↔
        s.utf8ByteSize = Uri.maxSize ∧ t.uri.path = "" ∧ '#' ∉ s.toList) ∧
      (t.uri.text.utf8ByteSize ≤ Uri.maxSize →
        parse t.uri.text = .ok { t with uri := t.uri.slashed } ∧
          ∀ key, WebSocket.Upgrade.requestFor? t key = some (WebSocket.Upgrade.request t key)) ∧
      (Uri.maxSize < t.uri.text.utf8ByteSize →
        parse t.uri.text = .error (.transport (Fault.message t.uri.text (.uri .tooLong))) ∧
          ∀ key, WebSocket.Upgrade.requestFor? t key = none) := by
  obtain ⟨hparse, hof⟩ := parse_eq_ok_iff.1 h
  obtain ⟨front, fragment, hspells⟩ := Uri.spells_of_parse hparse
  refine ⟨t.uri.text_slashed, hspells.too_long_iff, fun hfits => ?_, fun hlong => ?_⟩
  · have hagain := (hspells.text_spells hfits).parse
    refine ⟨parse_eq_ok_iff.2 ⟨hagain, ofUri_slashed hof⟩, fun key => ?_⟩
    rw [WebSocket.Upgrade.requestFor?, hagain]
    exact congrArg some (request_slashed t key)
  · refine ⟨parse_too_long hlong, fun key => ?_⟩
    rw [WebSocket.Upgrade.requestFor?, uriParse_too_long hlong]

theorem parse_text_of_host :
    let t : Target := ⟨false, "h", 80, ⟨"ws", "h", "", none⟩⟩
    parse "ws://h" = .ok t ∧ t.uri.text.utf8ByteSize ≤ Uri.maxSize ∧
      parse t.uri.text = .ok { t with uri := ⟨"ws", "h", "/", none⟩ } := by
  intro t
  have hparse : parse "ws://h" = .ok t := by
    refine parse_authority (by decide) (by decide) rfl ?_ (by decide) (by decide) (by decide)
    refine ⟨⟨{}, ?_, rfl, by decide, rfl⟩, by decide⟩
    simp [Uri.Scan.step, Uri.isAuthorityChar, bind, Except.bind, pure, Except.pure]
  have hfits : t.uri.text.utf8ByteSize ≤ Uri.maxSize := by decide
  obtain ⟨-, -, hagain, -⟩ := parse_text hparse
  exact ⟨hparse, hfits, (hagain hfits).1⟩

/-- The longest text of all, with no path in front of its query, is longer once it is printed. -/
theorem longest_text_printed :
    let t : Target := ⟨false, "h", 80, Uri.queriedUri 65527⟩
    parse (Uri.queried 65527) = .ok t ∧
      parse t.uri.text = .error (.transport (Fault.message t.uri.text (.uri .tooLong))) := by
  intro t
  have hspells : Uri.Spells (Uri.queried 65527) "ws".toList [] t.uri :=
    Uri.spells_queried (by decide)
  have hof : ofUri t.uri = .ok t := ofUri_eq_ok_iff.2 ⟨rfl, rfl, by decide, by decide, by decide⟩
  have hlong : Uri.maxSize < t.uri.text.utf8ByteSize :=
    hspells.too_long_iff.2 ⟨Uri.size_queried 65527, rfl, hspells.fragment_eq_nil_iff.1 rfl⟩
  exact ⟨parse_eq_ok_iff.2 ⟨hspells.parse, hof⟩, parse_too_long hlong⟩

end Target
end Parley
