import Mathlib
import Parley.Proofs.Target.Host
import Parley.Proofs.Text.Number

/-!
# The port of a target

The number behind the last colon after the host is the port. The default of the scheme stands in for
a port that is absent, and just as well for one that is too large or no number at all.
-/

namespace Parley

namespace Uri
variable {u : Uri} {text : List Char}

theorem portText?_eq_some_iff :
    u.portText? = some text ↔ ∃ front, u.authority.toList = front ++ ':' :: text ∧ ':' ∉ text := by
  rw [portText?]
  constructor
  · intro h
    obtain ⟨front, hsplit, hchars, hlast⟩ := reverse_takeWhile (· != ':') u.authority.toList
    split_ifs at h with hshort
    obtain rfl := Option.some.inj h
    have hcolon : ':' ∉ (u.authority.toList.reverse.takeWhile (· != ':')).reverse := fun hmem => by
      simpa using hchars ':' hmem
    cases front using List.reverseRecOn with
    | nil =>
      have hlen := congrArg List.length hsplit
      simp only [List.nil_append, List.length_reverse] at hlen hshort
      omega
    | append_singleton front c =>
      obtain rfl : c = ':' := by simpa using hlast c (by simp)
      rw [List.append_assoc] at hsplit
      exact ⟨front, hsplit, hcolon⟩
  · rintro ⟨front, hsplit, hcolon⟩
    have hreverse : u.authority.toList.reverse = text.reverse ++ ':' :: front.reverse := by
      simp [hsplit]
    have htaken : u.authority.toList.reverse.takeWhile (· != ':') = text.reverse := by
      refine (takeWhile_iff.2 ⟨hreverse, fun c hc => ?_, by simp⟩).1
      rw [bne_iff_ne]
      rintro rfl
      exact hcolon (List.mem_reverse.1 hc)
    have hshort : text.length < u.authority.toList.length := by
      simp [hsplit]
      omega
    simp only [htaken, List.length_reverse, List.reverse_reverse, hshort, if_true]

theorem Hosts.hostPort_eq {rest : List Char} (h : Hosts u rest) : u.hostPort = u.host ++ rest := by
  cases h with
  | bracketed _ _ host hostPort => rw [host, hostPort]
  | plain _ _ hostPort => exact hostPort

end Uri

namespace Target
open Text.Number (Writes)

def maxPort : Nat := 65535

theorem port?_eq_some_iff {u : Uri} {n : Nat} :
    port? u = some n ↔
      ∃ front text, u.authority.toList = front ++ ':' :: text ∧ Writes text n ∧ n ≤ maxPort := by
  simp only [port?, Option.bind_eq_some_iff, Uri.portText?_eq_some_iff,
    Text.Number.bounded?_eq_some_iff]
  constructor
  · rintro ⟨text, ⟨front, hsplit, -⟩, hn⟩
    exact ⟨front, text, hsplit, hn⟩
  · rintro ⟨front, text, hsplit, hn⟩
    exact ⟨text, ⟨front, hsplit, fun hcolon => by simpa using hn.1.chars ':' hcolon⟩, hn⟩

/-- Behind a colon no number stands that goes on past an at sign or a bracket. -/
theorem not_writes {front back before text : List Char} {n : Nat}
    (h : front ++ back = before ++ ':' :: text) (hback : ':' ∉ back)
    (hlast : ∀ c ∈ front.getLast?, c = '@' ∨ c = ']') : ¬ Writes text n := by
  intro hwrites
  rcases List.append_eq_append_iff.1 h with ⟨mid, -, rfl⟩ | ⟨mid, rfl, hmid⟩
  · exact hback (List.mem_append_right mid (List.mem_cons_self ..))
  · cases mid with
    | nil =>
      obtain rfl : ':' :: text = back := hmid
      exact hback (List.mem_cons_self ..)
    | cons c mid =>
      obtain ⟨rfl, rfl⟩ := List.cons.inj hmid
      rw [List.getLast?_append_of_ne_nil _ (List.cons_ne_nil _ _), List.getLast?_cons] at hlast
      cases hmid : mid.getLast? with
      | none => simp [hmid] at hlast
      | some d =>
        have hd := hwrites.chars d (List.mem_append_left back (List.mem_of_getLast? hmid))
        rcases hlast d (by rw [hmid]; rfl) with rfl | rfl
        · exact absurd hd (by decide)
        · exact absurd hd (by decide)

theorem port?_eq_none {u : Uri} {rest : List Char} (h : Uri.Hosts u rest) (hcolon : ':' ∉ rest) :
    port? u = none := by
  obtain ⟨user, hsplit, -, huser⟩ := u.exists_user
  rw [Option.eq_none_iff_forall_ne_some]
  intro n hn
  obtain ⟨before, text, htext, hwrites, -⟩ := port?_eq_some_iff.1 hn
  rw [hsplit, h.hostPort_eq] at htext
  cases h with
  | @bracketed inner _ _ _ host =>
    have hend : (user ++ u.host).getLast? = some ']' := by
      rw [host, ← List.cons_append, ← List.append_assoc, List.getLast?_concat]
    rw [← List.append_assoc] at htext
    refine not_writes htext hcolon (fun c hc => .inr ?_) hwrites
    rw [hend] at hc
    exact (Option.some.inj hc).symm
  | plain _ hhost =>
    refine not_writes htext (fun hmem => ?_) (fun c hc => .inl (huser c hc)) hwrites
    exact (List.mem_append.1 hmem).elim hhost hcolon

/-- The port of a target against what follows the host: the number behind the last colon, and the
default of the scheme where there is no colon or no number that is a port. -/
theorem port_of_parse {s : String} {t : Target} (h : parse s = .ok t) :
    ∃ front fragment rest, Uri.Spells s front fragment t.uri ∧
      t.uri.hostPort = t.uri.host ++ rest ∧
      (∀ before text n, rest = before ++ ':' :: text → Writes text n → n ≤ maxPort → t.port = n) ∧
      (':' ∉ rest → t.port = defaultPort t.secure) ∧
      (∀ before text, rest = before ++ ':' :: text → ':' ∉ text →
        (∀ n ≤ maxPort, ¬ Writes text n) → t.port = defaultPort t.secure) := by
  obtain ⟨hparse, hof⟩ := parse_eq_ok_iff.1 h
  obtain ⟨front, fragment, hspells⟩ := Uri.spells_of_parse hparse
  obtain ⟨-, -, -, -, hport⟩ := ofUri_eq_ok_iff.1 hof
  obtain ⟨rest, hosts⟩ := hspells.authority.hosts
  obtain ⟨user, huser, -, -⟩ := t.uri.exists_user
  rw [hosts.hostPort_eq] at huser
  have hbehind : ∀ {before text}, rest = before ++ ':' :: text →
      t.uri.authority.toList = user ++ (t.uri.host ++ before) ++ ':' :: text := by
    rintro before text rfl
    simp only [huser, List.append_assoc]
  refine ⟨front, fragment, rest, hspells, hosts.hostPort_eq, ?written, ?absent, ?unreadable⟩
  case written =>
    intro before text n hrest hwrites hle
    rw [hport, port?_eq_some_iff.2 ⟨_, text, hbehind hrest, hwrites, hle⟩]
    rfl
  case absent =>
    intro hcolon
    rw [hport, port?_eq_none hosts hcolon]
    rfl
  case unreadable =>
    intro before text hrest hcolon hnone
    have htext : t.uri.portText? = some text :=
      Uri.portText?_eq_some_iff.2 ⟨_, hbehind hrest, hcolon⟩
    have hbounded : Text.Number.bounded? 10 maxPort text = none :=
      Option.eq_none_iff_forall_ne_some.2 fun n hn =>
        let ⟨hwrites, hle⟩ := Text.Number.bounded?_eq_some_iff.1 hn
        hnone n hle hwrites
    rw [hport, port?, htext, Option.bind_some]
    exact congrArg (Option.getD · (defaultPort t.secure)) hbounded

theorem port_of_parse_written :
    let t : Target := ⟨false, "localhost", 8080, ⟨"ws", "u:1@localhost:8080", "", none⟩⟩
    parse "ws://u:1@localhost:8080" = .ok t ∧ Writes "8080".toList 8080 ∧ t.port = 8080 := by
  intro t
  have hparse : parse "ws://u:1@localhost:8080" = .ok t := by
    refine parse_authority (by decide) (by decide) rfl ?_ (by decide) (by decide)
      (by decide +kernel)
    refine ⟨⟨⟨1, false, false, false⟩, ?_, rfl, by decide, rfl⟩, by decide⟩
    simp [Uri.Scan.step, Uri.isAuthorityChar, Uri.maxColons, bind, Except.bind, pure, Except.pure]
  have hwrites : Writes "8080".toList 8080 :=
    ⟨_, .inl rfl, by decide, List.all_eq_true.1 (by decide), by decide +kernel⟩
  obtain ⟨-, -, rest, -, hrest, hwritten, -⟩ := port_of_parse hparse
  have hhostPort : t.uri.hostPort = t.uri.host ++ ':' :: "8080".toList := by decide
  have hbehind : rest = [] ++ ':' :: "8080".toList :=
    List.append_cancel_left (hrest.symm.trans hhostPort)
  exact ⟨hparse, hwrites, hwritten _ _ _ hbehind hwrites (by decide)⟩

/-- A port that is too large is read like one that is absent. -/
theorem default_for_large_port :
    ∃ t, parse "ws://localhost:99999" = .ok t ∧
      t.uri.hostPort = t.uri.host ++ ':' :: "99999".toList ∧ Writes "99999".toList 99999 ∧
      maxPort < 99999 ∧ t.port = defaultPort t.secure := by
  refine ⟨⟨false, "localhost", 80, ⟨"ws", "localhost:99999", "", none⟩⟩, ?_, by decide,
    ⟨_, .inl rfl, by decide, List.all_eq_true.1 (by decide), by decide +kernel⟩, by decide, rfl⟩
  refine parse_authority (by decide) (by decide) rfl ?_ (by decide) (by decide) (by decide +kernel)
  refine ⟨⟨⟨1, false, false, false⟩, ?_, rfl, by decide, rfl⟩, by decide⟩
  simp [Uri.Scan.step, Uri.isAuthorityChar, Uri.maxColons, bind, Except.bind, pure, Except.pure]

end Target
end Parley
