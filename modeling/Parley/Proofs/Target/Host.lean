import Mathlib
import Parley.Proofs.Target.Uri
import Parley.Target

/-!
# The host of a target

An authority has one pair of brackets or none. The host of a target is that of its URI without the
brackets at its ends, which may leave nothing: that the host is there is checked before.
-/

namespace Parley

namespace Uri

def Unbracketed (cs : List Char) : Prop := '[' ∉ cs ∧ ']' ∉ cs

theorem unbracketed_nil : Unbracketed [] := ⟨nofun, nofun⟩

theorem Unbracketed.cons {c : Char} {cs : List Char} (hopen : c ≠ '[') (hclose : c ≠ ']')
    (h : Unbracketed cs) : Unbracketed (c :: cs) :=
  ⟨List.not_mem_cons_of_ne_of_not_mem hopen.symm h.1,
    List.not_mem_cons_of_ne_of_not_mem hclose.symm h.2⟩

inductive Steps (s : Scan) : Char → Scan → Prop where
  | plain {c : Char} {t : Scan} (hopen : c ≠ '[') (hclose : c ≠ ']') (opened : t.opened = s.opened)
      (closed : t.closed = s.closed) : Steps s c t
  | opens {t : Scan} (fresh : s.opened = false) (opened : t.opened = true)
      (closed : t.closed = s.closed) : Steps s '[' t
  | closes {t : Scan} (pending : s.opened = true) (fresh : s.closed = false)
      (opened : t.opened = true) (closed : t.closed = true) : Steps s ']' t

theorem steps {s t : Scan} {c : Char} (h : s.step c = .ok t) : Steps s c t := by
  rw [Scan.step] at h
  split_ifs at h with hchar hcolon hcolons hopen hbad hclose hbad hat hpercent
  all_goals obtain rfl := Except.ok.inj h
  · exact .plain (by simp [hcolon]) (by simp [hcolon]) rfl rfl
  · subst hopen
    simp only [Bool.or_eq_true, not_or, Bool.not_eq_true] at hbad
    exact .opens hbad.2 rfl rfl
  · subst hclose
    simp only [Bool.or_eq_true, not_or, Bool.not_eq_true, Bool.not_eq_eq_eq_not] at hbad
    exact .closes (by simpa using hbad.1) hbad.2 (by simpa using hbad.1) rfl
  · exact .plain hopen hclose rfl rfl
  · exact .plain hopen hclose rfl rfl
  · exact .plain hopen hclose rfl rfl

theorem scan_cons {s t : Scan} {c : Char} {cs : List Char}
    (h : (c :: cs).foldlM Scan.step s = .ok t) :
    ∃ next, Steps s c next ∧ cs.foldlM Scan.step next = .ok t := by
  rw [List.foldlM_cons] at h
  obtain ⟨next, hstep, hrest⟩ := bind_eq_ok.1 h
  exact ⟨next, steps hstep, hrest⟩

theorem unbracketed_of_closed {s t : Scan} {cs : List Char}
    (h : cs.foldlM Scan.step s = .ok t) (hopened : s.opened = true) (hclosed : s.closed = true) :
    Unbracketed cs := by
  induction cs generalizing s with
  | nil => exact unbracketed_nil
  | cons c rest ih =>
    obtain ⟨next, hstep, hrest⟩ := scan_cons h
    cases hstep with
    | plain hopen hclose opened closed =>
      exact (ih hrest (opened.trans hopened) (closed.trans hclosed)).cons hopen hclose
    | opens fresh => simp [fresh] at hopened
    | closes pending fresh => simp [fresh] at hclosed

theorem closes_of_opened {s t : Scan} {cs : List Char} (h : cs.foldlM Scan.step s = .ok t)
    (hopened : s.opened = true) (hclosed : s.closed = false) (hmatch : t.opened = t.closed) :
    ∃ inner after, cs = inner ++ ']' :: after ∧ Unbracketed inner ∧ Unbracketed after := by
  induction cs generalizing s with
  | nil =>
    obtain rfl := Except.ok.inj h
    simp [hopened, hclosed] at hmatch
  | cons c rest ih =>
    obtain ⟨next, hstep, hrest⟩ := scan_cons h
    cases hstep with
    | plain hopen hclose opened closed =>
      obtain ⟨inner, after, rfl, hinner, hafter⟩ :=
        ih hrest (opened.trans hopened) (closed.trans hclosed)
      exact ⟨c :: inner, after, rfl, hinner.cons hopen hclose, hafter⟩
    | opens fresh => simp [fresh] at hopened
    | closes pending fresh opened closed =>
      exact ⟨[], rest, rfl, unbracketed_nil, unbracketed_of_closed hrest opened closed⟩

theorem brackets_of_fresh {s t : Scan} {cs : List Char} (h : cs.foldlM Scan.step s = .ok t)
    (hopened : s.opened = false) (hclosed : s.closed = false) (hmatch : t.opened = t.closed) :
    Unbracketed cs ∨ ∃ before inner after, cs = before ++ '[' :: (inner ++ ']' :: after) ∧
      Unbracketed before ∧ Unbracketed inner ∧ Unbracketed after := by
  induction cs generalizing s with
  | nil => exact .inl unbracketed_nil
  | cons c rest ih =>
    obtain ⟨next, hstep, hrest⟩ := scan_cons h
    cases hstep with
    | plain hopen hclose opened closed =>
      rcases ih hrest (opened.trans hopened) (closed.trans hclosed) with hnone | hpair
      · exact .inl (hnone.cons hopen hclose)
      · obtain ⟨before, inner, after, rfl, hbefore, hrest⟩ := hpair
        exact .inr ⟨c :: before, inner, after, rfl, hbefore.cons hopen hclose, hrest⟩
    | opens fresh opened closed =>
      obtain ⟨inner, after, rfl, hinner, hafter⟩ :=
        closes_of_opened hrest opened (closed.trans hclosed) hmatch
      exact .inr ⟨[], inner, after, rfl, unbracketed_nil, hinner, hafter⟩
    | closes pending => simp [pending] at hopened

theorem IsAuthority.brackets {cs : List Char} (h : IsAuthority cs) :
    Unbracketed cs ∨ ∃ before inner after, cs = before ++ '[' :: (inner ++ ']' :: after) ∧
      Unbracketed before ∧ Unbracketed inner ∧ Unbracketed after := by
  obtain ⟨s, hscan, hmatch, -⟩ := h.scan
  exact brackets_of_fresh hscan rfl rfl hmatch

theorem IsAuthority.count_le_one {cs : List Char} (h : IsAuthority cs) : cs.count ']' ≤ 1 := by
  have hzero : ∀ {part : List Char}, Unbracketed part → part.count ']' = 0 := fun hpart =>
    List.count_eq_zero.2 hpart.2
  rcases h.brackets with hnone | ⟨before, inner, after, rfl, hbefore, hinner, hafter⟩
  · rw [hzero hnone]
    exact Nat.zero_le 1
  · simp [List.count_append, hzero hbefore, hzero hinner, hzero hafter]

theorem reverse_takeWhile (p : Char → Bool) (cs : List Char) :
    ∃ front, cs = front ++ (cs.reverse.takeWhile p).reverse ∧
      (∀ c ∈ (cs.reverse.takeWhile p).reverse, p c = true) ∧ ∀ c ∈ front.getLast?, p c = false := by
  obtain ⟨hsplit, htaken, hstop⟩ :=
    takeWhile_iff.1 ⟨(rfl : cs.reverse.takeWhile p = _), rfl⟩
  refine ⟨(cs.reverse.drop (cs.reverse.takeWhile p).length).reverse, ?_, ?_, ?_⟩
  · rw [← List.reverse_append, ← hsplit, List.reverse_reverse]
  · exact fun c hc => htaken c (List.mem_reverse.1 hc)
  · rwa [List.getLast?_reverse]

theorem exists_user (u : Uri) :
    ∃ user, u.authority.toList = user ++ u.hostPort ∧ '@' ∉ u.hostPort ∧
      ∀ c ∈ user.getLast?, c = '@' := by
  obtain ⟨user, hsplit, hrest, hlast⟩ := reverse_takeWhile (· != '@') u.authority.toList
  exact ⟨user, hsplit, fun hat => by simpa using hrest '@' hat,
    fun c hc => by simpa using hlast c hc⟩

inductive Hosts (u : Uri) : List Char → Prop where
  | bracketed {inner rest : List Char} (hinner : Unbracketed inner) (hrest : Unbracketed rest)
      (host : u.host = '[' :: (inner ++ [']']))
      (hostPort : u.hostPort = '[' :: (inner ++ [']']) ++ rest) : Hosts u rest
  | plain {rest : List Char} (bare : u.host.head? ≠ some '[') (colon : ':' ∉ u.host)
      (hostPort : u.hostPort = u.host ++ rest) (stop : ∀ c ∈ rest.head?, c = ':') : Hosts u rest

theorem host_of_bracket {u : Uri} {rest : List Char} (h : u.hostPort = '[' :: rest) :
    u.host = '[' :: (rest.takeWhile (· != ']') ++ [']']) := by
  rw [host, h]
  rfl

theorem host_of_no_bracket {u : Uri} (h : ∀ rest, u.hostPort ≠ '[' :: rest) :
    u.host = u.hostPort.takeWhile (· != ':') := by
  rw [host]
  split
  case h_1 rest hrest => exact absurd hrest (h rest)
  case h_2 => rfl

theorem IsAuthority.hosts {u : Uri} (h : IsAuthority u.authority.toList) :
    ∃ rest, Hosts u rest := by
  obtain ⟨user, hsplit, -, -⟩ := u.exists_user
  by_cases hopen : ∃ rest, u.hostPort = '[' :: rest
  · obtain ⟨rest, hrest⟩ := hopen
    rw [hrest] at hsplit
    rcases h.brackets with hnone | ⟨before, inner, after, hpair, hbefore, hinner, hafter⟩
    · exact absurd (hsplit ▸ List.mem_append_right user (List.mem_cons_self ..)) hnone.1
    · -- there is one opening bracket, so what follows it is what follows the host's
      have hno : '[' ∉ inner ++ ']' :: after := by
        simp [hinner.1, hafter.1]
      obtain ⟨-, -, rfl⟩ :=
        (List.append_cons_inj_of_notMem hbefore.1 hno).1 (hpair.symm.trans hsplit)
      have htaken : (inner ++ ']' :: after).takeWhile (· != ']') = inner := by
        refine (takeWhile_iff.2 ⟨rfl, fun c hc => ?_, by simp⟩).1
        rw [bne_iff_ne]
        rintro rfl
        exact hinner.2 hc
      refine ⟨after, .bracketed hinner hafter ?_ ?_⟩
      · rw [host_of_bracket hrest, htaken]
      · rw [hrest, List.cons_append, List.append_assoc]
        rfl
  · have hno : ∀ rest, u.hostPort ≠ '[' :: rest := fun rest hrest => hopen ⟨rest, hrest⟩
    have hhost := host_of_no_bracket hno
    obtain ⟨hport, hchars, hstop⟩ := (takeWhile_iff (p := (· != ':'))).1 ⟨hhost.symm, rfl⟩
    refine ⟨_, .plain (fun hhead => ?_) (fun hcolon => ?_) hport fun c hc => ?_⟩
    · obtain ⟨rest, hrest⟩ := List.head?_eq_some_iff.1 hhead
      rw [hrest] at hport
      exact hno _ hport
    · simpa using hchars ':' hcolon
    · simpa using hstop c hc

end Uri

namespace Target

theorem ofUri_eq_ok_iff {u : Uri} {t : Target} :
    ofUri u = .ok t ↔ t.uri = u ∧ secure? u.scheme = some t.secure ∧ u.host ≠ [] ∧
      t.host = .ofList (bare u.host) ∧ t.port = (port? u).getD (defaultPort t.secure) := by
  rw [ofUri]
  cases hsecure : secure? u.scheme with
  | none => simp
  | some secure =>
    by_cases hhost : u.host = []
    · simp [hhost]
    · simp only [List.isEmpty_iff, hhost, if_false]
      constructor
      · intro h
        obtain rfl := Except.ok.inj h
        exact ⟨rfl, rfl, hhost, rfl, rfl⟩
      · rintro ⟨huri, hsame, -, hname, hport⟩
        obtain rfl := Option.some.inj hsame
        rw [← hname, ← hport, ← huri]

theorem read_eq_ok_iff {s : String} {t : Target} :
    read s = .ok t ↔ ∃ u, Uri.parse s = .ok (some u) ∧ ofUri u = .ok t := by
  rw [read]
  split
  case h_1 f hparse => simp [hparse]
  case h_2 hparse => simp [hparse]
  case h_3 u hparse => simp [hparse]

theorem parse_eq_ok_iff {s : String} {t : Target} :
    parse s = .ok t ↔ Uri.parse s = .ok (some t.uri) ∧ ofUri t.uri = .ok t := by
  rw [parse, mapError_eq_ok, read_eq_ok_iff]
  constructor
  · rintro ⟨u, hparse, hof⟩
    obtain ⟨rfl, -⟩ := ofUri_eq_ok_iff.1 hof
    exact ⟨hparse, hof⟩
  · exact fun h => ⟨t.uri, h⟩

theorem dropWhile_iff {p : Char → Bool} {cs rest : List Char} :
    cs.dropWhile p = rest ↔ ∃ front, cs = front ++ rest ∧ (∀ c ∈ front, p c = true) ∧
      ∀ c ∈ rest.head?, p c = false := by
  constructor
  · rintro rfl
    refine ⟨cs.takeWhile p, List.takeWhile_append_dropWhile.symm, fun c => List.mem_takeWhile_imp,
      fun c hc => ?_⟩
    simpa only [Option.mem_def.1 hc] using List.head?_dropWhile_not p cs
  · rintro ⟨front, rfl, hfront, hrest⟩
    rw [List.dropWhile_append_of_pos hfront]
    cases rest with
    | nil => rfl
    | cons c rest => exact List.dropWhile_cons_of_neg (by simp [hrest c rfl])

theorem forall_mem_ne_iff {o : Option Char} {d : Char} : (∀ c ∈ o, c ≠ d) ↔ o ≠ some d :=
  ⟨fun h hd => h d hd rfl, fun h _ hc hd => h (hd ▸ hc)⟩

theorem bare_eq_iff {host middle : List Char} :
    bare host = middle ↔ ∃ opens closes, host = opens ++ (middle ++ closes) ∧
      (∀ c ∈ opens, c = '[') ∧ (∀ c ∈ closes, c = ']') ∧
      (middle ++ closes).head? ≠ some '[' ∧ middle.getLast? ≠ some ']' := by
  have hdrop : ∀ {d : Char} {cs rest : List Char}, cs.dropWhile (· == d) = rest ↔
      ∃ front, cs = front ++ rest ∧ (∀ c ∈ front, c = d) ∧ rest.head? ≠ some d := by
    intro d cs rest
    simp only [dropWhile_iff, beq_iff_eq, beq_eq_false_iff_ne, forall_mem_ne_iff]
  rw [bare, List.reverse_eq_iff, hdrop]
  constructor
  · rintro ⟨closes, hright, hcloses, hlast⟩
    obtain ⟨opens, hleft, hopens, hhead⟩ := hdrop.1 (List.reverse_eq_iff.1 hright)
    rw [List.reverse_append, List.reverse_reverse] at hleft hhead
    rw [List.head?_reverse] at hlast
    exact ⟨opens, closes.reverse, hleft, hopens, fun c hc => hcloses c (List.mem_reverse.1 hc),
      hhead, hlast⟩
  · rintro ⟨opens, closes, hhost, hopens, hcloses, hhead, hlast⟩
    refine ⟨closes.reverse, ?_, fun c hc => hcloses c (List.mem_reverse.1 hc), ?_⟩
    · rw [hdrop.2 ⟨opens, hhost, hopens, hhead⟩, List.reverse_append]
    · rwa [List.head?_reverse]

/-- A host has brackets around it, or at most a closing one that the at sign has cut off from the
opening one. -/
theorem bare_cases {u : Uri} (h : Uri.IsAuthority u.authority.toList) :
    u.host = bare u.host ∨ u.host = bare u.host ++ [']'] ∨
      u.host = '[' :: (bare u.host ++ [']']) := by
  obtain ⟨rest, hosts⟩ := h.hosts
  cases hosts with
  | @bracketed inner _ hinner _ host =>
    have hhead : (inner ++ [']']).head? ≠ some '[' := fun hhead => by
      have hmem := List.mem_of_mem_head? hhead
      simp [hinner.1] at hmem
    have hbare : bare u.host = inner := bare_eq_iff.2 ⟨['['], [']'], host, by simp, by simp, hhead,
      fun hlast => hinner.2 (List.mem_of_getLast? hlast)⟩
    rw [hbare]
    exact .inr (.inr host)
  | plain hopen _ hostPort _ =>
    obtain ⟨opens, closes, hhost, hopens, hcloses, -, -⟩ := bare_eq_iff.1 (rfl : bare u.host = _)
    cases opens with
    | cons c opens =>
      rw [hhost, hopens c (List.mem_cons_self ..)] at hopen
      exact absurd rfl hopen
    | nil =>
      obtain ⟨user, hsplit, -, -⟩ := u.exists_user
      have hcount : closes.count ']' ≤ u.authority.toList.count ']' := by
        rw [hsplit, hostPort, hhost]
        simp only [List.count_append]
        omega
      rw [List.count_eq_length.2 fun c hc => (hcloses c hc).symm] at hcount
      have hlen := hcount.trans h.count_le_one
      match closes with
      | [] => exact .inl (by simpa using hhost)
      | [c] =>
        obtain rfl := hcloses c (List.mem_cons_self ..)
        exact .inr (.inl hhost)
      | _ :: _ :: _ => simp at hlen

theorem parse_authority {s authority host : String} {port : Nat} {u : Uri}
    (hs : s = "ws://" ++ authority) (hfits : s.utf8ByteSize ≤ Uri.maxSize)
    (hu : u = ⟨"ws", authority, "", none⟩) (h : Uri.IsAuthority authority.toList)
    (hpresent : u.host ≠ []) (hhost : bare u.host = host.toList)
    (hport : (port? u).getD (defaultPort false) = port) : parse s = .ok ⟨false, host, port, u⟩ := by
  have hspells : Uri.Spells s "ws".toList [] u := by
    subst hu
    refine ⟨?_, hfits, Uri.names_ws, fun hnil => hpresent ?_, h, nofun, nofun, nofun, nofun⟩
    · rw [hs, String.toList_append, Uri.behind]
      simp [Uri.separator, Uri.queryChars]
    · simp [Uri.host, Uri.hostPort, hnil]
  refine parse_eq_ok_iff.2 ⟨hspells.parse, ofUri_eq_ok_iff.2 ⟨rfl, ?_, hpresent, ?_, hport.symm⟩⟩
  · rw [hu]
    rfl
  · rw [hhost, String.ofList_toList]

/-- The host of a target is that of its URI without the brackets at its ends. The URI has one, but
where it is made of brackets only nothing is left. -/
theorem host_of_parse {s : String} {t : Target} (h : parse s = .ok t) :
    (∃ front fragment, Uri.Spells s front fragment t.uri) ∧ t.authority = (t.host, t.port) ∧
      t.uri.host ≠ [] ∧ t.host.toList.head? ≠ some '[' ∧ t.host.toList.getLast? ≠ some ']' ∧
      (t.uri.host = t.host.toList ∨ t.uri.host = t.host.toList ++ [']'] ∨
        t.uri.host = '[' :: (t.host.toList ++ [']'])) ∧
      (t.host = "" ↔ t.uri.host = [']'] ∨ t.uri.host = ['[', ']']) := by
  obtain ⟨hparse, hof⟩ := parse_eq_ok_iff.1 h
  obtain ⟨front, fragment, hspells⟩ := Uri.spells_of_parse hparse
  obtain ⟨-, -, hpresent, hhost, -⟩ := ofUri_eq_ok_iff.1 hof
  have hbare : bare t.uri.host = t.host.toList := by rw [hhost, String.toList_ofList]
  obtain ⟨_, closes, -, -, -, hhead, hlast⟩ := bare_eq_iff.1 hbare
  have hcases := bare_cases hspells.authority
  rw [hbare] at hcases
  have hempty : t.host = "" ↔ t.host.toList = [] := String.toList_eq_nil_iff.symm
  refine ⟨⟨front, fragment, hspells⟩, rfl, hpresent, fun hopen => ?_, hlast, hcases, ?_⟩
  · obtain ⟨rest, hrest⟩ := List.head?_eq_some_iff.1 hopen
    exact hhead (by rw [hrest]; rfl)
  · rw [hempty]
    constructor
    · intro hnil
      rw [hnil] at hcases
      exact hcases.resolve_left hpresent
    · rintro (hclose | hpair)
      · rw [← hbare, hclose]
        rfl
      · rw [← hbare, hpair]
        rfl

theorem host_of_parse_loopback :
    let t : Target := ⟨false, "::1", 8000, ⟨"ws", "[::1]:8000", "", none⟩⟩
    parse "ws://[::1]:8000" = .ok t ∧ t.authority = ("::1", 8000) ∧
      t.uri.host = '[' :: (t.host.toList ++ [']']) := by
  intro t
  have hparse : parse "ws://[::1]:8000" = .ok t := by
    refine parse_authority (by decide) (by decide) rfl ?_ (by decide) (by decide) (by decide)
    refine ⟨⟨⟨1, true, true, false⟩, ?_, rfl, by decide, rfl⟩, by decide⟩
    simp [Uri.Scan.step, Uri.isAuthorityChar, Uri.maxColons, bind, Except.bind, pure, Except.pure]
  obtain ⟨-, hauthority, -, -, -, hcases, -⟩ := host_of_parse hparse
  have hfirst : t.uri.host ≠ t.host.toList := by decide
  have hsecond : t.uri.host ≠ t.host.toList ++ [']'] := by decide
  exact ⟨hparse, hauthority, (hcases.resolve_left hfirst).resolve_left hsecond⟩

/-- That there is a host is checked while it has its brackets. -/
theorem nothing_in_brackets :
    ∃ t, parse "ws://[]" = .ok t ∧ t.host = "" ∧ t.authority = ("", 80) := by
  refine ⟨⟨false, "", 80, ⟨"ws", "[]", "", none⟩⟩, ?_, rfl, rfl⟩
  refine parse_authority (by decide) (by decide) rfl ?_ (by decide) (by decide) (by decide)
  refine ⟨⟨⟨0, true, true, false⟩, ?_, rfl, by decide, rfl⟩, by decide⟩
  simp [Uri.Scan.step, Uri.isAuthorityChar, bind, Except.bind, pure, Except.pure]

end Target
end Parley
