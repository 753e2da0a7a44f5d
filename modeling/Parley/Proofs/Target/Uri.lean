import Mathlib
import Parley.Proofs.Except
import Parley.Proofs.Hostname
import Parley.Target.Uri

/-!
# The texts of a URI

What can be read as a URI, part by part: a scheme, an authority that passes the scan, a path, and
maybe a query and a fragment. Each part is found by its own reader where it ends, so a text is read
as a URI exactly when it spells one.
-/

namespace Parley.Uri

theorem takeWhile_iff {p : Char → Bool} {cs front rest : List Char} :
    cs.takeWhile p = front ∧ cs.drop front.length = rest ↔
      cs = front ++ rest ∧ (∀ c ∈ front, p c = true) ∧ ∀ c ∈ rest.head?, p c = false := by
  constructor
  · rintro ⟨rfl, rfl⟩
    have happend := List.takeWhile_append_dropWhile (p := p) (l := cs)
    have hdrop : cs.drop (cs.takeWhile p).length = cs.dropWhile p := by
      nth_rewrite 2 [← happend]
      exact List.drop_left
    refine ⟨by rw [hdrop, happend], fun c => List.mem_takeWhile_imp, fun c hc => ?_⟩
    rw [hdrop, Option.mem_def] at hc
    simpa only [hc] using List.head?_dropWhile_not p cs
  · rintro ⟨rfl, hfront, hrest⟩
    have hstop : rest.takeWhile p = [] := by
      cases rest with
      | nil => rfl
      | cons c rest => exact List.takeWhile_cons_of_neg (by simp [hrest c rfl])
    have hfirst : (front ++ rest).takeWhile p = front := by
      rw [List.takeWhile_append_of_pos hfront, hstop, List.append_nil]
    exact ⟨hfirst, List.drop_left⟩

def separator : List Char := [':', '/', '/']

/-- What is written for a scheme: two of them in letters of either case, all others as they are. -/
inductive Names : List Char → List Char → Prop where
  | known {front scheme : List Char} (known : scheme = "http".toList ∨ scheme = "https".toList)
      (folded : front.map Char.toLower = scheme) : Names front scheme
  | other {front : List Char} (chars : ∀ c ∈ front, isSchemeChar c = true)
      (short : front.length ≤ maxScheme) (http : front.map Char.toLower ≠ "http".toList)
      (https : front.map Char.toLower ≠ "https".toList) : Names front front

theorem names_ws : Names "ws".toList "ws".toList :=
  .other (by simp [isSchemeChar]) (by decide) (by decide) (by decide)

theorem map_toLower_eq_separator {l : List Char} :
    l.map Char.toLower = separator ↔ l = separator := by
  change l.map Hostname.fold = separator ↔ l = separator
  simp [separator, List.map_eq_cons_iff, Hostname.fold_eq_iff]

theorem startsWithWord_iff {word : String} {cs : List Char} :
    startsWithWord word cs = true ↔
      ∃ front rest, cs = front ++ rest ∧ front.map Char.toLower = word.toList := by
  rw [startsWithWord, beq_iff_eq]
  constructor
  · intro h
    exact ⟨_, _, (List.take_append_drop word.length cs).symm, h⟩
  · rintro ⟨front, rest, rfl, h⟩
    have hlen : word.length = front.length := by
      rw [← String.length_toList, ← h, List.length_map]
    rw [hlen, List.take_left, h]

theorem startsWithScheme_iff {word : String} {scheme cs : List Char}
    (hword : word.toList = scheme ++ separator) :
    startsWithWord word cs = true ↔
      ∃ front rest, cs = front ++ (separator ++ rest) ∧ front.map Char.toLower = scheme := by
  rw [startsWithWord_iff, hword]
  constructor
  · rintro ⟨written, rest, rfl, h⟩
    obtain ⟨front, middle, rfl, hfront, hmiddle⟩ := List.map_eq_append_iff.1 h
    obtain rfl := map_toLower_eq_separator.1 hmiddle
    exact ⟨front, rest, List.append_assoc .., hfront⟩
  · rintro ⟨front, rest, rfl, h⟩
    refine ⟨front ++ separator, rest, (List.append_assoc ..).symm, ?_⟩
    rw [List.map_append, h, map_toLower_eq_separator.2 rfl]

theorem drop_scheme {front scheme rest : List Char} (h : front.map Char.toLower = scheme) :
    (front ++ (separator ++ rest)).drop (scheme.length + 3) = rest := by
  rw [← h, List.length_map, ← List.append_assoc]
  exact List.drop_left' (List.length_append ..)

theorem Names.ne {front scheme : List Char} (h : Names front scheme) {c : Char} (hc : c ∈ front) :
    c ≠ ':' ∧ c ≠ '/' ∧ c ≠ '#' := by
  have hno : ∀ d, isSchemeChar d = false → d.toLower ∉ "https".toList → c ≠ d := by
    rintro d hchar hletter rfl
    cases h with
    | known known folded =>
      have hmem : c.toLower ∈ scheme := folded ▸ List.mem_map_of_mem hc
      rcases known with rfl | rfl
      · exact hletter (List.mem_append_left ['s'] hmem)
      · exact hletter hmem
    | other chars => simp [chars c hc] at hchar
  exact ⟨hno ':' (by decide) (by decide), hno '/' (by decide) (by decide),
    hno '#' (by decide) (by decide)⟩

theorem Names.takeWhile {front scheme rest : List Char} (h : Names front scheme) :
    (front ++ (separator ++ rest)).takeWhile (· != ':') = front := by
  refine (takeWhile_iff.2 ⟨rfl, fun c hc => ?_, by simp [separator]⟩).1
  exact bne_iff_ne.2 (h.ne hc).1

theorem length_le_size (cs : List Char) : cs.length ≤ size cs := by
  have hfold : ∀ n, n + cs.length ≤ cs.foldl (fun n c => n + c.utf8Size) n := by
    induction cs with
    | nil => exact fun n => Nat.le_refl n
    | cons c rest ih =>
      intro n
      have hpos := c.utf8Size_pos
      have hrest := ih (n + c.utf8Size)
      rw [List.length_cons, List.foldl_cons]
      omega
  simpa only [size, Nat.zero_add] using hfold 0

theorem splitScheme_of_names {front scheme rest : List Char} (h : Names front scheme)
    (hrest : rest ≠ []) :
    splitScheme (front ++ (separator ++ rest)) = .ok (some (scheme, rest)) := by
  have hstarts : ∀ {word : String} {scheme' : List Char}, word.toList = scheme' ++ separator →
      (scheme' = "http".toList ∨ scheme' = "https".toList) →
      (startsWithWord word (front ++ (separator ++ rest)) = true ↔
        front.map Char.toLower = scheme') := by
    intro word scheme' hword hknown
    rw [startsWithScheme_iff hword]
    constructor
    · rintro ⟨front', rest', heq, hfront'⟩
      have hsame := congrArg (List.takeWhile (· != ':')) heq
      rw [h.takeWhile, (Names.known hknown hfront').takeWhile] at hsame
      rwa [hsame]
    · exact fun hfront => ⟨front, rest, rfl, hfront⟩
  have hhttp := hstarts (rfl : "http://".toList = _ ++ separator) (.inl rfl)
  have hhttps := hstarts (rfl : "https://".toList = _ ++ separator) (.inr rfl)
  rw [splitScheme]
  cases h with
  | known known folded =>
    rcases known with rfl | rfl
    · rw [if_pos (hhttp.2 folded)]
      exact congrArg (fun r => Except.ok (some (_, r))) (drop_scheme folded)
    · rw [if_neg (by rw [hhttp, folded]; decide), if_pos (hhttps.2 folded)]
      exact congrArg (fun r => Except.ok (some (_, r))) (drop_scheme folded)
  | other chars short http https =>
    obtain ⟨hfront, hdrop⟩ : (front ++ (separator ++ rest)).takeWhile isSchemeChar = front ∧
        (front ++ (separator ++ rest)).drop front.length = separator ++ rest :=
      takeWhile_iff.2 ⟨rfl, chars, fun c hc => Option.some.inj hc ▸ rfl⟩
    have hlong : ¬ size (front ++ (separator ++ rest)) ≤ 3 := by
      have hsize := length_le_size (front ++ (separator ++ rest))
      have hpos := List.length_pos_iff.2 hrest
      have hthree : separator.length = 3 := rfl
      rw [List.length_append, List.length_append] at hsize
      omega
    rw [if_neg (mt hhttp.1 http), if_neg (mt hhttps.1 https), if_neg hlong]
    simp only [hfront, hdrop]
    exact if_neg (Nat.not_lt.2 short)

theorem names_of_splitScheme {cs scheme rest : List Char}
    (h : splitScheme cs = .ok (some (scheme, rest))) :
    ∃ front, cs = front ++ (separator ++ rest) ∧ Names front scheme := by
  have hknown : ∀ {word : String} {scheme' : List Char}, word.toList = scheme' ++ separator →
      (scheme' = "http".toList ∨ scheme' = "https".toList) → startsWithWord word cs = true →
      (scheme', cs.drop (scheme'.length + 3)) = (scheme, rest) →
      ∃ front, cs = front ++ (separator ++ rest) ∧ Names front scheme := by
    intro word scheme' hword hscheme hstarts heq
    obtain ⟨front, rest', rfl, hfront⟩ := (startsWithScheme_iff hword).1 hstarts
    obtain ⟨rfl, rfl⟩ := Prod.mk.inj heq
    exact ⟨front, by rw [drop_scheme hfront], .known hscheme hfront⟩
  unfold splitScheme at h
  split_ifs at h with hhttp hhttps hshort
  · exact hknown rfl (.inl rfl) hhttp (Option.some.inj (Except.ok.inj h))
  · exact hknown rfl (.inr rfl) hhttps (Option.some.inj (Except.ok.inj h))
  · simp at h
  · extract_lets front at h
    split at h
    case h_1 rest' hdrop =>
      split_ifs at h with hlong
      obtain ⟨rfl, rfl⟩ := Prod.mk.inj (Option.some.inj (Except.ok.inj h))
      obtain ⟨hcs, hchars, -⟩ := (takeWhile_iff (p := isSchemeChar)).1 ⟨rfl, hdrop⟩
      refine ⟨_, hcs, .other hchars (Nat.not_lt.1 hlong) (fun hfold => ?_) fun hfold => ?_⟩
      · exact hhttp ((startsWithScheme_iff rfl).2 ⟨_, _, hcs, hfold⟩)
      · exact hhttps ((startsWithScheme_iff rfl).2 ⟨_, _, hcs, hfold⟩)
    case h_2 => simp at h

structure IsAuthority (cs : List Char) : Prop where
  scan : ∃ s, cs.foldlM Scan.step {} = .ok s ∧ s.opened = s.closed ∧ s.colons ≤ 1 ∧
    s.percent = false
  last : cs.getLast? ≠ some '@'

def Ends (rest : List Char) : Prop := ∀ c ∈ rest.head?, isDelimiter c = true

theorem isAuthorityChar_of_step {s t : Scan} {c : Char} (h : s.step c = .ok t) :
    isAuthorityChar c = true := by
  rw [Scan.step] at h
  split_ifs at h with hc
  all_goals simpa using hc

theorem isAuthorityChar_of_scan {s t : Scan} {cs : List Char} (h : cs.foldlM Scan.step s = .ok t) :
    ∀ c ∈ cs, isAuthorityChar c = true := by
  induction cs generalizing s with
  | nil => simp
  | cons c rest ih =>
    rw [List.foldlM_cons] at h
    cases hstep : s.step c with
    | error e => simp [hstep, bind, Except.bind] at h
    | ok next =>
      rw [hstep] at h
      exact List.forall_mem_cons.2 ⟨isAuthorityChar_of_step hstep, ih h⟩

theorem not_isDelimiter {c : Char} (h : isAuthorityChar c = true) : isDelimiter c = false := by
  have hno : ∀ d, isAuthorityChar d = false → c ≠ d := by
    rintro d hd rfl
    exact absurd h (by simp [hd])
  have hslash := hno '/' (by simp [isAuthorityChar])
  have hmark := hno '?' (by simp [isAuthorityChar])
  have hhash := hno '#' (by simp [isAuthorityChar])
  simp [isDelimiter, hslash, hmark, hhash]

theorem IsAuthority.chars {cs : List Char} (h : IsAuthority cs) :
    ∀ c ∈ cs, isAuthorityChar c = true :=
  let ⟨_, hscan, _⟩ := h.scan
  isAuthorityChar_of_scan hscan

theorem splitAuthority_iff_isAuthority {cs authority rest : List Char} :
    splitAuthority cs = .ok (authority, rest) ↔
      (cs.takeWhile (!isDelimiter ·) = authority ∧ cs.drop authority.length = rest) ∧
        IsAuthority authority := by
  rw [splitAuthority]
  constructor
  · intro h
    cases hscan : (cs.takeWhile (!isDelimiter ·)).foldlM Scan.step {} with
    | error e => simp [hscan, bind, Except.bind] at h
    | ok s =>
      simp only [hscan, bind, Except.bind] at h
      split_ifs at h with hbad
      obtain ⟨rfl, rfl⟩ := Prod.mk.inj (Except.ok.inj h)
      simp only [Bool.or_eq_true, not_or, bne_iff_ne, decide_eq_true_eq, beq_iff_eq,
        Bool.not_eq_true, not_not, not_lt] at hbad
      obtain ⟨⟨⟨hopened, hcolons⟩, hlast⟩, hpercent⟩ := hbad
      exact ⟨⟨rfl, rfl⟩, ⟨s, hscan, hopened, hcolons, hpercent⟩, hlast⟩
  · rintro ⟨⟨rfl, rfl⟩, ⟨s, hscan, hopened, hcolons, hpercent⟩, hlast⟩
    simp [hscan, bind, Except.bind, hopened, hpercent, hlast, Nat.not_lt.2 hcolons]

theorem splitAuthority_eq_ok_iff {cs authority rest : List Char} :
    splitAuthority cs = .ok (authority, rest) ↔
      cs = authority ++ rest ∧ IsAuthority authority ∧ Ends rest := by
  rw [splitAuthority_iff_isAuthority, takeWhile_iff]
  constructor
  · rintro ⟨⟨hcs, -, hends⟩, hauthority⟩
    exact ⟨hcs, hauthority, fun c hc => by simpa using hends c hc⟩
  · rintro ⟨hcs, hauthority, hends⟩
    refine ⟨⟨hcs, fun c hc => ?_, fun c hc => by simpa using hends c hc⟩, hauthority⟩
    rw [not_isDelimiter (hauthority.chars c hc), Bool.not_false]

def queryChars (query : Option (List Char)) : List Char := (query.map ('?' :: ·)).getD []

theorem ne_of_isPathChar {c : Char} (h : isPathChar c = true) : c ≠ '?' ∧ c ≠ '#' := by
  constructor
  · rintro rfl
    exact absurd h (by decide)
  · rintro rfl
    exact absurd h (by decide)

theorem ne_of_isQueryChar {c : Char} (h : isQueryChar c = true) : c ≠ '#' := by
  rintro rfl
  exact absurd h (by decide)

theorem spells_of_splitPath {cs path : List Char} {query : Option (List Char)}
    (h : splitPath cs = .ok (path, query)) :
    ∃ fragment, cs = path ++ (queryChars query ++ fragment) ∧
      (∀ c ∈ path, isPathChar c = true) ∧ (∀ q ∈ query, ∀ c ∈ q, isQueryChar c = true) ∧
      ∀ c ∈ fragment.head?, c = '#' := by
  rw [splitPath] at h
  split_ifs at h with hchars
  have hpath := List.all_eq_true.1 (by simpa using hchars)
  split at h
  case h_1 rest hdrop =>
    extract_lets front at h
    split_ifs at h with hquery
    obtain ⟨rfl, rfl⟩ := Prod.mk.inj (Except.ok.inj h)
    obtain ⟨hcs, -, -⟩ := takeWhile_iff.1 ⟨rfl, hdrop⟩
    obtain ⟨hrest, -, hfragment⟩ :=
      takeWhile_iff.1 ⟨(rfl : rest.takeWhile (· != '#') = front), rfl⟩
    refine ⟨rest.drop front.length, ?_, hpath, ?_, fun c hc => by simpa using hfragment c hc⟩
    · nth_rewrite 1 [hcs, hrest]
      rfl
    · rintro q ⟨⟩
      exact List.all_eq_true.1 hquery
  case h_2 hno =>
    obtain ⟨rfl, rfl⟩ := Prod.mk.inj (Except.ok.inj h)
    obtain ⟨hcs, -, hstop⟩ :=
      takeWhile_iff.1 ⟨(rfl : cs.takeWhile (fun c => c != '?' && c != '#') = _), rfl⟩
    refine ⟨_, hcs, hpath, nofun, fun c hc => ?_⟩
    -- no question mark stops the path, so a number sign does
    have hmark : c ≠ '?' := by
      rintro rfl
      obtain ⟨rest, hrest⟩ := List.head?_eq_some_iff.1 hc
      exact hno rest hrest
    simpa [hmark] using hstop c hc

theorem splitPath_of_spells {path fragment : List Char} {query : Option (List Char)}
    (hpath : ∀ c ∈ path, isPathChar c = true) (hquery : ∀ q ∈ query, ∀ c ∈ q, isQueryChar c = true)
    (hfragment : ∀ c ∈ fragment.head?, c = '#') :
    splitPath (path ++ (queryChars query ++ fragment)) = .ok (path, query) := by
  obtain ⟨hfront, hdrop⟩ : (path ++ (queryChars query ++ fragment)).takeWhile
      (fun c => c != '?' && c != '#') = path ∧
      (path ++ (queryChars query ++ fragment)).drop path.length = queryChars query ++ fragment := by
    refine takeWhile_iff.2 ⟨rfl, fun c hc => ?_, ?_⟩
    · simpa using ne_of_isPathChar (hpath c hc)
    · cases query with
      | none => exact fun c hc => by simp [hfragment c hc]
      | some q => simp [queryChars]
  have hall : ¬ (!path.all isPathChar) = true := by simpa using hpath
  rw [splitPath]
  simp only [hfront, hdrop]
  rw [if_neg hall]
  cases query with
  | none =>
    cases fragment with
    | nil => rfl
    | cons c rest =>
      obtain rfl := hfragment c rfl
      rfl
  | some q =>
    have hq : (q ++ fragment).takeWhile (· != '#') = q := by
      refine (takeWhile_iff.2 ⟨rfl, fun c hc => ?_, fun c hc => ?_⟩).1
      · simpa using ne_of_isQueryChar (hquery q rfl c hc)
      · simp [hfragment c hc]
    simp only [queryChars, Option.map_some, Option.getD_some, List.cons_append, hq]
    exact if_pos (List.all_eq_true.2 (hquery q rfl))

def behind (u : Uri) (fragment : List Char) : List Char :=
  u.path.toList ++ (queryChars (u.query.map String.toList) ++ fragment)

/-- How a text writes a URI: a way to write its scheme, the other parts as they are, and maybe a
fragment. -/
structure Spells (s : String) (front fragment : List Char) (u : Uri) : Prop where
  text : s.toList = front ++ (separator ++ (u.authority.toList ++ u.behind fragment))
  fits : s.utf8ByteSize ≤ maxSize
  scheme : Names front u.scheme.toList
  nonempty : u.authority.toList ≠ []
  authority : IsAuthority u.authority.toList
  slash : ∀ c ∈ u.path.toList.head?, c = '/'
  path : ∀ c ∈ u.path.toList, isPathChar c = true
  query : ∀ q ∈ u.query, ∀ c ∈ q.toList, isQueryChar c = true
  fragment : ∀ c ∈ fragment.head?, c = '#'

theorem Spells.ends {s : String} {front fragment : List Char} {u : Uri}
    (h : Spells s front fragment u) : Ends (u.behind fragment) := by
  intro c hc
  rw [behind] at hc
  cases hpath : u.path.toList with
  | cons d rest =>
    obtain rfl := h.slash d (by rw [hpath]; rfl)
    rw [hpath] at hc
    exact Option.some.inj hc ▸ rfl
  | nil =>
    rw [hpath, List.nil_append] at hc
    cases hquery : u.query with
    | some q =>
      rw [hquery] at hc
      exact Option.some.inj hc ▸ rfl
    | none =>
      rw [hquery] at hc
      exact h.fragment c hc ▸ rfl

theorem Spells.head_ne {s : String} {front fragment : List Char} {u : Uri}
    (h : Spells s front fragment u) : s.toList.head? ≠ some '/' := by
  rw [h.text]
  cases hfront : front with
  | nil => simp [separator]
  | cons c rest => simpa using (h.scheme.ne (hfront ▸ List.mem_cons_self ..)).2.1

theorem query_written (q : Option (List Char)) : (q.map String.ofList).map String.toList = q := by
  cases q with
  | none => rfl
  | some q => rw [Option.map_some, Option.map_some, String.toList_ofList]

theorem query_read (q : Option String) : (q.map String.toList).map String.ofList = q := by
  cases q with
  | none => rfl
  | some q => rw [Option.map_some, Option.map_some, String.ofList_toList]

theorem parseFull_eq_ok_some_iff {cs : List Char} {u : Uri} :
    parseFull cs = .ok (some u) ↔
      ∃ rest after,
        splitScheme cs = .ok (some (u.scheme.toList, rest)) ∧ rest ≠ [] ∧
        splitAuthority rest = .ok (u.authority.toList, after) ∧ u.authority.toList ≠ [] ∧
        splitPath after = .ok (u.path.toList, u.query.map String.toList) := by
  rw [parseFull]
  constructor
  · intro h
    obtain ⟨split, hscheme, h⟩ := bind_eq_ok.1 h
    cases split with
    | none =>
      obtain ⟨⟨authority, rest⟩, -, h⟩ := bind_eq_ok.1 h
      dsimp only at h
      split_ifs at h
      simp [pure, Except.pure] at h
    | some split =>
      obtain ⟨scheme, rest⟩ := split
      dsimp only at h
      split_ifs at h with hrest
      · simp [bind, Except.bind] at h
      · obtain ⟨⟨authority, after⟩, hauthority, h⟩ := bind_eq_ok.1 h
        split_ifs at h with hempty
        · simp [bind, Except.bind] at h
        · obtain ⟨⟨path, query⟩, hpath, h⟩ := bind_eq_ok.1 h
          obtain rfl := Option.some.inj (Except.ok.inj h)
          simp only [String.toList_ofList, query_written]
          exact ⟨rest, after, hscheme, by simpa using hrest, hauthority, by simpa using hempty,
            hpath⟩
  · rintro ⟨rest, after, hscheme, hrest, hauthority, hempty, hpath⟩
    rw [hscheme]
    simp only [bind, Except.bind, List.isEmpty_iff, hrest, hauthority, hempty, hpath, if_false,
      String.ofList_toList, query_read]
    rfl

theorem parse_eq_parseFull {s : String} (fits : s.utf8ByteSize ≤ maxSize)
    (hlen : 2 ≤ s.toList.length) (hslash : s.toList.head? ≠ some '/') :
    parse s = parseFull s.toList := by
  rw [parse]
  simp only [if_neg (Nat.not_lt.2 fits)]
  split
  case h_1 hcs => simp [hcs] at hlen
  case h_2 hcs => simp [hcs] at hlen
  case h_3 hcs => simp [hcs] at hslash
  case h_4 hcs => simp [hcs] at hlen
  case h_5 => rfl

theorem parseFull_of_parse {s : String} {u : Uri} (h : parse s = .ok (some u)) :
    s.utf8ByteSize ≤ maxSize ∧ parseFull s.toList = .ok (some u) := by
  rw [parse] at h
  split_ifs at h with hlong
  refine ⟨Nat.not_lt.1 hlong, ?_⟩
  split at h
  case h_1 => simp at h
  case h_2 => simp at h
  case h_3 => cases hpath : splitPath s.toList <;> simp [hpath, Except.map] at h
  case h_4 =>
    obtain ⟨_, -, h⟩ := bind_eq_ok.1 h
    dsimp only at h
    split_ifs at h
    simp [pure, Except.pure] at h
  case h_5 => exact h

theorem spells_of_parse {s : String} {u : Uri} (h : parse s = .ok (some u)) :
    ∃ front fragment, Spells s front fragment u := by
  obtain ⟨fits, hfull⟩ := parseFull_of_parse h
  obtain ⟨rest, after, hscheme, -, hauthority, hempty, hpath⟩ := parseFull_eq_ok_some_iff.1 hfull
  obtain ⟨front, htext, hnames⟩ := names_of_splitScheme hscheme
  obtain ⟨rfl, hgood, hends⟩ := splitAuthority_eq_ok_iff.1 hauthority
  obtain ⟨fragment, rfl, hchars, hquery, hfragment⟩ := spells_of_splitPath hpath
  refine ⟨front, fragment, htext, fits, hnames, hempty, hgood, fun c hc => ?_, hchars,
    fun q hq => hquery q.toList (Option.mem_map_of_mem _ hq), hfragment⟩
  -- the path starts where the authority ends, and of what ends one a path holds only slashes
  have hdelimiter : isDelimiter c = true := hends c (by
    rw [List.head?_append, Option.mem_def.1 hc]
    rfl)
  have hne := ne_of_isPathChar (hchars c (List.mem_of_mem_head? hc))
  simpa [isDelimiter, hne] using hdelimiter

theorem Spells.parse {s : String} {front fragment : List Char} {u : Uri}
    (h : Spells s front fragment u) : Uri.parse s = .ok (some u) := by
  have hlen : 2 ≤ s.toList.length := by
    rw [h.text]
    simp [separator]
    omega
  have hrest : u.authority.toList ++ u.behind fragment ≠ [] :=
    List.append_ne_nil_of_left_ne_nil h.nonempty _
  have hpath : splitPath (u.behind fragment) = .ok (u.path.toList, u.query.map String.toList) := by
    refine splitPath_of_spells h.path (fun q hq => ?_) h.fragment
    obtain ⟨text, htext, rfl⟩ := Option.map_eq_some_iff.1 hq
    exact h.query text htext
  rw [parse_eq_parseFull h.fits hlen h.head_ne]
  refine parseFull_eq_ok_some_iff.2 ⟨_, _, ?_, hrest,
    splitAuthority_eq_ok_iff.2 ⟨rfl, h.authority, h.ends⟩, h.nonempty, hpath⟩
  rw [h.text, splitScheme_of_names h.scheme hrest]

/-- What is read as a URI with a scheme: the texts that spell it, and no others. -/
theorem parse_eq_ok_some_iff {s : String} {u : Uri} :
    parse s = .ok (some u) ↔ ∃ front fragment, Spells s front fragment u :=
  ⟨spells_of_parse, fun ⟨_, _, h⟩ => h.parse⟩

end Parley.Uri
