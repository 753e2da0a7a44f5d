/-!
# URIs

Reads `scheme://authority/path?query#fragment` and writes it back without the fragment. Only the
characters of each part, the brackets, colons and at signs of the authority, and a length limit are
checked; percent escapes are kept as they are.
-/

namespace Parley

structure Uri where
  scheme : String
  authority : String
  /-- As written: empty, or with its first slash. -/
  path : String
  query : Option String
deriving DecidableEq, Repr

namespace Uri

inductive Fault where
  | tooLong | empty | badChar | badAuthority | badFormat | schemeTooLong
deriving DecidableEq, Repr

def Fault.message : Fault → String
  | tooLong => "uri too long"
  | empty => "empty string"
  | badChar => "invalid uri character"
  | badAuthority => "invalid authority"
  | badFormat => "invalid format"
  | schemeTooLong => "scheme too long"

def maxSize : Nat := 65534

def maxScheme : Nat := 64

/-- Most colons in an authority since the last bracket or at sign. -/
def maxColons : Nat := 8

def size (cs : List Char) : Nat := cs.foldl (fun n c => n + c.utf8Size) 0

def isSchemeChar (c : Char) : Bool :=
  c.isAlphanum || c == '+' || c == '-' || c == '.' || c == '~'

def isAuthorityChar (c : Char) : Bool := c.isAlphanum || "!$&'()*+,-.:;=@[]_~%".contains c

def isDelimiter (c : Char) : Bool := c == '/' || c == '?' || c == '#'

def isPathChar (c : Char) : Bool :=
  let n := c.toNat
  n == 0x21 || n == 0x22 || (0x24 ≤ n && n ≤ 0x3b) || n == 0x3d || (0x40 ≤ n && n ≤ 0x5f)
    || (0x61 ≤ n && n ≤ 0x7e) || 0x80 ≤ n

def isQueryChar (c : Char) : Bool :=
  let n := c.toNat
  n == 0x21 || (0x24 ≤ n && n ≤ 0x3b) || n == 0x3d || (0x3f ≤ n && n ≤ 0x7e) || 0x80 ≤ n

def startsWithWord (word : String) (cs : List Char) : Bool :=
  (cs.take word.length).map Char.toLower == word.toList

def splitScheme (cs : List Char) : Except Fault (Option (List Char × List Char)) :=
  if startsWithWord "http://" cs then .ok (some ("http".toList, cs.drop 7))
  else if startsWithWord "https://" cs then .ok (some ("https".toList, cs.drop 8))
  else if size cs ≤ 3 then .ok none
  else
    let scheme := cs.takeWhile isSchemeChar
    match cs.drop scheme.length with
    | ':' :: '/' :: '/' :: rest =>
      if maxScheme < scheme.length then .error .schemeTooLong else .ok (some (scheme, rest))
    | _ => .ok none

structure Scan where
  colons : Nat := 0
  opened : Bool := false
  closed : Bool := false
  percent : Bool := false
deriving DecidableEq, Repr

def Scan.step (s : Scan) (c : Char) : Except Fault Scan :=
  if !isAuthorityChar c then .error .badChar
  else if c = ':' then
    if maxColons ≤ s.colons then .error .badAuthority else .ok { s with colons := s.colons + 1 }
  else if c = '[' then
    if s.percent || s.opened then .error .badAuthority else .ok { s with opened := true }
  else if c = ']' then
    if !s.opened || s.closed then .error .badAuthority
    else .ok { s with closed := true, colons := 0, percent := false }
  else if c = '@' then .ok { s with colons := 0, percent := false }
  else if c = '%' then .ok { s with percent := true }
  else .ok s

def splitAuthority (cs : List Char) : Except Fault (List Char × List Char) := do
  let authority := cs.takeWhile (!isDelimiter ·)
  let s ← authority.foldlM Scan.step {}
  if s.opened != s.closed || 1 < s.colons || authority.getLast? == some '@' || s.percent then
    .error .badAuthority
  else .ok (authority, cs.drop authority.length)

/-- The path and the query, if there is one; a fragment is dropped. -/
def splitPath (cs : List Char) : Except Fault (List Char × Option (List Char)) :=
  let path := cs.takeWhile fun c => c != '?' && c != '#'
  if !path.all isPathChar then .error .badChar
  else match cs.drop path.length with
    | '?' :: rest =>
      let query := rest.takeWhile (· != '#')
      if query.all isQueryChar then .ok (path, some query) else .error .badChar
    | _ => .ok (path, none)

def parseFull (cs : List Char) : Except Fault (Option Uri) := do
  match ← splitScheme cs with
  | none =>
    let (_, rest) ← splitAuthority cs
    if rest.isEmpty then return none else .error .badFormat
  | some (scheme, rest) =>
    if rest.isEmpty then .error .empty
    let (authority, rest) ← splitAuthority rest
    if authority.isEmpty then .error .badFormat
    let (path, query) ← splitPath rest
    return some ⟨.ofList scheme, .ofList authority, .ofList path, query.map .ofList⟩

/-- The URI that a text writes, or none for a text that is well formed but has no scheme: a star, a
path, or an authority alone. -/
def parse (s : String) : Except Fault (Option Uri) :=
  let cs := s.toList
  if maxSize < s.utf8ByteSize then .error .tooLong
  else match cs with
    | [] => .error .empty
    | ['*'] => .ok none
    | '/' :: _ => (splitPath cs).map fun _ => none
    | [_] => do
      let (authority, _) ← splitAuthority cs
      if authority.length = cs.length then return none else .error .badChar
    | _ => parseFull cs

def text (u : Uri) : String :=
  let path := if u.path.isEmpty then "/" else u.path
  let query := (u.query.map ("?" ++ ·)).getD ""
  u.scheme ++ "://" ++ u.authority ++ path ++ query

def hostPort (u : Uri) : List Char :=
  (u.authority.toList.reverse.takeWhile (· != '@')).reverse

def host (u : Uri) : List Char :=
  match u.hostPort with
  | '[' :: rest => '[' :: rest.takeWhile (· != ']') ++ [']']
  | cs => cs.takeWhile (· != ':')

/-- What follows the last colon of the authority. -/
def portText? (u : Uri) : Option (List Char) :=
  let cs := u.authority.toList.reverse
  let port := cs.takeWhile (· != ':')
  if port.length < cs.length then some port.reverse else none

end Uri
end Parley
