/-!
# Host names

A name in a certificate is a pattern: it matches a host label by label, where `*` stands for one
label that is not empty and any other label for itself. ASCII case never counts.
-/

namespace Parley.Hostname

def fold (c : Char) : Char := c.toLower

def same (a b : List Char) : Bool := a.map fold == b.map fold

def labels : List Char → List (List Char)
  | [] => [[]]
  | c :: rest => if c = '.' then [] :: labels rest else (labels rest).modifyHead (c :: ·)

def labelMatches (host pattern : List Char) : Bool :=
  (pattern == ['*'] && !host.isEmpty) || same host pattern

def matchesName (host pattern : String) : Bool :=
  let h := host.toList
  let p := pattern.toList
  same h p ||
    (labels h).length == (labels p).length &&
      ((labels h).zip (labels p)).all fun (a, b) => labelMatches a b

def matchesAny (host : String) (patterns : List String) : Bool :=
  patterns.any (matchesName host)

end Parley.Hostname
