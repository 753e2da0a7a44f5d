/-!
# Places in a YAML text

The text still to be read, with its line, its column and the number of characters before it; and
the classes of characters that YAML tells apart.
-/

namespace Parley.Yaml

def isAllowed (c : Char) : Bool :=
  let n := c.toNat
  n == 0x09 || n == 0x0a || n == 0x0d || (0x20 ≤ n && n ≤ 0x7e) || n == 0x85
    || (0xa0 ≤ n && n ≤ 0xd7ff) || (0xe000 ≤ n && n ≤ 0xfffd) || 0x10000 ≤ n

def isBlank (c : Char) : Bool := c == ' ' || c == '\t'

def isBreak (c : Char) : Bool :=
  c == '\n' || c == '\r' || c == '\u0085' || c == '\u2028' || c == '\u2029'

def isWord (c : Char) : Bool := c.isAlphanum || c == '_' || c == '-'

/-- The character a line break is read as: its own for the two separators, else a line feed. -/
def breakText (c : Char) : Char := if c == '\u2028' || c == '\u2029' then c else '\n'

structure Cursor where
  rest : List Char
  line : Nat := 0
  column : Nat := 0
  index : Nat := 0
deriving Repr

namespace Cursor

def skip (c : Cursor) : Cursor :=
  { c with rest := c.rest.drop 1, column := c.column + 1, index := c.index + 1 }

def advance (c : Cursor) (n : Nat) : Cursor :=
  { c with rest := c.rest.drop n, column := c.column + n, index := c.index + n }

def lineBreak? (c : Cursor) : Option (Char × Cursor) :=
  let after (n : Nat) : Cursor :=
    { rest := c.rest.drop n, line := c.line + 1, column := 0, index := c.index + n }
  match c.rest with
  | '\r' :: '\n' :: _ => some ('\n', after 2)
  | b :: _ => if isBreak b then some (breakText b, after 1) else none
  | [] => none

def head? (c : Cursor) : Option Char := c.rest.head?

/-- Whether the character `n` places on satisfies `p`; the end of the text does. -/
def endsAt (c : Cursor) (n : Nat) (p : Char → Bool) : Bool :=
  match c.rest.drop n with
  | x :: _ => p x
  | [] => true

def isSeparator (c : Char) : Bool := isBlank c || isBreak c

def separatorAt (c : Cursor) (n : Nat) : Bool := c.endsAt n isSeparator

def breakAt (c : Cursor) (n : Nat) : Bool := c.endsAt n isBreak

def takeWhile (c : Cursor) (p : Char → Bool) : List Char × Cursor :=
  let run := c.rest.takeWhile p
  (run, c.advance run.length)

def dropWhile (c : Cursor) (p : Char → Bool) : Cursor := (c.takeWhile p).2

def startsWith (c : Cursor) (s : String) : Bool := s.toList.isPrefixOf c.rest

def atDocumentMark (c : Cursor) : Bool :=
  c.column == 0 && (c.startsWith "---" || c.startsWith "...") && c.separatorAt 3

def restOfLine? (c : Cursor) : Option Cursor :=
  let c := c.dropWhile isBlank
  let c := if c.head? == some '#' then c.dropWhile (!isBreak ·) else c
  if c.breakAt 0 then some ((c.lineBreak?.map (·.2)).getD c) else none

end Cursor
end Parley.Yaml
