import Parley.Yaml.Scalar
import Parley.Yaml.Token

/-!
# From YAML text to tokens

A key without `?` shows itself only by the colon behind it, so every place where one may start is
kept until the line ends, and the tokens of the key are put in front of it when the colon comes.
Blocks open and close by the column that a token starts at.
-/

namespace Parley.Yaml

structure Candidate where
  required : Bool
  token : Nat
  line : Nat
  column : Nat
  index : Nat

structure Lexer where
  place : Cursor
  tokens : Array Token := #[]
  indent : Int := -1
  indents : List Int := []
  keyAllowed : Bool := true
  /-- The candidate of each open flow collection, innermost first, and of the block around them. -/
  candidates : List (Option Candidate) := [none]

namespace Lexer

def maxKey : Nat := 1024

def inFlow (l : Lexer) : Bool := 1 < l.candidates.length

def emit (l : Lexer) (t : Token) : Lexer := { l with tokens := l.tokens.push t }

def pass (l : Lexer) (n : Nat) : Lexer := { l with place := l.place.advance n }

def emitAt (l : Lexer) (n : Nat) (ts : Array Token) : Lexer :=
  { l with tokens := l.tokens.extract 0 n ++ ts ++ l.tokens.extract n l.tokens.size }

def isStale (l : Lexer) (k : Candidate) : Bool :=
  k.line < l.place.line || k.index + maxKey < l.place.index

/-- Gives up candidates on lines before or too far back; one that had to be a key is an error. -/
def dropStale (l : Lexer) : Option Lexer :=
  if l.candidates.any (·.any fun k => l.isStale k && k.required) then none
  else some { l with candidates := l.candidates.map (·.filter (!l.isStale ·)) }

def dropCandidate (l : Lexer) : Option Lexer :=
  match l.candidates with
  | some k :: rest => if k.required then none else some { l with candidates := none :: rest }
  | _ => some l

def saveCandidate (l : Lexer) : Option Lexer :=
  if !l.keyAllowed then some l
  else l.dropCandidate.map fun l =>
    let k : Candidate :=
      { required := !l.inFlow && l.indent == l.place.column
        token := l.tokens.size
        line := l.place.line, column := l.place.column, index := l.place.index }
    { l with candidates := some k :: l.candidates.drop 1 }

/-- Opens a block at a deeper column; its token goes in front of token `n`. -/
def roll (l : Lexer) (column : Nat) (n : Nat) (t : Token) : Lexer :=
  if l.inFlow || column ≤ l.indent then l
  else { l.emitAt n #[t] with indent := column, indents := l.indent :: l.indents }

def unroll (l : Lexer) (column : Int) : Lexer :=
  if l.inFlow then l
  else
    let levels := l.indent :: l.indents
    let closed := levels.takeWhile (column < ·)
    { l with
      tokens := l.tokens ++ Array.replicate closed.length .blockEnd
      indent := (levels.drop closed.length).headD (-1)
      indents := levels.drop (closed.length + 1) }

/-- Over spaces, comments and line breaks. A tab is a space only where no key may start. -/
def toNext : (fuel : Nat) → Lexer → Lexer
  | 0, l => l
  | fuel + 1, l =>
    let c := l.place
    let c := if c.column == 0 && c.head? == some '\ufeff' then c.skip else c
    let c := c.dropWhile fun x => x == ' ' || (x == '\t' && (l.inFlow || !l.keyAllowed))
    let c := if c.head? == some '#' then c.dropWhile (!isBreak ·) else c
    match c.lineBreak? with
    | some (_, c) => toNext fuel { l with place := c, keyAllowed := l.keyAllowed || !l.inFlow }
    | none => { l with place := c }

def number? (c : Cursor) : Option (Nat × Cursor) :=
  let (digits, c) := c.takeWhile Char.isDigit
  if 9 < digits.length then none else (Text.Number.read? 10 digits).map (·, c)

def handle? (directive : Bool) (c : Cursor) : Option (List Char × Cursor) :=
  if c.head? != some '!' then none
  else
    let (word, d) := c.skip.takeWhile isWord
    if d.head? == some '!' then some ('!' :: word ++ ['!'], d.skip)
    else if directive && !word.isEmpty then none
    else some ('!' :: word, d)

def isUriChar (verbatim : Bool) (c : Char) : Bool :=
  isWord c || ";/?:@&=+$.%!~*'()".contains c || (verbatim && ",[]".contains c)

def percents : (fuel : Nat) → List Char → List UInt8 × List Char
  | fuel + 1, '%' :: h :: l :: rest =>
    match Text.Number.read? 16 [h, l] with
    | some n => let (bs, rest) := percents fuel rest; (UInt8.ofNat n :: bs, rest)
    | none => ([], '%' :: h :: l :: rest)
  | _, cs => ([], cs)

def unescape? : (fuel : Nat) → List Char → Option (List Char)
  | 0, _ => some []
  | _, [] => some []
  | fuel + 1, '%' :: rest =>
    let (octets, rest') := percents (rest.length + 1) ('%' :: rest)
    if octets.isEmpty then none
    else do
      let text ← String.fromUTF8? ⟨octets.toArray⟩
      return text.toList ++ (← unescape? fuel rest')
  | fuel + 1, x :: rest => (unescape? fuel rest).map (x :: ·)

def uri? (verbatim : Bool) (c : Cursor) : Option (List Char × Cursor) := do
  let (run, c) := c.takeWhile (isUriChar verbatim)
  return (← unescape? (run.length + 1) run, c)

def directive? (c : Cursor) : Option (Token × Cursor) := do
  let (name, c) := c.skip.takeWhile isWord
  if name.isEmpty || !c.separatorAt 0 then none
  let c := c.dropWhile isBlank
  if name == "YAML".toList then
    let (major, c) ← number? c
    if c.head? != some '.' then none
    let (minor, c) ← number? c.skip
    return (.version major minor, ← c.restOfLine?)
  else if name == "TAG".toList then
    let (handle, c) ← handle? true c
    if !c.head?.any isBlank then none
    let (expansion, c) ← uri? true (c.dropWhile isBlank)
    if expansion.isEmpty || !c.separatorAt 0 then none
    return (.handle (.ofList handle) (.ofList expansion), ← c.restOfLine?)
  else none

def anchorName? (c : Cursor) : Option (String × Cursor) :=
  let (name, c) := c.skip.takeWhile isWord
  let ends := c.endsAt 0 fun x => Cursor.isSeparator x || "?:,]\x7d%@`".contains x
  if name.isEmpty || !ends then none else some (.ofList name, c)

def tag? (inFlow : Bool) (c : Cursor) : Option (Token × Cursor) := do
  let (t, c) ← (
    if c.startsWith "!<" then do
      let (u, c) ← uri? true (c.advance 2)
      if u.isEmpty || c.head? != some '>' then none
      return (Token.tag "" (.ofList u), c.skip)
    else do
      let (handle, c) ← handle? false c
      let (u, c) ← uri? false c
      if 1 < handle.length && handle.getLast? == some '!' then
        if u.isEmpty then none
        return (.tag (.ofList handle) (.ofList u), c)
      else
        let ending := handle.drop 1 ++ u
        return (if ending.isEmpty then .tag "" "!" else .tag "!" (.ofList ending), c))
  if c.separatorAt 0 || (inFlow && c.head? == some ',') then return (t, c) else none

def atMargin (l : Lexer) (read : Cursor → Option (Token × Cursor)) : Option Lexer := do
  let l ← (l.unroll (-1)).dropCandidate
  let (t, c) ← read l.place
  return { l.emit t with place := c, keyAllowed := false }

def openFlow (l : Lexer) (t : Token) : Option Lexer :=
  l.saveCandidate.map fun l =>
    { (l.emit t).pass 1 with candidates := none :: l.candidates, keyAllowed := true }

def closeFlow (l : Lexer) (t : Token) : Option Lexer :=
  l.dropCandidate.map fun l =>
    let rest := if l.inFlow then l.candidates.drop 1 else l.candidates
    { (l.emit t).pass 1 with candidates := rest, keyAllowed := false }

def flowEntry (l : Lexer) : Option Lexer :=
  l.dropCandidate.map fun l => { (l.emit .flowEntry).pass 1 with keyAllowed := true }

def blockMark (l : Lexer) (opens t : Token) (keyAllowed : Bool) : Option Lexer :=
  if !l.inFlow && !l.keyAllowed then none
  else
    let l := l.roll l.place.column l.tokens.size opens
    l.dropCandidate.map fun l => { (l.emit t).pass 1 with keyAllowed }

def value (l : Lexer) : Option Lexer :=
  match l.candidates with
  | some k :: rest =>
    let l := (l.emitAt k.token #[.key]).roll k.column k.token .blockMapping
    some { (l.emit .value).pass 1 with candidates := none :: rest, keyAllowed := false }
  | _ => l.blockMark .blockMapping .value (!l.inFlow)

def nodeStart (l : Lexer) (read : Cursor → Option (Token × Cursor)) : Option Lexer := do
  let l ← l.saveCandidate
  let (t, c) ← read l.place
  return { l.emit t with place := c, keyAllowed := false }

def quoted (l : Lexer) (style : Style) (quote : Char) : Option Lexer :=
  l.nodeStart fun c =>
    (Scalar.quoted? quote (c.rest.length + 1) [] c.skip).map fun (text, c) =>
      (.scalar style (.ofList text), c)

def plain (l : Lexer) : Option Lexer := do
  let l ← l.saveCandidate
  let (text, broken, c) ←
    Scalar.plain? l.inFlow (l.indent + 1).toNat (l.place.rest.length + 1) [] {} l.place
  return { l.emit (.scalar .plain (.ofList text)) with place := c, keyAllowed := broken }

def block (l : Lexer) (style : Style) : Option Lexer := do
  let l ← l.dropCandidate
  let (text, c) ← Scalar.block? (style == .folded) l.indent l.place.skip
  return { l.emit (.scalar style (.ofList text)) with place := c, keyAllowed := true }

def startsPlain (l : Lexer) (x : Char) : Bool :=
  (!Cursor.isSeparator x && !"-?:,[]\x7b\x7d#&*!|>'\"%@`".contains x)
    || (x == '-' && !(l.place.rest.drop 1).head?.any isBlank)
    || (!l.inFlow && (x == '?' || x == ':') && !l.place.separatorAt 1)

def step (l : Lexer) (x : Char) : Option Lexer :=
  let c := l.place
  let mark (t : Token) : Option Lexer := l.atMargin fun c => some (t, c.advance 3)
  if c.column == 0 && x == '%' then l.atMargin directive?
  else if c.atDocumentMark then mark (if x == '-' then .documentStart else .documentEnd)
  else match x with
    | '[' => l.openFlow .flowSequence
    | '\x7b' => l.openFlow .flowMapping
    | ']' => l.closeFlow .flowSequenceEnd
    | '\x7d' => l.closeFlow .flowMappingEnd
    | ',' => l.flowEntry
    | '*' => l.nodeStart fun c => (anchorName? c).map fun (n, c) => (.alias n, c)
    | '&' => l.nodeStart fun c => (anchorName? c).map fun (n, c) => (.anchor n, c)
    | '!' => l.nodeStart (tag? l.inFlow)
    | '\'' => l.quoted .single '\''
    | '"' => l.quoted .double '"'
    | x =>
      if x == '-' && c.separatorAt 1 then l.blockMark .blockSequence .blockEntry true
      else if x == '?' && (l.inFlow || c.separatorAt 1) then
        l.blockMark .blockMapping .key (!l.inFlow)
      else if x == ':' && (l.inFlow || c.separatorAt 1) then l.value
      else if x == '|' && !l.inFlow then l.block .literal
      else if x == '>' && !l.inFlow then l.block .folded
      else if l.startsPlain x then l.plain
      else none

def finish (l : Lexer) : Option Lexer :=
  let c := l.place
  let c := if c.column = 0 then c else { c with column := 0, line := c.line + 1 }
  ({ l with place := c }.unroll (-1)).dropCandidate

def run : (fuel : Nat) → Lexer → Option Lexer
  | 0, _ => none
  | fuel + 1, l => do
    let l := toNext (l.place.rest.length + 1) l
    let l ← l.dropStale
    let l := l.unroll l.place.column
    match l.place.head? with
    | none => l.finish
    | some x => run fuel (← l.step x)

end Lexer

def tokens? (s : String) : Option (List Token) :=
  let cs := s.toList
  if cs.all isAllowed then
    (Lexer.run (cs.length + 2) { place := { rest := cs } }).map (·.tokens.toList)
  else none

end Parley.Yaml
