import Parley.Text.Number
import Parley.Yaml.Cursor

/-!
# YAML scalars

Reads the text of a quoted, plain or block scalar. Inside a scalar of several lines one line break
is a space, more are one less; a block scalar keeps its breaks or folds them the same way.
-/

namespace Parley.Yaml

structure Gap where
  blanks : List Char := []
  first : Option Char := none
  more : List Char := []
  broken : Bool := false

namespace Gap

def text (g : Gap) : List Char :=
  if !g.broken then g.blanks
  else match g.first with
    | some '\n' => if g.more.isEmpty then [' '] else g.more
    | some c => c :: g.more
    | none => g.more

/-- Reads a gap. A tab that indents a line by less than `indent` is refused. -/
def read? (indent : Nat) : (fuel : Nat) → Gap → Cursor → Option (Gap × Cursor)
  | 0, g, c => some (g, c)
  | fuel + 1, g, c =>
    match c.lineBreak? with
    | some (b, c) =>
      if g.broken then read? indent fuel { g with more := g.more ++ [b] } c
      else read? indent fuel { g with blanks := [], first := some b, broken := true } c
    | none =>
      match c.head? with
      | some b =>
        if !isBlank b then some (g, c)
        else if g.broken then
          if b == '\t' && c.column < indent then none else read? indent fuel g c.skip
        else read? indent fuel { g with blanks := g.blanks ++ [b] } c.skip
      | none => some (g, c)

end Gap

namespace Scalar

def escaped? : Char → Option Char
  | '0' => some '\x00'
  | 'a' => some '\x07'
  | 'b' => some '\x08'
  | 't' => some '\t'
  | '\t' => some '\t'
  | 'n' => some '\n'
  | 'v' => some '\x0b'
  | 'f' => some '\x0c'
  | 'r' => some '\r'
  | 'e' => some '\x1b'
  | ' ' => some ' '
  | '"' => some '"'
  | '/' => some '/'
  | '\\' => some '\\'
  | 'N' => some '\u0085'
  | '_' => some '\u00a0'
  | 'L' => some '\u2028'
  | 'P' => some '\u2029'
  | _ => none

def escapeWidth? : Char → Option Nat
  | 'x' => some 2
  | 'u' => some 4
  | 'U' => some 8
  | _ => none

def ofCode? (n : Nat) : Option Char := if n.isValidChar then some (Char.ofNat n) else none

def escape? (c : Cursor) : Option (Char × Cursor) :=
  match c.rest with
  | _ :: letter :: rest =>
    match escaped? letter with
    | some x => some (x, c.advance 2)
    | none => do
      let width ← escapeWidth? letter
      let digits := rest.take width
      if digits.length < width then none
      let code ← Text.Number.read? 16 digits
      return (← ofCode? code, c.advance (2 + width))
  | _ => none

def quotedRun (quote : Char) : (fuel : Nat) → Cursor → Option (List Char × Bool × Cursor)
  | 0, c => some ([], false, c)
  | fuel + 1, c =>
    let more (x : Char) (c : Cursor) :=
      (quotedRun quote fuel c).map fun (run, broken, c) => (x :: run, broken, c)
    match c.head? with
    | none => some ([], false, c)
    | some x =>
      if Cursor.isSeparator x then some ([], false, c)
      else if quote == '\'' && c.startsWith "''" then more '\'' (c.advance 2)
      else if x == quote then some ([], false, c)
      else if quote == '"' && x == '\\' then
        match c.skip.lineBreak? with
        | some (_, c) => some ([], true, c)
        | none => (escape? c).bind fun (e, c) => more e c
      else more x c.skip

def quoted? (quote : Char) : (fuel : Nat) → List Char → Cursor → Option (List Char × Cursor)
  | 0, _, _ => none
  | fuel + 1, acc, c => do
    if c.atDocumentMark || c.rest.isEmpty then none
    let (run, broken, c) ← quotedRun quote (c.rest.length + 1) c
    if c.head? == some quote then return (acc ++ run, c.skip)
    let (gap, c) ← Gap.read? 0 (c.rest.length + 1) { broken } c
    quoted? quote fuel (acc ++ run ++ gap.text) c

def isFlowIndicator (c : Char) : Bool := ",[]\x7b\x7d".contains c

def endsPlain (inFlow : Bool) (c : Cursor) : Bool :=
  match c.head? with
  | some ':' => c.separatorAt 1
  | some x => inFlow && isFlowIndicator x
  | none => true

def plainRun (inFlow : Bool) : (fuel : Nat) → Cursor → Option (List Char × Cursor)
  | 0, c => some ([], c)
  | fuel + 1, c =>
    match c.rest with
    | [] => some ([], c)
    | x :: rest =>
      if Cursor.isSeparator x then some ([], c)
      else if inFlow && x == ':' && rest.head?.any fun y => y == '?' || isFlowIndicator y then none
      else if endsPlain inFlow c then some ([], c)
      else (plainRun inFlow fuel c.skip).map fun (run, c) => (x :: run, c)

def plain? (inFlow : Bool) (indent : Nat) :
    (fuel : Nat) → List Char → Gap → Cursor → Option (List Char × Bool × Cursor)
  | 0, acc, gap, c => some (acc, gap.broken, c)
  | fuel + 1, acc, gap, c => do
    if c.atDocumentMark || c.head? == some '#' then return (acc, gap.broken, c)
    let (run, c) ← plainRun inFlow (c.rest.length + 1) c
    let acc := if run.isEmpty then acc else acc ++ gap.text ++ run
    let gap : Gap := if run.isEmpty then gap else {}
    match c.head? with
    | some x =>
      if !Cursor.isSeparator x then return (acc, gap.broken, c)
      let (gap, c) ← Gap.read? indent (c.rest.length + 1) gap c
      if !inFlow && c.column < indent then return (acc, gap.broken, c)
      plain? inFlow indent fuel acc gap c
    | none => return (acc, gap.broken, c)

inductive Chomp where
  | clip | strip | keep
deriving DecidableEq

structure Header where
  chomp : Chomp := .clip
  indent : Option Nat := none

def chomp? : Char → Option Chomp
  | '+' => some .keep
  | '-' => some .strip
  | _ => none

def header? (c : Cursor) : Option (Header × Cursor) :=
  let digit? (c : Cursor) : Option (Option Nat × Cursor) :=
    match c.head? with
    | some x => if x.isDigit then
        if x == '0' then none else some (some (x.toNat - 48), c.skip)
      else some (none, c)
    | none => some (none, c)
  let sign (c : Cursor) : Option Chomp × Cursor :=
    match c.head?.bind chomp? with
    | some s => (some s, c.skip)
    | none => (none, c)
  match sign c with
  | (some chomp, c) => (digit? c).map fun (indent, c) => (⟨chomp, indent⟩, c)
  | (none, c) => (digit? c).map fun (indent, c) =>
    match indent with
    | some _ => let (s, c) := sign c; (⟨s.getD .clip, indent⟩, c)
    | none => (⟨.clip, none⟩, c)

/-- Line breaks and indentation in front of a line of text, with the deepest column met. Without an
indentation to stop at, all spaces are indentation; a tab in its place is refused. -/
def blockBreaks? (indent : Option Nat) :
    (fuel : Nat) → (deepest : Nat) → List Char → Cursor → Option (Nat × List Char × Cursor)
  | 0, deepest, acc, c => some (deepest, acc, c)
  | fuel + 1, deepest, acc, c =>
    let spaces := (c.rest.takeWhile (· == ' ')).length
    let c := c.advance (match indent with
      | some n => min spaces (n - c.column)
      | none => spaces)
    let deepest := max deepest c.column
    if c.head? == some '\t' && indent.all (c.column < ·) then none
    else match c.lineBreak? with
      | some (b, c) => blockBreaks? indent fuel deepest (acc ++ [b]) c
      | none => some (deepest, acc, c)

structure Block where
  text : List Char := []
  lead : Option Char := none
  trail : List Char := []
  blankLead : Bool := false

def blockLines? (folded : Bool) (indent : Nat) :
    (fuel : Nat) → Block → Cursor → Option (Block × Cursor)
  | 0, b, c => some (b, c)
  | fuel + 1, b, c =>
    if c.column != indent || c.rest.isEmpty then some (b, c)
    else do
      let blank := c.head?.any isBlank
      let joint := if folded && b.lead == some '\n' && !b.blankLead && !blank then
          if b.trail.isEmpty then [' '] else []
        else b.lead.toList
      let (line, c) := c.takeWhile (!isBreak ·)
      let (lead, c) := match c.lineBreak? with
        | some (x, c) => (some x, c)
        | none => (none, c)
      let (_, trail, c) ← blockBreaks? (some indent) (c.rest.length + 1) 0 [] c
      blockLines? folded indent fuel
        { text := b.text ++ joint ++ b.trail ++ line, lead, trail, blankLead := blank } c

def block? (folded : Bool) (parent : Int) (c : Cursor) : Option (List Char × Cursor) := do
  let (h, c) ← header? c
  let c ← c.restOfLine?
  let given := h.indent.map fun n => (max parent 0).toNat + n
  let (deepest, trail, c) ← blockBreaks? given (c.rest.length + 1) 0 [] c
  let indent := given.getD (max deepest (max (parent + 1) 1).toNat)
  let (b, c) ← blockLines? folded indent (c.rest.length + 1) { trail } c
  let text := if h.chomp == .strip then b.text else b.text ++ b.lead.toList
  return (if h.chomp == .keep then text ++ b.trail else text, c)

end Scalar
end Parley.Yaml
