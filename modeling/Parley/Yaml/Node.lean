import Parley.Yaml.Lexer

/-!
# YAML nodes

The tree that a YAML document writes, with aliases replaced by what they stand for. Entries of a
mapping keep their order and are not compared: what a key twice means is the reader's rule.
-/

namespace Parley.Yaml

inductive Node where
  | scalar (tag : Option String) (style : Style) (text : String)
  | sequence (tag : Option String) (items : List Node)
  | mapping (tag : Option String) (entries : List (Node × Node))
deriving Repr

namespace Node

def absent : Node := .scalar none .plain ""

end Node

/-- Tokens left, what the anchors met so far stand for, and the handles of tags. A collection that
is still open stands for nothing. -/
structure Reading where
  tokens : List Token
  anchors : List (String × Option Node) := []
  handles : List (String × String) := []

abbrev Reader := StateT Reading Option

namespace Reader

def peek : Reader (Option Token) := return (← get).tokens.head?

def skip : Reader Unit := modify fun r => { r with tokens := r.tokens.drop 1 }

def next? (t : Token) : Reader Bool := do
  if (← peek) == some t then skip; return true else return false

def expect (t : Token) : Reader Unit := do
  if !(← next? t) then failure

def isNext (ts : List Token) : Reader Bool := return (← peek).any ts.contains

def name (anchor : Option String) (n : Option Node) : Reader Unit :=
  modify fun r => { r with anchors := (anchor.map (·, n)).toList ++ r.anchors }

def lookUp (anchor : String) : Reader Node := do
  let found := (← get).anchors.lookup anchor
  found.join.elim failure pure

def fullTag (handle ending : String) : Reader String := do
  if handle.isEmpty then return ending
  match (← get).handles.lookup handle with
  | some expansion => return expansion ++ ending
  | none => failure

def anchor? : Reader (Option String) := do
  match ← peek with
  | some (.anchor n) => skip; return some n
  | _ => return none

def tag? : Reader (Option String) := do
  match ← peek with
  | some (.tag h e) => skip; return some (← fullTag h e)
  | _ => return none

def properties : Reader (Option String × Option String) := do
  match ← anchor? with
  | some a => return (some a, ← tag?)
  | none =>
    let t ← tag?
    if t.isSome then return (← anchor?, t) else return (none, none)

/-- Where a node may stand: in a flow collection, in a block, or as a part of a mapping, where a
sequence needs no indentation of its own. -/
inductive Position where
  | flow | block | part
deriving DecidableEq

mutual

def node : (fuel : Nat) → Position → Reader Node
  | 0, _ => failure
  | fuel + 1, p => do
    if let some (.alias n) ← peek then
      skip
      return ← lookUp n
    let (anchor, tag) ← properties
    let collection (make : Reader Node) : Reader Node := do
      name anchor none
      let n ← make
      name anchor (some n)
      return n
    let inBlock := p != .flow
    match ← peek with
    | some (.scalar style text) =>
      skip
      let n := Node.scalar (tag.filter (· != "!")) style text
      name anchor (some n)
      return n
    | some .flowSequence => collection do skip; return .sequence tag (← flowItems fuel true)
    | some .flowMapping => collection do skip; return .mapping tag (← flowEntries fuel true)
    | t =>
      if t == some .blockEntry && p == .part then
        collection do return .sequence tag (← indentless fuel)
      else if t == some .blockSequence && inBlock then
        collection do skip; return .sequence tag (← blockItems fuel)
      else if t == some .blockMapping && inBlock then
        collection do skip; return .mapping tag (← blockEntries fuel)
      else if anchor.isSome || tag.isSome then
        let n := Node.scalar tag .plain ""
        name anchor (some n)
        return n
      else failure

def nodeUnless : (fuel : Nat) → Position → List Token → Reader Node
  | 0, _, _ => failure
  | fuel + 1, p, ends => do
    if ← isNext ends then return .absent else node fuel p

def blockItems : (fuel : Nat) → Reader (List Node)
  | 0 => failure
  | fuel + 1 => do
    if ← next? .blockEnd then return []
    expect .blockEntry
    let n ← nodeUnless fuel .block [.blockEntry, .blockEnd]
    return n :: (← blockItems fuel)

def indentless : (fuel : Nat) → Reader (List Node)
  | 0 => failure
  | fuel + 1 => do
    if ← next? .blockEntry then
      let n ← nodeUnless fuel .block [.blockEntry, .key, .value, .blockEnd]
      return n :: (← indentless fuel)
    else return []

def blockEntries : (fuel : Nat) → Reader (List (Node × Node))
  | 0 => failure
  | fuel + 1 => do
    let ends := [Token.key, .value, .blockEnd]
    if ← next? .blockEnd then return []
    expect .key
    let k ← nodeUnless fuel .part ends
    let v ← if ← next? .value then nodeUnless fuel .part ends else pure .absent
    return (k, v) :: (← blockEntries fuel)

def flowEntries : (fuel : Nat) → (first : Bool) → Reader (List (Node × Node))
  | 0, _ => failure
  | fuel + 1, first => do
    if ← next? .flowMappingEnd then return []
    if !first then
      expect .flowEntry
      if ← next? .flowMappingEnd then return []
    if ← next? .key then
      let k ← nodeUnless fuel .flow [.value, .flowEntry, .flowMappingEnd]
      let v ← if ← next? .value then nodeUnless fuel .flow [.flowEntry, .flowMappingEnd]
        else pure .absent
      return (k, v) :: (← flowEntries fuel false)
    else
      let k ← node fuel .flow
      return (k, .absent) :: (← flowEntries fuel false)

def flowItems : (fuel : Nat) → (first : Bool) → Reader (List Node)
  | 0, _ => failure
  | fuel + 1, first => do
    if ← next? .flowSequenceEnd then return []
    if !first then
      expect .flowEntry
      if ← next? .flowSequenceEnd then return []
    if ← next? .key then
      let k ← nodeUnless fuel .flow [.value, .flowEntry, .flowSequenceEnd]
      let v ← if ← next? .value then nodeUnless fuel .flow [.flowEntry, .flowSequenceEnd]
        else pure .absent
      return .mapping none [(k, v)] :: (← flowItems fuel false)
    else
      let n ← node fuel .flow
      return n :: (← flowItems fuel false)

end

def defaultHandles : List (String × String) := [("!", "!"), ("!!", "tag:yaml.org,2002:")]

/-- Directives in front of a document: one version, and each handle once. Tells whether there are
any. -/
def directives : (fuel : Nat) → (versioned : Bool) → (handles : List (String × String)) →
    Reader Bool
  | 0, _, _ => failure
  | fuel + 1, versioned, handles => do
    match ← peek with
    | some (.version major minor) =>
      if versioned || major != 1 || (minor != 1 && minor != 2) then failure
      skip
      directives fuel true handles
    | some (.handle n e) =>
      if (handles.lookup n).isSome then failure
      skip
      directives fuel versioned ((n, e) :: handles)
    | _ =>
      modify fun r => { r with handles := handles ++ defaultHandles }
      return versioned || !handles.isEmpty

def document : Reader Node := do
  let fuel := 4 * (← get).tokens.length + 4
  let directed ← directives fuel false []
  let n ←
    if directed || (← isNext [.documentStart]) then
      expect .documentStart
      let empty := (← isNext [.documentStart, .documentEnd]) || (← peek).isNone
        || (← peek).any fun t => match t with
          | .version .. => true
          | .handle .. => true
          | _ => false
      if empty then pure .absent else node fuel .block
    else node fuel .block
  modify fun r => { r with tokens := r.tokens.dropWhile (· == .documentEnd) }
  if (← peek).isSome then failure
  return n

end Reader

def Node.parse? (s : String) : Option Node := do
  let ts ← tokens? s
  let (n, _) ← Reader.document { tokens := ts }
  return n

end Parley.Yaml
