import Parley.Http.Reader
import Parley.Text.Number

/-!
# Heads of messages

The start line and the header fields of an HTTP/1 request or response, read from a stream and
written. Field names are kept in lower case.
-/

namespace Parley.Http

structure Field where
  name : String
  value : Bytes
deriving DecidableEq, Repr

structure Request where
  method : String
  target : String
  minor : Nat
  fields : List Field
deriving DecidableEq, Repr

structure Response where
  minor : Nat := 1
  status : Nat
  reason : String
  fields : List Field
  body : Bytes := []
deriving DecidableEq, Repr

def ascii (b : Bytes) : String := .ofList (b.map fun o => Char.ofNat o.toNat)

def lower (s : String) : String := .ofList (s.toList.map Char.toLower)

def isTokenChar (b : UInt8) : Bool :=
  let c := Char.ofNat b.toNat
  c.isAlphanum || "!#$%&'*+-.^_|~".contains c || b == 0x60

def isTargetChar (b : UInt8) : Bool :=
  0x21 ≤ b && b != 0x7f && b != 0x22 && b != 0x3c && b != 0x3e

def isValueChar (b : UInt8) : Bool := b == 9 || (0x20 ≤ b && b != 0x7f)

def isGap (b : UInt8) : Bool := b == 9 || b == 0x20

def maxFields : Nat := 100

namespace Reader

def word (p : UInt8 → Bool) (separator : UInt8) : Reader Bytes := do
  let w ← span p
  one separator
  if w.isEmpty then wrong
  return w

def version : Reader Nat := do
  text (Bytes.ofString "HTTP/1.")
  let b ← next
  if b == 0x30 then return 0
  if b == 0x31 then return 1
  wrong

def field : Reader Field := do
  let name ← word isTokenChar 0x3a
  let _ ← span isGap
  let value ← span isValueChar
  lineEnd
  return ⟨lower (ascii name), (value.reverse.dropWhile isGap).reverse⟩

def atEnd : Reader Bool := do
  match ← get with
  | [] => throw .short
  | b :: rest =>
    if b == cr || b == lf then
      set rest
      restOfEnd b
      return true
    else return false

def fields : (limit : Nat) → Reader (List Field)
  | 0 => do if ← atEnd then return [] else throw (.bad .tooManyHeaders)
  | limit + 1 => do
    if ← atEnd then return []
    let f ← field
    return f :: (← fields limit)

def request : Reader Request := do
  emptyLines (← get).length
  let method ← word isTokenChar space
  let target ← word isTargetChar space
  let minor ← version
  lineEnd
  return ⟨ascii method, ascii target, minor, ← fields maxFields⟩

def digit : Reader Nat := do
  let b ← next
  if 0x30 ≤ b && b ≤ 0x39 then return b.toNat - 0x30 else wrong

def response (maxFields : Nat) : Reader Response := do
  emptyLines (← get).length
  let minor ← version
  one space
  let status := (← digit) * 100 + (← digit) * 10 + (← digit)
  let first ← next
  let reason ← if first == space then do
      let r ← span isValueChar
      lineEnd
      pure r
    else do
      restOfEnd first
      pure []
  return { minor, status, reason := ascii reason, fields := ← fields maxFields }

end Reader

def find (fields : List Field) (name : String) : Option Bytes :=
  (fields.find? (·.name == name)).map (·.value)

def Field.line (f : Field) : Bytes := Bytes.ofString (f.name ++ ": ") ++ f.value ++ [13, 10]

namespace Request

def field? (r : Request) (name : String) : Option Bytes := find r.fields name

def encode (r : Request) : Bytes :=
  Bytes.ofString s!"{r.method} {r.target} HTTP/1.{r.minor}\r\n" ++ r.fields.flatMap Field.line
    ++ [13, 10]

end Request

namespace Response

def field? (r : Response) (name : String) : Option Bytes := find r.fields name

def encode (r : Response) : Bytes :=
  Bytes.ofString s!"HTTP/1.{r.minor} {r.status} {r.reason}\r\n" ++ r.fields.flatMap Field.line
    ++ [13, 10] ++ r.body

end Response

def sameWord (value : Bytes) (word : String) : Bool := lower (ascii value) == word

def elements (value : Bytes) : List String :=
  (lower (ascii value)).splitOn "," |>.map fun e =>
    .ofList ((e.toList.dropWhile (· == ' ')).reverse.dropWhile (· == ' ')).reverse

end Parley.Http
