import Parley.Text.Base64
import Parley.Text.Blank

/-!
# PEM

Two readings of the same format. `blocks` goes line by line through text and reports each block or
what is wrong with it; `sections` goes through octets, knows a fixed set of labels, drops the body
of any other and stops at the first error.
-/

namespace Parley.Pem

def splitLines (ends : UInt8 → Bool) : Bytes → List Bytes
  | [] => [[]]
  | b :: rest =>
    if ends b then [] :: splitLines ends rest
    else (splitLines ends rest).modifyHead (b :: ·)

def dashes : Bytes := Bytes.ofString "-----"

def beginMark : Bytes := Bytes.ofString "-----BEGIN "

def endMark : Bytes := Bytes.ofString "-----END "

inductive Fault where
  | badHeader
  | incomplete
  | badBase64
  | notText
deriving DecidableEq, Repr

def Fault.message : Fault → String
  | badHeader => "invalid header"
  | incomplete => "incomplete PEM"
  | badBase64 => "base64 decode error"
  | notText => "IO error: stream did not contain valid UTF-8"

structure Block where
  label : Bytes
  content : Bytes
deriving DecidableEq, Repr

def containsDashes : Bytes → Bool
  | [] => false
  | b :: rest => dashes.isPrefixOf (b :: rest) || containsDashes rest

def blockLabel? (line : Bytes) : Option Bytes :=
  let rest := line.drop beginMark.length
  if containsDashes rest then some (rest.takeWhile (· != 45)) else none

def block (label body : Bytes) : Except Fault Block :=
  match Text.Base64.decode? body with
  | some content => .ok ⟨label, content⟩
  | none => .error .badBase64

def bodyText (s : String) : Bytes := Bytes.ofString (.ofList (Text.trimEnd s.toList))

/-- Goes on behind the line that began a block, or between blocks. An error ends a block where it
is found. -/
def blocksFrom : Option (Bytes × Bytes) → List Bytes → List (Except Fault Block)
  | none, [] => []
  | some _, [] => [.error .incomplete]
  | inside, line :: rest =>
    match String.fromUTF8? ⟨line.toArray⟩, inside with
    | none, _ => .error .notText :: blocksFrom none rest
    | some s, some (label, body) =>
      if endMark.isPrefixOf line then block label body :: blocksFrom none rest
      else blocksFrom (some (label, body ++ bodyText s)) rest
    | some _, none =>
      if beginMark.isPrefixOf line then
        match blockLabel? line with
        | some label => blocksFrom (some (label, [])) rest
        | none => .error .badHeader :: blocksFrom none rest
      else blocksFrom none rest

def blocks (pem : Bytes) : List (Except Fault Block) := blocksFrom none (splitLines (· == 10) pem)

inductive Label where
  | certificate | publicKey | rsaKey | key | ecKey | crl | request | ech
deriving DecidableEq, Repr

def Label.name : Label → String
  | certificate => "CERTIFICATE"
  | publicKey => "PUBLIC KEY"
  | rsaKey => "RSA PRIVATE KEY"
  | key => "PRIVATE KEY"
  | ecKey => "EC PRIVATE KEY"
  | crl => "X509 CRL"
  | request => "CERTIFICATE REQUEST"
  | ech => "ECHCONFIG"

def Label.ofText? (text : Bytes) : Option Label :=
  [certificate, publicKey, rsaKey, key, ecKey, crl, request, ech].find? fun l =>
    Bytes.ofString l.name == text

def Label.isKey : Label → Bool
  | rsaKey | key | ecKey => true
  | _ => false

structure Section where
  label : Label
  content : Bytes
deriving DecidableEq, Repr

structure Sections where
  read : List Section
  clean : Bool
deriving DecidableEq, Repr

def trailer : Bytes → Nat × Bytes
  | [] => (0, [])
  | b :: rest =>
    if b == 45 then
      let (n, before) := trailer rest
      (n + 1, before)
    else if b == 32 then
      let (n, before) := trailer rest
      if n = 0 then (0, b :: rest) else (n, before)
    else (0, b :: rest)

def sectionLabel? (line : Bytes) : Option Bytes :=
  let reversed := line.reverse.dropWhile (· == 32)
  let (n, before) := trailer reversed
  if n = 5 then some (before.reverse.drop beginMark.length) else none

def Sections.push (s : Section) (rest : Sections) : Sections := { rest with read := s :: rest.read }

/-- Goes on inside a section with the label, with the text collected so far, or between sections. A
new beginning inside a section changes the label and keeps the text. -/
def sectionsFrom : Option Bytes → (text : Bytes) → List Bytes → Sections
  | none, _, [] => ⟨[], true⟩
  | some _, _, [] => ⟨[], false⟩
  | inside, text, line :: rest =>
    if beginMark.isPrefixOf line then
      match sectionLabel? line with
      | some label => sectionsFrom (some label) text rest
      | none => ⟨[], false⟩
    else
      match inside with
      | none => sectionsFrom none text rest
      | some label =>
        if (endMark ++ label ++ dashes).isPrefixOf line then
          match Label.ofText? label with
          | none => sectionsFrom none [] rest
          | some known =>
            match Text.Base64.decodeLoose? text with
            | some content => (sectionsFrom none [] rest).push ⟨known, content⟩
            | none => ⟨[], false⟩
        else sectionsFrom inside (text ++ line) rest

def sections (pem : Bytes) : Sections :=
  sectionsFrom none [] (splitLines (fun b => b == 10 || b == 13) pem)

end Parley.Pem
