import Parley.Text.Hex
import Parley.Text.Printable

/-!
# Quoted text

A text between double quotes, for messages: backslash, quote and the common controls have a short
escape, other characters that are not printable stand as `\\u` with their code point in braces.
-/

namespace Parley.Text.Quoted

def escape (c : Char) : List Char :=
  match c with
  | '\\' => ['\\', '\\']
  | '"' => ['\\', '"']
  | '\n' => ['\\', 'n']
  | '\r' => ['\\', 'r']
  | '\t' => ['\\', 't']
  | '\x00' => ['\\', '0']
  | c =>
    if Printable.isPrintable c then [c]
    else ['\\', 'u', '\x7b'] ++ (Hex.ofNat c.toNat).toList ++ ['\x7d']

def quote (s : String) : String := .ofList ('"' :: s.toList.flatMap escape ++ ['"'])

def optional (text : Option String) : String :=
  match text with
  | some t => "Some(" ++ t ++ ")"
  | none => "None"

end Parley.Text.Quoted
