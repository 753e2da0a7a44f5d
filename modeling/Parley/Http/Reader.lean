import Parley.Bytes

/-!
# Reading a stream

Readers for text that arrives piece by piece: a reader takes a value off the front of what has
arrived, sees that it is wrong, or sees that more has to arrive first. What is wrong shows as early
as it can.
-/

namespace Parley.Http

inductive Fault where
  | malformed
  | tooManyHeaders
  | targetTooLong
deriving DecidableEq, Repr

inductive Stop where
  | short
  | bad (fault : Fault)
deriving DecidableEq, Repr

abbrev Reader := StateT Bytes (Except Stop)

namespace Reader

def wrong {α : Type} : Reader α := throw (.bad .malformed)

def next : Reader UInt8 := do
  match ← get with
  | [] => throw .short
  | b :: rest => set rest; return b

def span (p : UInt8 → Bool) : Reader Bytes := do
  let input ← get
  match input.dropWhile p with
  | [] => throw .short
  | rest => set rest; return input.takeWhile p

def one (b : UInt8) : Reader Unit := do
  unless (← next) == b do wrong

def text : List UInt8 → Reader Unit
  | [] => return
  | b :: rest => do one b; text rest

def cr : UInt8 := 13
def lf : UInt8 := 10
def space : UInt8 := 32

def restOfEnd (first : UInt8) : Reader Unit :=
  if first == cr then one lf else if first == lf then return else wrong

def lineEnd : Reader Unit := do restOfEnd (← next)

def emptyLines : Nat → Reader Unit
  | 0 => return
  | left + 1 => do
    match ← get with
    | [] => throw .short
    | b :: rest =>
      if b == cr || b == lf then
        set rest
        restOfEnd b
        emptyLines left

end Reader
end Parley.Http
