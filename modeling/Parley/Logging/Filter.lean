import Parley.Logging
import Parley.Text.Blank
import Parley.Text.Number

/-!
# Log filters

A filter is a list of directives with commas between them: a threshold for all targets, or one for
the targets that start with a given text. Of the directives that fit a target the longest decides,
and of equal ones the last.
-/

namespace Parley.Logging

structure Event where
  level : Level
  target : String
  text : String
deriving DecidableEq, Repr

def Event.line (e : Event) : String := e.level.name.toUpper ++ " " ++ e.target ++ ": " ++ e.text

/-- The empty target stands for all. Without a threshold nothing passes. -/
structure Directive where
  target : String := ""
  threshold : Option Level
deriving DecidableEq, Repr

namespace Directive

inductive Fault where
  | malformed
  | level
deriving DecidableEq, Repr

def Fault.message : Fault → String
  | malformed => "invalid filter directive"
  | level => "error parsing level filter: expected one of \"off\", \"error\", \"warn\", \"info\", "
      ++ "\"debug\", \"trace\", or a number 0-5"

def thresholds : List (Option Level) :=
  [none, some .error, some .warn, some .info, some .debug, some .trace]

def threshold? (s : String) : Option (Option Level) :=
  match Text.Number.bounded? 10 5 s.toList with
  | some n => thresholds[n]?
  | none => thresholds.find? fun t => Levels.threshold t == s.toLower

def isStart (c : Char) : Bool := c.isAlphanum || c == '-' || c == ':' || c == '_' || 127 < c.toNat

def read (s : String) : Except Fault Directive := do
  let cs := Text.trimEnd (s.toList.dropWhile Text.isBlank)
  unless cs.head?.all isStart && !cs.contains '[' do throw .malformed
  let target := String.ofList (cs.takeWhile (· != '='))
  match cs.dropWhile (· != '=') with
  | [] => return ((threshold? target).map ({ threshold := · })).getD ⟨target, some .trace⟩
  | [_] => return ⟨target, some .trace⟩
  | _ :: level =>
    match threshold? (.ofList level) with
    | some threshold => return ⟨target, threshold⟩
    | none => throw .level

def admits (d : Directive) (target : String) : Bool := target.startsWith d.target

end Directive

structure Filter where
  directives : List Directive
deriving DecidableEq, Repr

namespace Filter

def fallback : Filter := ⟨[{ threshold := some .error }]⟩

def read (s : String) : Filter × List (String × Directive.Fault) :=
  let parts := (s.splitOn ",").filter (· != "")
  let read := parts.filterMap fun p => (Directive.read p).toOption
  let refused := parts.filterMap fun p =>
    match Directive.read p with
    | .ok _ => none
    | .error f => some (p, f)
  (if read.isEmpty then fallback else ⟨read⟩, refused)

def ofLevels (l : Levels) : Filter := (read l.directives).1

def deciding? (f : Filter) (target : String) : Option Directive :=
  (f.directives.filter (·.admits target)).foldl
    (fun best d =>
      if best.any fun b => d.target.length < b.target.length then best else some d) none

def admits (f : Filter) (e : Event) : Bool :=
  ((f.deciding? e.target).bind (·.threshold)).any fun t => e.level.rank ≤ t.rank

end Filter
end Parley.Logging
