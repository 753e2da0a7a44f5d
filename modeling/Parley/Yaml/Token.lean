/-!
# YAML tokens

The words a YAML text is made of: brackets of block and flow collections, indicators, properties of
a node, and scalars with the style they were written in.
-/

namespace Parley.Yaml

inductive Style where
  | plain | single | double | literal | folded
deriving DecidableEq, Repr

inductive Token where
  | version (major minor : Nat)
  | handle (name expansion : String)
  | documentStart | documentEnd
  | blockSequence | blockMapping | blockEnd
  | flowSequence | flowSequenceEnd
  | flowMapping | flowMappingEnd
  | blockEntry | flowEntry | key | value
  | alias (name : String)
  | anchor (name : String)
  | tag (handle ending : String)
  | scalar (style : Style) (text : String)
deriving DecidableEq, Repr

end Parley.Yaml
