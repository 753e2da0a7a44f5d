import Parley.Certificate.Name

/-!
# The two views of a name

A name is shown on one line, and its values are looked up by their type. Both views are built in one
pass over the sets of attributes: every attribute is written behind the line, and its value is put
behind those of its type.
-/

namespace Parley.Certificate

abbrev Groups := List (String × List String)

namespace Groups

def values (groups : Groups) (type : String) : List String :=
  ((groups.find? (·.1 == type)).map (·.2)).getD []

def put (type value : String) : Groups → Groups
  | [] => [(type, [value])]
  | g :: rest =>
    if g.1 = type then (type, g.2 ++ [value]) :: rest
    else if type < g.1 then (type, [value]) :: g :: rest
    else g :: put type value rest

def attributes (groups : Groups) : List Attribute := groups.flatMap fun g => g.2.map (⟨g.1, ·⟩)

end Groups

structure Views where
  line : String := ""
  groups : Groups := []
deriving DecidableEq, Repr

namespace Views

def add (v : Views) (a : Attribute) : Views where
  line := v.line ++ a.text
  groups := v.groups.put a.type a.value

def ofSets (sets : List (List Attribute)) : Views :=
  sets.foldl (fun v set => set.foldl add v) {}

def types (v : Views) : List String := v.groups.map (·.1)

def values (v : Views) (type : String) : List String := v.groups.values type

def value? (v : Views) (type : String) (i : Nat) : Option String := (v.values type)[i]?

def count (v : Views) (type : String) : Nat := (v.values type).length

end Views

def Name.views (n : Name) : Views := n.attributes.foldl Views.add {}

end Parley.Certificate
