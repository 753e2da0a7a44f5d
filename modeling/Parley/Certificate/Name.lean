/-!
# Distinguished names

A name is a sequence of attributes, each a type and a value; the sets that group them do not show.
Types may repeat: the values of one type keep their order.
-/

namespace Parley.Certificate

structure Attribute where
  type : String
  value : String
deriving DecidableEq, Repr

structure Name where
  attributes : List Attribute
deriving DecidableEq, Repr

def Attribute.text (a : Attribute) : String := "/" ++ a.type ++ "=" ++ a.value

namespace Name

def ofSets (sets : List (List Attribute)) : Name := ⟨sets.flatten⟩

def text (n : Name) : String := String.join (n.attributes.map Attribute.text)

def values (n : Name) (type : String) : List String :=
  (n.attributes.filter (·.type == type)).map (·.value)

end Name
end Parley.Certificate
