/-!
# Registries

The live connections of a server, each under its id, with a count beside them for whoever waits
until all are gone. A change of the set and the change of the count are two steps; `insert` and
`remove` take both.
-/

namespace Parley

structure Registry (α : Type u) where
  live : List (Nat × α) := []
  count : Nat := 0

namespace Registry
variable {α : Type u}

def empty : Registry α := {}

instance : Inhabited (Registry α) := ⟨empty⟩

def contains (r : Registry α) (id : Nat) : Bool := r.live.any (·.1 == id)

def get? (r : Registry α) (id : Nat) : Option α := (r.live.find? (·.1 == id)).map (·.2)

/-- The first step of `insert`. Tells whether the id is new. -/
def put (r : Registry α) (id : Nat) (value : α) : Bool × Registry α :=
  if r.contains id then
    (false, { r with live := r.live.map fun e => if e.1 == id then (id, value) else e })
  else (true, { r with live := r.live ++ [(id, value)] })

def countUp (r : Registry α) : Registry α := { r with count := r.count + 1 }

def insert (r : Registry α) (id : Nat) (value : α) : Registry α :=
  let (fresh, r) := r.put id value
  if fresh then r.countUp else r

/-- The first step of `remove`. -/
def take (r : Registry α) (id : Nat) : Option α × Registry α :=
  (r.get? id, { r with live := r.live.filter (·.1 != id) })

def countDown (r : Registry α) : Registry α := { r with count := r.count - 1 }

def remove (r : Registry α) (id : Nat) : Option α × Registry α :=
  match r.take id with
  | (some value, r) => (some value, r.countDown)
  | (none, r) => (none, r)

def snapshot (r : Registry α) : List α := r.live.map (·.2)

def size (r : Registry α) : Nat := r.live.length

def isEmpty (r : Registry α) : Bool := r.live.isEmpty

/-- What whoever waits for an empty registry looks at. -/
def drained (r : Registry α) : Bool := r.count = 0

end Registry
end Parley
