import Parley.Connection.Basic

/-!
# Clients

A client keeps its settings and handlers from one connection to the next, and has one connection at
a time.
-/

namespace Parley

/-- Settings `σ`, handlers of infos `ι` and of requests `κ`. -/
structure Client (σ ι κ : Type) where
  settings : σ
  info : Option ι := none
  request : Option κ := none
  active : Option Nat := none

namespace Client
variable {ω σ ι κ : Type}

def alreadyConnected : Error := .transport "client already connected"

/-- Room for a new connection: the latest one has to be closed, and is given up. -/
def release (c : Client σ ι κ) (state : Nat → Lifecycle) : Except Error (Client σ ι κ) :=
  match c.active with
  | some id => if state id = .closed then .ok { c with active := none } else .error alreadyConnected
  | none => .ok c

def launch {δ : Type} (c : Client σ ι κ) (prepared : Except Error δ) (id : Nat) :
    Except Error δ × Client σ ι κ :=
  match prepared with
  | .ok d => (.ok d, { c with active := some id })
  | .error e => (.error e, c)

def fresh (c : Client σ ι κ) : Connection ω ι κ :=
  { state := .connecting, info := c.info, request := c.request }

end Client
end Parley
