import Parley.Connection.Basic
import Parley.Connection.Registry

/-!
# Servers

What the sessions of a server and its callers share: the registry of live connections, the handlers
for new ones, the place where it listens, and the flag that it is stopping. Each operation here is
one step; `listen`, `stop` and a session take several, and others may come in between.
-/

namespace Parley

/-- Handlers of infos `ι` and of requests `κ`; `ν` says where a server listens. -/
structure Server (ι κ ν : Type) where
  registry : Registry Nat := .empty
  info : Option ι := none
  request : Option κ := none
  running : Option ν := none
  stopping : Bool := false

namespace Server
variable {ω ι κ ν : Type}

instance : Inhabited (Server ι κ ν) := ⟨{}⟩

def alreadyListening : Error := .transport "server already listening"

/-- How long `stop` waits for the connections to go, in milliseconds. -/
def patience : Nat := 10000

def furnish (s : Server ι κ ν) (c : Connection ω ι κ) : Connection ω ι κ :=
  { c with info := s.info <|> c.info, request := s.request <|> c.request }

/-- A session registers its connection, then looks at the flag, and leaves when its pump is done. -/
def enter (s : Server ι κ ν) (id : Nat) : Server ι κ ν :=
  { s with registry := s.registry.insert id id }

def heed (s : Server ι κ ν) (c : Connection ω ι κ) : Connection ω ι κ :=
  if s.stopping then c.close else c

def leave (s : Server ι κ ν) (id : Nat) : Server ι κ ν :=
  { s with registry := (s.registry.remove id).2 }

def lower (s : Server ι κ ν) : Server ι κ ν := { s with stopping := false }

def occupy (s : Server ι κ ν) (place : ν) : Server ι κ ν := { s with running := some place }

/-- A server that stops gives up its place, raises the flag, and closes what is registered. -/
def vacate (s : Server ι κ ν) : Option ν × Server ι κ ν := (s.running, { s with running := none })

def raise (s : Server ι κ ν) : Server ι κ ν := { s with stopping := true }

end Server
end Parley
