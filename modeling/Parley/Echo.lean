import Parley.Config
import Parley.Logging.Filter
import Parley.Simulation.Binding
import Parley.Text.Quoted
import Parley.Tls.Context

/-!
# The echo server

A server that is run from a configuration file and answers every request with the request's own
body, until it is interrupted. Here is what its life shows from outside: the lines it logs, and the
error that keeps it from starting.
-/

namespace Parley.Echo
open Logging (Event Filter)

def defaultPath : String := "communique.yaml"

structure Run where
  notices : List String := []
  opening : List Event := []
  closing : List Event := []
  outcome : Except Error SocketAddress

def Run.log (r : Run) : List Event := r.opening ++ r.closing

def listening (a : SocketAddress) (tls : Bool) : Event :=
  ⟨.info, "communique_net::server", s!"listening local_addr={a.text} tls={tls}"⟩

def started (a : SocketAddress) (path : String) : Event :=
  ⟨.info, "communique_echo", s!"communique-echo started bound={a.text} config={path}"⟩

def stopped (a : SocketAddress) : Event :=
  ⟨.info, "communique_net::server", s!"stopped addr={a.text}"⟩

def dhAccepted (source : String) : Event :=
  ⟨.debug, "communique_net::tls::material",
    s!"DH parameters accepted; key exchange is ECDHE only source={source}"⟩

def settings (c : Config) : Tls.Settings.Of Id := c.tlsSettings

def furnish (b : Tls.Backend) (disk : Disk) (c : Config) :
    List Event × Except Error (Option (Tls.ServerContext Id)) :=
  let remarks := match (settings c).dh, (settings c).checkDh disk with
    | some source, .ok () => [dhAccepted source.text]
    | _, _ => []
  (remarks, ((settings c).server b disk).mapError Tls.Context.Fault.toError)

def serve (b : Tls.Backend) (disk : Disk) (path : String) (c : Config) (free : Nat) : Run :=
  let (remarks, context) := furnish b disk c
  let bound := do return (← context, ← Simulation.Binding.bind c.server.listen [] free)
  match bound with
  | .error e => { opening := remarks, outcome := .error e }
  | .ok (context, a) =>
    { opening := remarks ++ [listening a context.isSome, started a path]
      closing := [stopped a], outcome := .ok a }

def filter (asked : Option String) (c : Config) : Filter × List String :=
  match asked with
  | none => (.ofLevels c.log, [])
  | some s =>
    let (f, refused) := Filter.read s
    (f, refused.map fun (part, fault) => "ignoring \x60" ++ part ++ "\x60: " ++ fault.message)

/-- A run with the configuration at `path`, where `free` is the port that a listener is given when
it does not ask for one. -/
def run (b : Tls.Backend) (disk : Disk) (path : String) (asked : Option String) (free : Nat) :
    Run :=
  match Config.load disk path with
  | .error f => { outcome := .error f.toError }
  | .ok c =>
    let (filter, notices) := filter asked c
    let r := serve b disk path c free
    { r with
      notices
      opening := r.opening.filter filter.admits
      closing := r.closing.filter filter.admits }

def report : Error → String
  | .transport t => of "Transport" t
  | .format t => of "Format" t
  | .capacity => "Error: Capacity"
  | .notFound t => of "NotFound" t
  | .certificate t => of "Certificate" t
  | .verification t => of "Verification" t
  | .notConnected => "Error: NotConnected"
  | .config t => of "Config" t
where
  of (cause text : String) : String := "Error: " ++ cause ++ "(" ++ Text.Quoted.quote text ++ ")"

end Parley.Echo
