import Parley.Simulation.Stream
import Parley.WebSocket.Service

/-!
# Setting up

How a client gets its stream and has it upgraded, and what a server does with a stream until then.
-/

namespace Parley.Simulation

/-- The key that clients ask for an upgrade with. Any key of sixteen octets does. -/
def upgradeKey : Bytes := Text.Base64.encode (Bytes.ofString "sixteen octets !")

def reaches (target : String) (listening : SocketAddress) : Bool :=
  let v4 := target == "127.0.0.1" || target == "localhost" || target == "0.0.0.0"
  let v6 := target == "::1" || target == "::"
  match listening.ip with
  | "127.0.0.1" => v4
  | "::1" => v6
  | "0.0.0.0" => v4
  | "::" => v4 || v6
  | ip => target == ip

def originFor (target : String) (listening : SocketAddress) : String :=
  if target == "::1" || target == "::" then "::1"
  else if listening.ip == "::" then "::ffff:127.0.0.1"
  else "127.0.0.1"

namespace Sim
variable {m : Type → Type} {ε : Type} [Monad m]

def setVisit (v : Nat) (f : Visit → Visit) : Sim m ε Unit :=
  modify fun w => { w with visits := w.visits.modify v f }

def modifyServer (h : Nat)
    (f : Server (Handler ε) (Handler ε) (Place m) → Server (Handler ε) (Handler ε) (Place m)) :
    Sim m ε Unit :=
  modify fun w => { w with hosts := w.hosts.modify h fun host =>
    { host with server := f host.server } }

def endVisit (v : Nat) : Sim m ε Unit := do
  if let some visit := (← get).visits[v]? then
    setVisit v fun visit => { visit with ended := true }
    hangUp visit.link .server

def openSession (visit : Visit) (rest : Bytes) : Sim m ε Unit := do
  let w ← get
  match w.hosts[visit.host]?, w.links[visit.link]? with
  | some host, some link =>
    let fresh : Peer ε := { state := .opened }
    let id ← addCell
      { connection := host.server.furnish fresh, address := some link.origin,
        socket := .stream visit.link { role := .server, arrived := rest },
        phase := some .running, host := some visit.host }
    modifyLink visit.link fun l => l.setReader .server (.cell id)
    modifyServer visit.host (·.enter id)
    act_ id host.server.heed
  | _, _ => return

def serveVisit (v : Nat) : (limit : Nat) → Sim m ε Unit
  | 0 => spawn (.attend v)
  | limit + 1 => do
    match (← get).visits[v]? with
    | none => return
    | some visit =>
      match WebSocket.Service.step visit.arrived with
      | .wait => return
      | .answer bytes stays rest =>
        send visit.link .server bytes
        setVisit v fun visit => { visit with arrived := rest }
        if stays then serveVisit v limit else endVisit v
      | .upgraded bytes rest =>
        send visit.link .server bytes
        setVisit v fun visit => { visit with ended := true, arrived := [] }
        openSession visit rest

def attend (v : Nat) : Sim m ε Unit := do
  match (← get).visits[v]? with
  | none => return
  | some visit =>
    if visit.ended then return
    let (bytes, ended) ← take visit.link .server
    let arrived := visit.arrived ++ bytes
    setVisit v fun visit => { visit with arrived }
    if visit.secure then
      if ended || !Tls.mayBeRecord arrived then endVisit v
    else
      serveVisit v budget
      if ended then
        if let some visit := (← get).visits[v]? then
          unless visit.ended do endVisit v

def visit (host : Nat) (client : End) (origin : String) (secure : Bool) : Sim m ε Nat := do
  let w ← get
  let k := w.links.size
  let v := w.visits.size
  set { w with
    links := w.links.push { client, server := .visit v, origin }
    visits := w.visits.push { host, link := k, secure } }
  spawn (.attend v)
  return k

def listener? (w : World m ε) (host : String) (port : Nat) : Option (Nat × Place m) :=
  (List.range w.hosts.size).findSome? fun h => do
    let place ← (← w.hosts[h]?).server.running
    if place.address.port = port && reaches host place.address then some (h, place) else none

def decoy? (w : World m ε) (host : String) (port : Nat) : Option String :=
  if host == "127.0.0.1" || host == "localhost" || host == "0.0.0.0" then
    (w.decoys.find? fun (_, d) => d.port = port).map (·.1)
  else none

def giveUp (i : Nat) (d : Dial m) : Sim m ε Unit := do
  setSocket i .gone
  if let some k := d.link then hangUp k .client
  markClosed i
  act_ i Connection.abandon

def ask (i k : Nat) (d : Dial m) : Sim m ε Unit := do
  match WebSocket.Upgrade.requestFor? d.target upgradeKey with
  | none => giveUp i { d with link := some k }
  | some request =>
    setSocket i (.dial { d with link := some k, asked := true })
    send k .client request.encode

/-- Both sides have to want TLS, or neither; then the certificates decide. -/
def agree (client : Option (Tls.ClientContext m)) (server : Option (Tls.ServerContext m)) :
    Sim m ε Bool := do
  match client, server with
  | none, none => return true
  | some c, some s =>
    let w ← get
    StateT.lift (Tls.handshake w.backend c s w.clock w.clock.seconds.toNat)
  | _, _ => return false

def connect (i : Nat) (d : Dial m) : Sim m ε Unit := do
  let w ← get
  let (host, port) := d.target.authority
  if !w.online then giveUp i d
  else
    match listener? w host port with
    | some (h, place) =>
      if ← agree d.tls place.tls then
        ask i (← visit h (.cell i) (originFor host place.address) false) d
      else giveUp i d
    | none =>
      match decoy? w host port with
      | none => giveUp i d
      | some name =>
        let k := w.links.size
        modify fun w => { w with
          links := w.links.push { client := .cell i, server := .script, origin := "127.0.0.1" }
          decoys := w.decoys.map fun (n, decoy) =>
            if n == name then (n, { decoy with waiting := decoy.waiting ++ [k] })
            else (n, decoy) }
        if d.tls.isSome then setSocket i (.dial { d with link := some k }) else ask i k d

def upgraded (i k : Nat) (rest : Bytes) : Sim m ε Unit := do
  let endpoint : WebSocket.Endpoint := { role := .client, arrived := rest }
  if (← act i Connection.markOpen).getD false then
    setSocket i (.stream k endpoint)
    modify fun w => { w with cells := w.cells.modify i fun cell =>
      { cell with phase := some .running } }
  else
    send k .client (endpoint.write .close).1
    giveUp i { target := ⟨false, "", 0, ⟨"", "", "", none⟩⟩, tls := none, link := some k }

def dial (i : Nat) (c : Cell m ε) (d : Dial m) : Sim m ε Unit := do
  if c.connection.state.ending then giveUp i d
  else
    match d.link with
    | none => connect i d
    | some k =>
      let (bytes, ended) ← take k .client
      let arrived := d.arrived ++ bytes
      setSocket i (.dial { d with arrived })
      if !d.asked then
        if ended || !Tls.mayBeRecord arrived then giveUp i d
      else
        match (Http.Reader.response 124).run arrived with
        | .error .short => if ended then giveUp i d
        | .error (.bad _) => giveUp i d
        | .ok (r, rest) =>
          if WebSocket.Upgrade.agrees r upgradeKey then upgraded i k rest else giveUp i d

def drive (i : Nat) : Sim m ε Unit := do
  match ← cell? i with
  | none => return
  | some c =>
    match c.socket with
    | .dial d => dial i c d
    | _ => pump i budget

end Sim
end Parley.Simulation
