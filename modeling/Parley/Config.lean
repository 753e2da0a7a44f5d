import Parley.Address
import Parley.Logging
import Parley.Tls.Settings
import Parley.Yaml.Node

/-!
# Configuration

A configuration is one YAML mapping with a version and the sections `server`, `tls` and `log`. It is
read strictly: a key that is not known, or stands twice, is an error in every mapping, and what is
left out has its default.
-/

namespace Parley

namespace Config

structure Server where
  listen : String := "127.0.0.1:9108"
deriving DecidableEq, Repr

structure Tls where
  chain : Option String := none
  key : Option String := none
  verify : Option String := none
  dh : Option String := none
  hostname : Option String := none
deriving DecidableEq, Repr

end Config

structure Config where
  version : UInt32
  server : Config.Server := {}
  tls : Option Config.Tls := none
  log : Logging.Levels := {}
deriving DecidableEq, Repr

namespace Config
open Yaml (Node)

inductive Fault where
  | unreadable (path : String) (cause : Disk.Fault)
  | yaml
  | version (found : UInt32)
  | listen (found : String)
  | keyMissing
  | chainMissing
deriving DecidableEq, Repr

def Fault.message : Fault → String
  | unreadable p c => "read config " ++ p ++ " failed: " ++ c.message
  | yaml => "invalid yaml"
  | version v => s!"unsupported config version {v}"
  | listen s => "server.listen must be a socket address, got " ++ Text.Quoted.quote s
  | keyMissing => "tls.private_key_file is required with tls.certificate_chain_file"
  | chainMissing => "tls.certificate_chain_file is required with tls.private_key_file"

def Fault.toError (f : Fault) : Error := .config f.message

def text? : Node → Option String
  | .scalar _ _ s => some s
  | _ => none

def isNull (s : String) : Bool := s == "~" || s == "null" || s == "Null" || s == "NULL"

def nullTag : String := "tag:yaml.org,2002:null"

def intTag : String := "tag:yaml.org,2002:int"

def isAbsent? : Node → Option Bool
  | .scalar none .plain s => some (s.isEmpty || isNull s)
  | .scalar (some tag) .plain s =>
    if tag == nullTag then if isNull s then some true else none else some false
  | _ => some false

def optional? (read : Node → Option α) (n : Node) : Option (Option α) := do
  if ← isAbsent? n then return none else return some (← read n)

def unsigned? (s : String) : Option Nat :=
  let digits := match s.toList with
    | '+' :: rest => rest
    | cs => cs
  match digits with
  | '0' :: 'x' :: rest => Text.Number.read? 16 rest
  | '0' :: 'o' :: rest => Text.Number.read? 8 rest
  | '0' :: 'b' :: rest => Text.Number.read? 2 rest
  | '0' :: _ :: _ => none
  | cs => Text.Number.read? 10 cs

def word? : Node → Option UInt32
  | .scalar tag style s =>
    if style == .plain || (style == .literal && tag == some intTag) then
      ((unsigned? s).filter (· < UInt32.size)).map UInt32.ofNat
    else none
  | _ => none

/-- The values of a section under their keys, all of them known and each there once. An empty value
is a section with nothing in it. -/
def fields? (known : List String) : Node → Option (List (String × Node))
  | .mapping _ entries => do
    let fields ← entries.mapM fun (k, v) => (text? k).map (·, v)
    let keys := fields.map (·.1)
    if keys.all known.contains && keys.Nodup then return fields else none
  | .scalar _ .plain "" => some []
  | _ => none

def field? (fields : List (String × Node)) (key : String) (read : Node → Option α) (default : α) :
    Option α :=
  match fields.lookup key with
  | some n => read n
  | none => some default

def Server.ofNode? (n : Node) : Option Server := do
  let fields ← fields? ["listen"] n
  return { listen := ← field? fields "listen" text? ({} : Server).listen }

def Tls.ofNode? (n : Node) : Option Tls := do
  let fields ← fields? ["certificate_chain_file", "private_key_file", "verify_file",
    "dh_params_file", "required_hostname"] n
  let text (key : String) := field? fields key (optional? text?) none
  return {
    chain := ← text "certificate_chain_file"
    key := ← text "private_key_file"
    verify := ← text "verify_file"
    dh := ← text "dh_params_file"
    hostname := ← text "required_hostname" }

def levels? (n : Node) : Option Logging.Levels := do
  let fields ← fields? ["error_level", "access_level"] n
  return {
    error := ← field? fields "error_level" word? ({} : Logging.Levels).error
    access := ← field? fields "access_level" word? ({} : Logging.Levels).access }

def ofNode? (n : Node) : Option Config := do
  let fields ← fields? ["version", "server", "tls", "log"] n
  return {
    version := ← (fields.lookup "version").bind word?
    server := ← field? fields "server" Server.ofNode? {}
    tls := ← field? fields "tls" (optional? Tls.ofNode?) none
    log := ← field? fields "log" levels? {} }

def Server.address (s : Server) : Except Fault SocketAddress :=
  match SocketAddress.parse? s.listen with
  | some a => .ok a
  | none => .error (.listen s.listen)

def Tls.validate (t : Tls) : Except Fault Unit :=
  match t.chain, t.key with
  | some _, none => .error .keyMissing
  | none, some _ => .error .chainMissing
  | _, _ => .ok ()

def validate (c : Config) : Except Fault Unit := do
  if c.version != 1 then .error (.version c.version)
  discard c.server.address
  match c.tls with
  | some t => t.validate
  | none => .ok ()

def ofNode (n : Node) : Except Fault Config :=
  match ofNode? n with
  | none => .error .yaml
  | some c => c.validate.map fun _ => c

def parse (s : String) : Except Fault Config :=
  match Node.parse? s with
  | none => .error .yaml
  | some n => ofNode n

def load (disk : Disk) (path : String) : Except Fault Config :=
  match disk.readText path with
  | .ok s => parse s
  | .error f => .error (.unreadable path f)

def Tls.settings (t : Tls) : Parley.Tls.Settings υ where
  chain := t.chain.map .file
  key := t.key.map .file
  verify := t.verify.map .file
  dh := t.dh.map .file
  hostname := t.hostname

def tlsSettings (c : Config) : Parley.Tls.Settings υ := (c.tls.map Tls.settings).getD {}

end Config
end Parley
