import Parley.Crypto.Sha1
import Parley.Http.Head
import Parley.Target
import Parley.Text.Base64

/-!
# The upgrade to WebSocket

A client asks for the upgrade in the head of an HTTP request and shows a key; a server that agrees
answers with the digest of that key. `judge` is the server's side, `agrees` the client's.
-/

namespace Parley.WebSocket

def acceptance (key : Bytes) : Bytes :=
  Text.Base64.encode
    (Crypto.Sha1.digest (key ++ Bytes.ofString "258EAFA5-E914-47DA-95CA-C5AB0DC85B11"))

namespace Upgrade

inductive Rejection where
  | method
  | connection
  | upgrade
  | version
  | noKey
  /-- The request is of a version that cannot change the protocol. -/
  | impossible
deriving DecidableEq, Repr

namespace Rejection

def status : Rejection → Nat × String
  | method => (405, "Method Not Allowed")
  | impossible => (426, "Upgrade Required")
  | _ => (400, "Bad Request")

def message : Rejection → String
  | method => "Request method must be \x60GET\x60"
  | connection => "Connection header did not include 'upgrade'"
  | upgrade => "\x60Upgrade\x60 header did not include 'websocket'"
  | version => "\x60Sec-WebSocket-Version\x60 header did not include '13'"
  | noKey => "\x60Sec-WebSocket-Key\x60 header missing"
  | impossible => "WebSocket request couldn't be upgraded since no upgrade state was present"

def response (r : Rejection) : Http.Response where
  status := r.status.1
  reason := r.status.2
  fields := [⟨"content-type", Bytes.ofString "text/plain; charset=utf-8"⟩,
    ⟨"content-length", Bytes.ofString (toString r.message.utf8ByteSize)⟩]
  body := Bytes.ofString r.message

end Rejection

def contains (word : List Char) : List Char → Bool
  | [] => word.isEmpty
  | c :: rest => word.isPrefixOf (c :: rest) || contains word rest

def judge (r : Http.Request) : Except Rejection Bytes := do
  unless r.method == "GET" do throw .method
  unless (r.field? "connection").any fun v =>
    contains "upgrade".toList (Http.lower (Http.ascii v)).toList do throw .connection
  unless (r.field? "upgrade").any (Http.sameWord · "websocket") do throw .upgrade
  unless (r.field? "sec-websocket-version").any (Http.sameWord · "13") do throw .version
  match r.field? "sec-websocket-key" with
  | none => throw .noKey
  | some key => if r.minor = 0 then throw .impossible else return key

def accepted (key : Bytes) : Http.Response where
  status := 101
  reason := "Switching Protocols"
  fields := [⟨"connection", Bytes.ofString "upgrade"⟩, ⟨"upgrade", Bytes.ofString "websocket"⟩,
    ⟨"sec-websocket-accept", acceptance key⟩]

def hostField (authority : String) : String :=
  match authority.splitOn "@" with
  | host :: [] => host
  | parts => "@".intercalate (parts.drop 1)

def request (t : Target) (key : Bytes) : Http.Request where
  method := "GET"
  target := (if t.uri.path.isEmpty then "/" else t.uri.path)
    ++ ((t.uri.query.map ("?" ++ ·)).getD "")
  minor := 1
  fields := [("Host", Bytes.ofString (hostField t.uri.authority)),
    ("Connection", Bytes.ofString "Upgrade"), ("Upgrade", Bytes.ofString "websocket"),
    ("Sec-WebSocket-Version", Bytes.ofString "13"), ("Sec-WebSocket-Key", key)].map
      fun (n, v) => ⟨n, v⟩

/-- The request for a target, whose URI is read again as it is printed; none if it cannot be
read. -/
def requestFor? (t : Target) (key : Bytes) : Option Http.Request :=
  match Uri.parse t.uri.text with
  | .ok (some uri) => some (request { t with uri } key)
  | _ => none

def agrees (r : Http.Response) (key : Bytes) : Bool :=
  r.minor = 1 && r.status = 101
    && (r.field? "upgrade").any (Http.sameWord · "websocket")
    && (r.field? "connection").any (Http.sameWord · "upgrade")
    && r.field? "sec-websocket-accept" == some (acceptance key)

end Upgrade
end Parley.WebSocket
