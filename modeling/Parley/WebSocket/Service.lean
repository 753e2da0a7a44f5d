import Parley.Target.Uri
import Parley.WebSocket.Upgrade

/-!
# A listener before the upgrade

What a server makes of a stream until the peer has upgraded it: each request is answered in turn,
any path upgrades, and whatever is no upgrade gets the reason why not.
-/

namespace Parley.WebSocket.Service

open Http

inductive Step where
  | wait
  | answer (bytes : Bytes) (stays : Bool) (rest : Bytes)
  | upgraded (bytes : Bytes) (rest : Bytes)

/-- Whether a stream outlives its request. A newer version has to say so if not, an older one if
so. -/
def persists (r : Request) : Bool :=
  (r.fields.filter (·.name == "connection")).foldl
    (fun keep f =>
      if keep then !(elements f.value).contains "close"
      else (elements f.value).contains "keep-alive")
    (r.minor == 1)

inductive Length where
  | sized (n : Nat)
  | chunked
deriving DecidableEq, Repr

def sizes (r : Request) : Option (List Nat) :=
  (r.fields.filter (·.name == "content-length")).mapM fun f =>
    (Text.Number.read? 10 (ascii f.value).toList).filter (· < UInt64.size - 2)

/-- None for a head that contradicts itself about its body. -/
def length? (r : Request) : Option Length :=
  match (r.fields.filter (·.name == "transfer-encoding")).getLast? with
  | some f =>
    if r.minor = 1 && (elements f.value).getLast? == some "chunked" then some .chunked else none
  | none =>
    match sizes r with
    | none => none
    | some [] => some (.sized 0)
    | some (n :: rest) => if rest.all (· == n) then some (.sized n) else none

/-- Fits an answer to the request: its version, whether the stream stays, and no body for `HEAD`. -/
def fit (minor : Nat) (method : String) (stays : Bool) (a : Response) : Response :=
  let others := a.fields.filter (·.name != "connection")
  let fields :=
    if minor = 1 then
      if stays then a.fields else ⟨"connection", Bytes.ofString "close"⟩ :: others
    else if stays then ⟨"connection", Bytes.ofString "keep-alive"⟩ :: others
    else a.fields
  { a with minor, fields, body := if method == "HEAD" then [] else a.body }

def refusal (f : Fault) : Response :=
  let (status, reason) := match f with
    | .malformed => (400, "Bad Request")
    | .tooManyHeaders => (431, "Request Header Fields Too Large")
    | .targetTooLong => (414, "URI Too Long")
  { status, reason, fields := [⟨"content-length", Bytes.ofString "0"⟩] }

def refuse (f : Fault) : Step := .answer (fit 1 "" false (refusal f)).encode false []

def targetFault? (t : String) : Option Fault :=
  match Uri.parse t with
  | .ok _ => none
  | .error .tooLong => some .targetTooLong
  | .error _ => some .malformed

def serve (r : Request) (size : Length) (rest : Bytes) : Step :=
  let stays := persists r
  match Upgrade.judge r with
  | .ok key => .upgraded (fit r.minor r.method stays (Upgrade.accepted key)).encode rest
  | .error why =>
    let bytes := (fit r.minor r.method stays why.response).encode
    match size with
    | .sized n => .answer bytes (stays && n ≤ rest.length) (rest.drop n)
    | .chunked => .answer bytes false []

def step (arrived : Bytes) : Step :=
  match Reader.request.run arrived with
  | .error .short => .wait
  | .error (.bad f) => refuse f
  | .ok (r, rest) =>
    match targetFault? r.target, length? r with
    | some f, _ => refuse f
    | none, some size => serve r size rest
    | none, none => refuse .malformed

end Parley.WebSocket.Service
