import Parley.Echo
import Parley.Tls.Elliptic

/-!
Command line: `parley-echo [CONFIG]` starts the echo server of a configuration file on the modelled
loopback network, where nobody connects, and stops it at the next line of standard input. It prints
what the server logs. `PARLEY_LOG` may hold the directives of a log filter.
-/

namespace Parley.Echo

def sources (c : Config) : List String :=
  match c.tls with
  | none => []
  | some t => [t.chain, t.key, t.verify, t.dh].filterMap id

def faultOf : IO.Error → Disk.Fault
  | .noFileOrDirectory .. => .missing
  | .inappropriateType .. => .isDirectory
  | e => .refused (toString e)

def contentOf (path : String) : IO (Except Disk.Fault Bytes) := do
  try
    return .ok (← IO.FS.readBinFile path).toList
  catch e =>
    return .error (faultOf e)

def diskOf (found : List (String × Except Disk.Fault Bytes)) : Disk := fun path =>
  (found.lookup path).getD (.error .missing)

def look (path : String) : IO Disk := do
  let config := (path, ← contentOf path)
  let more ← match Config.load (diskOf [config]) path with
    | .ok c => (sources c).mapM fun p => return (p, ← contentOf p)
    | .error _ => pure []
  return diskOf (config :: more)

def firstFreePort : Nat := 49152

def print (log : List Logging.Event) : IO Unit := log.forM fun e => IO.println e.line

end Parley.Echo

open Parley.Echo in
def main (args : List String) : IO UInt32 := do
  let path := args.headD defaultPath
  let r := run .elliptic (← look path) path (← IO.getEnv "PARLEY_LOG") firstFreePort
  r.notices.forM (IO.eprintln ·)
  print r.opening
  match r.outcome with
  | .error e =>
    IO.eprintln (report e)
    return 1
  | .ok _ =>
    discard (← IO.getStdin).getLine
    print r.closing
    return 0
