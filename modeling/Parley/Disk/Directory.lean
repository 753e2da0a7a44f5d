import Parley.Disk

/-!
# A working directory

The files of a directory, under paths of parts with slashes between them, and what other paths come
to there. Nothing is known about what lies outside.
-/

namespace Parley.Disk

abbrev Path := List String

structure Directory where
  files : List (Path × Bytes)

namespace Directory

def notDirectory : Fault := .refused "Not a directory (os error 20)"

def ofFiles (files : List (String × Bytes)) : Directory :=
  ⟨files.map fun (p, b) => (p.splitOn "/", b)⟩

def holdsFile (d : Directory) (place : Path) : Bool := d.files.any (·.1 == place)

def holdsDirectory (d : Directory) (place : Path) : Bool :=
  place.isEmpty || d.files.any fun (p, _) => p.take place.length == place && place.length < p.length

/-- Where the parts lead from a place. An empty part stays, but only a directory can have one behind
it. -/
def walk (d : Directory) (place : Path) : Path → Except Fault Path
  | [] => .ok place
  | part :: rest =>
    if d.holdsFile place then .error notDirectory
    else if !d.holdsDirectory place then .error .missing
    else if part == "" || part == "." then d.walk place rest
    else if part == ".." then
      if place.isEmpty then .error .missing else d.walk place.dropLast rest
    else d.walk (place ++ [part]) rest

def read (d : Directory) (path : String) : Except Fault Bytes :=
  if path == "" then .error .missing
  else if path.startsWith "/" then
    .error (if path.all (· == '/') then .isDirectory else .missing)
  else do
    let place ← d.walk [] (path.splitOn "/")
    match d.files.lookup place with
    | some b => return b
    | none => throw (if d.holdsDirectory place then .isDirectory else .missing)

end Directory
end Parley.Disk
