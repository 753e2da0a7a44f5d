import Parley.Bytes

/-!
# Files

What a path holds, as far as it is read: the content of a file, or why the system refuses it.
-/

namespace Parley

namespace Disk

inductive Fault where
  | missing
  | isDirectory
  | refused (text : String)
deriving DecidableEq, Repr

def Fault.message : Fault → String
  | missing => "No such file or directory (os error 2)"
  | isDirectory => "Is a directory (os error 21)"
  | refused t => t

def notText : Fault := .refused "stream did not contain valid UTF-8"

end Disk

abbrev Disk := String → Except Disk.Fault Bytes

namespace Disk

def readText (disk : Disk) (path : String) : Except Fault String := do
  match String.fromUTF8? ⟨(← disk path).toArray⟩ with
  | some s => return s
  | none => .error notText

end Disk
end Parley
