import Spool.Disk.Basic
import Spool.Error
import Spool.Page.File

namespace Spool.PageFile

-- A file in a directory whose path just fits may have a path that does not, and is passed over too.
def numbered? (dir : Path) : String × Node → Option (UInt64 × Path)
  | (_, .directory) => none
  | (name, .file _) =>
    match Disk.checkText (dir.join name) with
    | .error _ => none
    | .ok () => (index? (dir.join name)).map fun index => (index, dir.join name)

-- Names that read as the same number come in the order of their paths.
def precedes (a b : UInt64 × Path) : Bool :=
  a.1 < b.1 || (a.1 = b.1 && a.2.text ≤ b.2.text)

def scan (d : Disk) (dir : Path) : Except Error (List (UInt64 × Path)) :=
  if !d.isPresent dir then .ok []
  else
    match d.list dir with
    | .error e => .error (.io dir e.reason)
    | .ok entries => .ok ((entries.filterMap (numbered? dir)).mergeSort precedes)

end Spool.PageFile
