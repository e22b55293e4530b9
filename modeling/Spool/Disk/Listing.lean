import Spool.Disk.Basic

namespace Spool.Disk

-- The steps from an outer place down to an inner one, if it lies below.
def stepsBelow? (outer place : Location) : Option (List String) :=
  match (outer.isSuffixOf? place) with
  | some steps => if steps.isEmpty then none else some steps.reverse
  | none => none

-- A slash marks a directory; a file has its size.
def line (d : Disk) (steps : List String) : Node → String
  | .directory => "/".intercalate steps ++ "/"
  | .file id => "/".intercalate steps ++ ":" ++ toString (d.content id).size

-- The lines in the order of their code points.
def listing (d : Disk) (p : Path) : List String :=
  match d.locate p with
  | .error _ => []
  | .ok place =>
    let lines := d.nodes.toList.filterMap fun (other, node) =>
      (stepsBelow? place other).map fun steps => d.line steps node
    lines.mergeSort fun a b => a ≤ b

-- Replaces all that a file holds, or makes the file.
def putFile (d : Disk) (p : Path) (data : Bytes) : Except Refusal Unit × Disk :=
  match d.openFile p with
  | (.error e, d) => (.error e, d)
  | (.ok id, d) => (.ok (), d.setContent id (.ofBytes data))

-- Overwrites part of a file that is there. A file that is too short grows.
def overwrite (d : Disk) (p : Path) (position : Nat) (data : Bytes) : Except Refusal Disk := do
  match ← d.lookup p with
  | .directory => throw .isDirectory
  | .file id =>
    if data.isEmpty then return d
    else if maxFileSize ≤ position + data.length then throw .tooLarge
    else
      let content := (d.content id).growTo (position + data.length)
      return d.setContent id (content.write position data)

-- Up to `length` bytes from a position on: fewer where the file ends.
def sliceFile (d : Disk) (p : Path) (position length : Nat) : Except Refusal Bytes := do
  match ← d.lookup p with
  | .directory => throw .isDirectory
  | .file id =>
    let content := d.content id
    return content.read position (min length (content.size - position))

end Spool.Disk
