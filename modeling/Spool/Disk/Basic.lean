import Spool.Disk.Content
import Spool.Path

namespace Spool

-- The names from an entry outwards to the root; the root itself is the empty list.
abbrev Location := List String

abbrev FileId := Nat

inductive Node where
  | directory
  | file (id : FileId)
deriving DecidableEq

-- What the system is asked for on behalf of a path, beyond looking things up.
inductive SystemCall where
  | openFile
  | fileSize
  | setSize
  | mapFile
  | syncFile
  -- The thread that looks for idle pages of a directory.
  | startThread
  | joinThread
deriving DecidableEq

-- A content outlives its file, because a page may still be mapped on it after the file was removed.
structure Disk where
  nodes : Std.TreeMap Location Node
  contents : Std.TreeMap FileId Content
  -- Numbers from here on were never given to a file.
  nextFile : FileId
  -- The calls that fail whatever is on the disk: it may be full, or broken, or out of reach.
  refuses : SystemCall → Path → Bool

-- Why the system refuses.
inductive Refusal where
  | notFound
  | notDirectory
  | isDirectory
  | alreadyExists
  | nameTooLong
  | pathTooLong
  | nulInPath
  | tooLarge
  | systemError
deriving DecidableEq

def Refusal.reason : Refusal → String
  | notFound => "no such file or directory"
  | notDirectory => "not a directory"
  | isDirectory => "is a directory"
  | alreadyExists => "file exists"
  | nameTooLong => "file name too long"
  | pathTooLong => "path too long"
  | nulInPath => "path holds a NUL character"
  | tooLarge => "file too large"
  | systemError => "input/output error"

namespace Disk

def empty : Disk := ⟨∅, ∅, 0, fun _ _ => false⟩

def maxNameBytes : Nat := 255

-- The longest path, in bytes of its text, that is walked at all.
def maxPathBytes : Nat := 4095

-- Files of this size and more cannot be made.
def maxFileSize : Nat := 9223372036854775808

def node? (d : Disk) (place : Location) : Option Node :=
  match place with
  | [] => some .directory
  | place => d.nodes[place]?

def content (d : Disk) (id : FileId) : Content :=
  d.contents.getD id .empty

def setContent (d : Disk) (id : FileId) (c : Content) : Disk :=
  { d with contents := d.contents.insert id c }

-- What is needed to look for anything at a place.
def expectDirectory (d : Disk) (place : Location) : Except Refusal Unit :=
  match d.node? place with
  | some .directory => .ok ()
  | some (.file _) => .error .notDirectory
  | none => .error .notFound

-- The last step may lead to a place where nothing is.
def advance (d : Disk) (place : Location) (step : String) : Except Refusal Location := do
  d.expectDirectory place
  if step = "." then return place
  else if step = ".." then return place.tail
  else if maxNameBytes < step.utf8ByteSize then throw .nameTooLong
  else return step :: place

def walk (d : Disk) (steps : List String) : Except Refusal Location :=
  steps.foldlM d.advance []

-- What is refused of a path before its first step, whatever is on the disk.
def checkText (p : Path) : Except Refusal Unit :=
  if p.text.toList.contains '\x00' then .error .nulInPath
  else if maxPathBytes < p.text.utf8ByteSize then .error .pathTooLong
  else .ok ()

-- A slash at the end is a step to the place itself, so a directory must be there.
def locate (d : Disk) (p : Path) : Except Refusal Location := do
  checkText p
  if p.text = "" then throw .notFound
  d.walk (if p.endsInSlash then p.steps ++ ["."] else p.steps)

def lookup (d : Disk) (p : Path) : Except Refusal Node := do
  let place ← d.locate p
  match d.node? place with
  | some node => return node
  | none => throw .notFound

def isDirectory (d : Disk) (p : Path) : Bool :=
  match d.lookup p with
  | .ok .directory => true
  | _ => false

def isFile (d : Disk) (p : Path) : Bool :=
  match d.lookup p with
  | .ok (.file _) => true
  | _ => false

def isPresent (d : Disk) (p : Path) : Bool :=
  match d.lookup p with
  | .ok _ => true
  | .error _ => false

def addDirectory (d : Disk) (place : Location) : Disk :=
  { d with nodes := d.nodes.insert place .directory }

-- A new file is empty.
def addFile (d : Disk) (place : Location) : Disk × FileId :=
  ({ d with
      nodes := d.nodes.insert place (.file d.nextFile)
      contents := d.contents.insert d.nextFile .empty
      nextFile := d.nextFile + 1 }, d.nextFile)

-- Makes the directory that one step leads to, if nothing is there.
def makeStep (d : Disk) (place : Location) (step : String) : Except Refusal (Disk × Location) := do
  let next ← d.advance place step
  match d.node? next with
  | some .directory => return (d, next)
  | some (.file _) => throw .alreadyExists
  | none => return (d.addDirectory next, next)

-- The directories that were made before a refusal stay.
def makeSteps (d : Disk) (place : Location) : List String → Except Refusal Unit × Disk
  | [] => (.ok (), d)
  | step :: steps =>
    match d.makeStep place step with
    | .error e => (.error e, d)
    | .ok (d, next) => d.makeSteps next steps

-- The steps up to the last one that is not a single dot.
def withoutTrailingDots (steps : List String) : List String :=
  (steps.reverse.dropWhile (· = ".")).reverse

-- Makes a directory and those around it. A single dot at the end asks for the place in front of it
-- to be there already, so that place is not made.
def makeDirectories (d : Disk) (p : Path) : Except Refusal Unit × Disk :=
  match checkText p with
  | .error e => (.error e, d)
  | .ok () =>
    if p.steps.getLast? = some "." then
      let steps := withoutTrailingDots p.steps
      match d.makeSteps [] steps.dropLast with
      | (.error e, d) => (.error e, d)
      | (.ok (), d) =>
        match d.walk (steps ++ ["."]) with
        | .error e => (.error e, d)
        | .ok _ => (.ok (), d)
    else d.makeSteps [] p.steps

-- Opens a file for reading and writing, and makes it if nothing is there.
def openFile (d : Disk) (p : Path) : Except Refusal FileId × Disk :=
  match d.locate p with
  | .error e => (.error e, d)
  | .ok place =>
    match d.node? place with
    | some (.file id) => (.ok id, d)
    | some .directory => (.error .isDirectory, d)
    | none =>
      let (d, id) := d.addFile place
      (.ok id, d)

-- Sees to it that a file has at least the given size.
def growFile (d : Disk) (id : FileId) (size : Nat) : Except Refusal Unit × Disk :=
  if size ≤ (d.content id).size then (.ok (), d)
  else if maxFileSize ≤ size then (.error .tooLarge, d)
  else (.ok (), d.setContent id ((d.content id).growTo size))

-- Opens the file of a page.
def openPage (d : Disk) (p : Path) : Except Refusal FileId × Disk :=
  if d.refuses .openFile p then (.error .systemError, d) else d.openFile p

-- Sees to it that the file of a page is long enough, after a look at how long it is.
def fitPage (d : Disk) (p : Path) (id : FileId) (size : Nat) : Except Refusal Unit × Disk :=
  if d.refuses .fileSize p then (.error .systemError, d)
  else if size ≤ (d.content id).size then (.ok (), d)
  else if d.refuses .setSize p then (.error .systemError, d)
  else d.growFile id size

def removeFile (d : Disk) (p : Path) : Except Refusal Disk := do
  let place ← d.locate p
  match d.node? place with
  | some (.file _) => return { d with nodes := d.nodes.erase place }
  | some .directory => throw .isDirectory
  | none => throw .notFound

-- Whether one place is another or lies below it.
def isWithin (place outer : Location) : Bool :=
  outer.isSuffixOf place

-- Removes whatever is at a path, a directory with all that is in it.
def removeTree (d : Disk) (p : Path) : Except Refusal Disk := do
  let place ← d.locate p
  match d.node? place with
  | none => throw .notFound
  | some _ => return { d with nodes := d.nodes.filter fun other _ => !isWithin other place }

-- The names in a directory with what they stand for.
def entries (d : Disk) (place : Location) : List (String × Node) :=
  d.nodes.toList.filterMap fun
    | (name :: outer, node) => if outer = place then some (name, node) else none
    | ([], _) => none

def list (d : Disk) (p : Path) : Except Refusal (List (String × Node)) := do
  let place ← d.locate p
  match d.node? place with
  | some .directory => return d.entries place
  | some (.file _) => throw .notDirectory
  | none => throw .notFound

theorem content_setContent (d : Disk) (id : FileId) (c : Content) (other : FileId) :
    (d.setContent id c).content other = if other = id then c else d.content other := by
  by_cases h : other = id
  · subst h; simp [content, setContent]
  · simp [content, setContent, Std.TreeMap.getD_insert, h, Ne.symm h]

-- The root is always there, so a new entry never stands for it.
theorem node?_addDirectory (d : Disk) {place : Location} (hplace : place ≠ [])
    (other : Location) :
    (d.addDirectory place).node? other =
      if other = place then some .directory else d.node? other := by
  cases other with
  | nil => simp [node?, Ne.symm hplace]
  | cons name outer =>
    by_cases h : name :: outer = place
    · subst h; simp [node?, addDirectory]
    · simp [node?, addDirectory, Std.TreeMap.getElem?_insert, h, Ne.symm h]

theorem node?_addFile (d : Disk) {place : Location} (hplace : place ≠ []) (other : Location) :
    (d.addFile place).1.node? other =
      if other = place then some (.file d.nextFile) else d.node? other := by
  cases other with
  | nil => simp [node?, Ne.symm hplace]
  | cons name outer =>
    by_cases h : name :: outer = place
    · subst h; simp [node?, addFile]
    · simp [node?, addFile, Std.TreeMap.getElem?_insert, h, Ne.symm h]

theorem content_addFile (d : Disk) (place : Location) (other : FileId) :
    (d.addFile place).1.content other =
      if other = d.nextFile then .empty else d.content other := by
  by_cases h : other = d.nextFile
  · subst h; simp [content, addFile]
  · simp [content, addFile, Std.TreeMap.getD_insert, h, Ne.symm h]

end Disk

end Spool
