import Spool.Step

namespace Spool

-- A fixed number of bytes of a file, reached by position. Counters are words of eight bytes.
structure Page where
  path : Path
  index : UInt64
  size : Nat
  file : FileId
  isOpen : Bool
  -- Whether something was written since the last flush.
  dirty : Bool
  -- How many hold the page at the moment.
  holders : Nat

namespace Page

def counterSize : Nat := 8

-- What is done with a page and the disk below it, all or nothing.
abbrev Access (α : Type) := Page → Disk → Except Error (α × Page × Disk)

-- Takes a file as a page. A shorter file grows, and a longer one keeps all it has.
def map (path : Path) (index : UInt64) (size : Nat) : Step Host Page := do
  let file ← Step.onDisk path fun d => d.openPage path
  Step.onDisk path fun d => d.fitPage path file size
  let disk := (← get).disk
  if disk.refuses .mapFile path ∨ (disk.content file).size = 0 then
    throw (.mapping path)
  return { path, index, size, file, isOpen := true, dirty := false, holders := 0 }

def checkBounds (p : Page) (position length : Nat) : Except Error Unit :=
  if position + length ≤ p.size then .ok ()
  else .error (.outOfBounds p.index position length p.size)

def checkOpen (p : Page) : Except Error Unit :=
  if p.isOpen then .ok () else .error (.pageClosed p.index)

def checkAligned (position : Nat) : Except Error Unit :=
  if position % counterSize = 0 then .ok () else .error (.misaligned position)

def content (p : Page) (d : Disk) : Content :=
  d.content p.file

-- No buffer is longer than this.
def maxBuffer : Nat := 9223372036854775807

-- The buffer for the bytes is set up before anything is checked.
def checkBuffer (length : Nat) : Except Error Unit :=
  if length ≤ maxBuffer then .ok () else .error (.panicked "capacity overflow")

def read (position length : Nat) : Access Bytes := fun p d => do
  checkBuffer length
  p.checkBounds position length
  p.checkOpen
  return ((p.content d).read position length, p, d)

-- Fills somebody's buffer with the bytes from a position on.
def readInto (p : Page) (d : Disk) (position : Nat) : Step Bytes Unit := do
  let length := (← get).length
  Step.ofExcept (p.checkBounds position length)
  Step.ofExcept p.checkOpen
  set ((p.content d).read position length)

-- The disk and the page after bytes were written at a position inside the page.
def store (p : Page) (d : Disk) (position : Nat) (data : Bytes) : Page × Disk :=
  ({ p with dirty := true }, d.setContent p.file ((p.content d).write position data))

def write (position : Nat) (data : Bytes) : Access Unit := fun p d => do
  p.checkBounds position data.length
  p.checkOpen
  return ((), p.store d position data)

-- The checks of a counter, in the order in which they are reported.
def checkCounter (p : Page) (position : Nat) : Except Error Unit := do
  checkAligned position
  p.checkBounds position counterSize
  p.checkOpen

def loadWord (p : Page) (d : Disk) (position : Nat) : UInt64 :=
  UInt64.ofNat (LittleEndian.decode ((p.content d).read position counterSize))

def storeWord (p : Page) (d : Disk) (position : Nat) (value : UInt64) : Page × Disk :=
  p.store d position (LittleEndian.encode counterSize value.toNat)

def counter (position : Nat) : Access UInt64 := fun p d => do
  p.checkCounter position
  return (p.loadWord d position, p, d)

def setCounter (position : Nat) (value : UInt64) : Access Unit := fun p d => do
  p.checkCounter position
  return ((), p.storeWord d position value)

-- Adds one, from the largest word to zero, and gives the value before.
def increment (position : Nat) : Access UInt64 := fun p d => do
  p.checkCounter position
  let before := p.loadWord d position
  return (before, p.storeWord d position (before + 1))

-- What the system says to the writes since the last flush. It is asked only if there were any.
def sync (p : Page) (d : Disk) : Except Error Unit :=
  if p.isOpen ∧ p.dirty ∧ d.refuses .syncFile p.path then .error (.mapping p.path) else .ok ()

-- Writes reach the file at once, so a flush only forgets that there were any. One that is refused
-- leaves them to be flushed.
def flush (p : Page) (d : Disk) : Except Error Unit × Page :=
  match p.sync d with
  | .ok () => (.ok (), if p.isOpen then { p with dirty := false } else p)
  | .error e => (.error e, p)

-- Lets go of the file. A closed page stays as it is.
def unmap (p : Page) : Page :=
  if p.isOpen then { p with isOpen := false, dirty := false } else p

-- Closes a page whoever holds it, also when its last flush is refused.
def forceClose (p : Page) (d : Disk) : Except Error Unit × Page :=
  (p.sync d, p.unmap)

def close (p : Page) (d : Disk) : Except Error Unit × Page :=
  if p.holders ≠ 0 then (.error (.pageInUse p.index p.holders), p) else p.forceClose d

def retain (p : Page) : Page :=
  { p with holders := p.holders + 1 }

-- One release too many leaves the count at zero.
def release (p : Page) : Page :=
  { p with holders := p.holders - 1 }

def diagnostic (p : Page) : String :=
  Text.openLayout "MappedPage" [
    ("path", Text.quoted p.path.text),
    ("index", toString p.index),
    ("page_size", toString p.size),
    ("ref_count", toString p.holders),
    ("dirty", toString p.dirty)]

theorem checkBounds_eq_ok_iff {p : Page} {position length : Nat} :
    p.checkBounds position length = .ok () ↔ position + length ≤ p.size := by
  unfold checkBounds
  split <;> simp_all

theorem content_store (p : Page) (d : Disk) (position : Nat) (data : Bytes) :
    p.content (p.store d position data).2 = (p.content d).write position data := by
  simp [content, store, Disk.content_setContent]

-- What other files hold does not matter to a page, nor the page to them.
theorem content_store_of_ne {p : Page} {id : FileId} (h : id ≠ p.file) (d : Disk)
    (position : Nat) (data : Bytes) :
    (p.store d position data).2.content id = d.content id := by
  simp [store, Disk.content_setContent, h]

theorem isOpen_unmap (p : Page) : p.unmap.isOpen = false := by
  unfold unmap
  split <;> simp_all

end Page

end Spool
