import Spool.Bytes.Checksum
import Spool.Cache.Basic
import Spool.Log.Entry

namespace Spool

-- Where the next payload goes.
structure Cursor where
  page : UInt64
  offset : Nat
deriving DecidableEq

-- Items are appended at the head and kept back to the tail, on the circle of the words of sixty-four bits.
-- A payload is never split between two data pages.
structure Log where
  dir : Path
  dataPageSize : Nat
  index : Cache
  data : Cache
  ends : Cache
  head : UInt64
  tail : UInt64
  cursor : Cursor

namespace Log

abbrev Action (α : Type) := Step (Host × Log) α

def indexDir : String := "index"

def dataDir : String := "data"

def endsDir : String := "meta_data"

def maxDataPageSize : Nat := 4294967295

def endsPageSize : Nat := 16

def endsPage : UInt64 := 0

def headPosition : Nat := 0

def tailPosition : Nat := 8

def indexPart : Part (Host × Log) (Host × Cache) :=
  Part.withHost ⟨Log.index, fun c l => { l with index := c }⟩

def dataPart : Part (Host × Log) (Host × Cache) :=
  Part.withHost ⟨Log.data, fun c l => { l with data := c }⟩

def endsPart : Part (Host × Log) (Host × Cache) :=
  Part.withHost ⟨Log.ends, fun c l => { l with ends := c }⟩

def onIndexPage (page : UInt64) (access : Page.Access α) : Action α :=
  Step.inside indexPart (Cache.withPage page access)

def onDataPage (page : UInt64) (access : Page.Access α) : Action α :=
  Step.inside dataPart (Cache.withPage page access)

def onEnds (access : Page.Access α) : Action α :=
  Step.inside endsPart (Cache.withPage endsPage access)

-- How many items are retained.
def size (l : Log) : UInt64 :=
  l.head - l.tail

def isEmpty (l : Log) : Bool :=
  l.size = 0

-- Whether an index is in the window, counted from the tail.
def contains (l : Log) (index : UInt64) : Bool :=
  index - l.tail < l.size

def checkIndex (l : Log) (index : UInt64) : Except Error Unit :=
  if l.contains index then .ok () else .error (.outOfRange index l.tail l.head)

def readEntry (index : UInt64) : Action Entry := do
  let bs ← onIndexPage (Entry.pageOf index) (Page.read (Entry.positionOf index) Entry.width)
  return Entry.decode bs

def writeEntry (index : UInt64) (e : Entry) : Action Unit :=
  onIndexPage (Entry.pageOf index) (Page.write (Entry.positionOf index) e.encode)

-- Keeps one end of the window on disk.
def publish (position : Nat) (value : UInt64) : Action Unit :=
  onEnds (Page.setCounter position value)

def publishHead (value : UInt64) : Action Unit := do
  publish headPosition value
  modify fun (host, l) => (host, { l with head := value })

def publishTail (value : UInt64) : Action Unit := do
  publish tailPosition value
  modify fun (host, l) => (host, { l with tail := value })

def setCursor (cursor : Cursor) : Action Unit :=
  modify fun (host, l) => (host, { l with cursor })

def dataPages (l : Log) (d : Disk) : Except Error (List UInt64) :=
  l.data.existingIndexes d

-- Behind the last item; in an empty log at the start of a page that no file is there for.
def recoverCursor : Action Cursor := do
  let (host, l) ← get
  if l.head = l.tail then
    let pages ← Step.ofExcept (l.dataPages host.disk)
    match pages.getLast? with
    | none => return ⟨0, 0⟩
    | some last => return ⟨last + 1, 0⟩
  else
    let last ← readEntry (l.head - 1)
    return ⟨last.dataPage, last.finish⟩

-- Both ends of the window, the head first.
def window : Page.Access (UInt64 × UInt64) := fun page d => do
  let (head, page, d) ← Page.counter headPosition page d
  let (tail, page, d) ← Page.counter tailPosition page d
  return ((head, tail), page, d)

-- Takes up the window that was kept on disk.
def recover : Action Unit := do
  let (head, tail) ← onEnds window
  modify fun (host, l) => (host, { l with head, tail })
  setCursor (← recoverCursor)

def «open» (dir : Path) (dataPageSize : Nat) (policy : CachePolicy) : Step Host Log := do
  if dataPageSize = 0 ∨ maxDataPageSize < dataPageSize then
    throw (.invalidConfig
      ("data page size " ++ toString dataPageSize ++ " must be in 1..=u32::MAX"))
  let index ← Cache.open (dir.join indexDir) Entry.pageSize policy
  let data ← Cache.open (dir.join dataDir) dataPageSize policy
  let ends ← Cache.open (dir.join endsDir) endsPageSize .pinned
  let fresh : Log := { dir, dataPageSize, index, data, ends, head := 0, tail := 0, cursor := ⟨0, 0⟩ }
  let ((), log) ← Step.beside fresh recover
  return log

-- What the host's clock says in an entry. A time past the largest is written as the start of 1970.
def timestamp (now : Nat) : Int64 :=
  if now < 9223372036854775808 then Int64.ofNat now else 0

-- A payload that does not fit behind the cursor starts the next page.
def roll (l : Log) (length : Nat) : Cursor :=
  if l.dataPageSize < l.cursor.offset + length then ⟨l.cursor.page + 1, 0⟩ else l.cursor

def entryFor (cursor : Cursor) (payload : Bytes) (now : Nat) : Entry where
  dataPage := cursor.page
  offset := UInt32.ofNat cursor.offset
  length := UInt32.ofNat payload.length
  timestamp := timestamp now
  checksum := Checksum.ofPayload payload

-- Writes the payload, then its entry, then the new head, and gives the index of the item.
def append (payload : Bytes) : Action UInt64 := do
  let (host, l) ← get
  if l.dataPageSize < payload.length then
    throw (.itemTooLarge payload.length l.dataPageSize)
  let cursor := l.roll payload.length
  setCursor cursor
  onDataPage cursor.page (Page.write cursor.offset payload)
  writeEntry l.head (entryFor cursor payload host.now)
  setCursor { cursor with offset := cursor.offset + payload.length }
  publishHead (l.head + 1)
  return l.head

-- The payload at an index, if its bytes and length are those that the entry vouches for.
def fetch (index : UInt64) : Action Bytes := do
  let (_, l) ← get
  Step.ofExcept (l.checkIndex index)
  let e ← readEntry index
  let payload ← onDataPage e.dataPage (Page.read e.offset.toNat e.length.toNat)
  if Checksum.ofPayload payload ≠ e.checksum then throw (.corrupted index)
  return payload

def timestampOf (index : UInt64) : Action Int64 := do
  let (_, l) ← get
  Step.ofExcept (l.checkIndex index)
  return (← readEntry index).timestamp

-- Deletes every page and starts again at zero.
def removeAll : Action Unit := do
  Step.inside indexPart Cache.deleteAll
  Step.inside dataPart Cache.deleteAll
  publish headPosition 0
  publish tailPosition 0
  modify fun (host, l) => (host, { l with head := 0, tail := 0, cursor := ⟨0, 0⟩ })

-- Moves the tail up to an index of the window and deletes the pages in front of its entry and of its
-- payload.
def removeBefore (index : UInt64) : Action Unit := do
  let (_, l) ← get
  Step.ofExcept (l.checkIndex index)
  let e ← readEntry index
  Step.inside indexPart (Cache.deleteBefore (Entry.pageOf index))
  Step.inside dataPart (Cache.deleteBefore e.dataPage)
  publishTail index

-- Up to the first cache with a page that cannot be flushed.
def flush : Action Unit := do
  Step.inside indexPart Cache.flush
  Step.inside dataPart Cache.flush
  Step.inside endsPart Cache.flush

-- All three caches are closed, and the first error is what is told of them.
def close : Action Unit := do
  let index ← (Step.inside indexPart Cache.close).attempt
  let data ← (Step.inside dataPart Cache.close).attempt
  let ends ← (Step.inside endsPart Cache.close).attempt
  Step.ofExcept index
  Step.ofExcept data
  Step.ofExcept ends

def sweep (l : Log) (now : Nat) : Log :=
  { l with index := l.index.sweep now, data := l.data.sweep now, ends := l.ends.sweep now }

-- The bytes of all page files of the log.
def diskUsage (l : Log) (d : Disk) : Except Error Nat := do
  return (← l.index.diskUsage d) + (← l.data.diskUsage d) + (← l.ends.diskUsage d)

-- The bytes of an entry as they are in the file of its page, if the file has them.
def entryBytes? (l : Log) (d : Disk) (index : UInt64) : Option Bytes :=
  match d.lookup (l.index.pagePath (Entry.pageOf index)) with
  | .ok (.file id) =>
    let content := d.content id
    if Entry.positionOf index + Entry.width ≤ content.size then
      some (content.read (Entry.positionOf index) Entry.width)
    else none
  | _ => none

def diagnostic (l : Log) : String :=
  Text.openLayout "BigArray" [
    ("dir", Text.quoted l.dir.text),
    ("data_page_size", toString l.dataPageSize),
    ("head", toString l.head),
    ("tail", toString l.tail)]

theorem contains_iff {l : Log} {index : UInt64} :
    l.contains index = true ↔ index - l.tail < l.head - l.tail :=
  decide_eq_true_iff

theorem checkIndex_eq_ok_iff {l : Log} {index : UInt64} :
    l.checkIndex index = .ok () ↔ l.contains index = true := by
  unfold checkIndex
  split <;> simp_all

end Log

end Spool
