import Spool.Config.Basic
import Spool.Log.Store
import Spool.Waiting.Slot

namespace Spool

-- Slots are told apart by the order in which they were set up.
abbrev SlotId := Nat

-- The log keeps the payloads and the head, and the queue keeps the front, the index of the next item to hand
-- out. Items behind the front stay in the log until they are collected.
structure Queue where
  dir : Path
  front : Cache
  slots : Array Slot
  -- The slots that were last set up for taking an item and for looking at one.
  dequeueSlot : Option SlotId
  peekSlot : Option SlotId
  closed : Bool

namespace Queue

abbrev Action (α : Type) := Step (Host × Store × Queue) α

def frontDir : String := "front_index"

def frontPageSize : Nat := 8

def frontPage : UInt64 := 0

def frontPosition : Nat := 0

def storePart : Part (Host × Store × Queue) (Host × Store) where
  get s := (s.1, s.2.1)
  set t s := (t.1, t.2, s.2.2)

def frontPart : Part (Host × Store × Queue) (Host × Cache) where
  get s := (s.1, s.2.2.front)
  set t s := (t.1, s.2.1, { s.2.2 with front := t.2 })

def onFront (access : Page.Access α) : Action α :=
  Step.inside frontPart (Cache.withPage frontPage access)

def onStore (x : Store.Action α) : Action α :=
  Step.inside storePart x

def store : Action Store := do
  return (← get).2.1

def modifyQueue (f : Queue → Queue) : Action Unit :=
  modify fun (host, s, q) => (host, s, f q)

-- A front that is not in the window, its upper end included, goes back to the tail.
def repairedFront (front tail head : UInt64) : UInt64 :=
  if head - tail < front - tail then tail else front

-- Reads the front and puts it back into the window if it has to.
def repairFront (tail head : UInt64) : Page.Access Unit := fun page d => do
  let (front, page, d) ← Page.counter frontPosition page d
  let repaired := repairedFront front tail head
  if repaired = front then return ((), page, d)
  else Page.setCounter frontPosition repaired page d

-- Sets up a queue over a log that is already open. The front is kept below `dir`.
def openOver (dir : Path) : Step (Host × Store) Queue := do
  let frontCache ← Step.inside Part.host (Cache.open (dir.join frontDir) frontPageSize .pinned)
  let (_, s) ← get
  let (_, front) ← Step.inside Part.host <| Step.beside frontCache <|
    Cache.withPage frontPage (repairFront s.tail s.head)
  return { dir, front, slots := #[], dequeueSlot := none, peekSlot := none, closed := false }

-- Opens a log in a directory and a queue over it.
def openAt (dir : Path) (dataPageSize : Nat) (policy : CachePolicy) :
    Step Host (Store × Queue) := do
  let log ← Log.open dir dataPageSize policy
  let (queue, s) ← Step.beside (Store.ofLog log) (openOver dir)
  return (s, queue)

def «open» (config : Config) : Step Host (Store × Queue) := do
  Step.ofExcept config.validate
  openAt config.queueDir config.dataPageSize.toNat config.cachePolicy

def expectOpen : Action Unit := do
  if (← get).2.2.closed then throw .queueClosed

def readFront : Action UInt64 :=
  onFront (Page.counter frontPosition)

def writeFront (value : UInt64) : Action Unit :=
  onFront (Page.setCounter frontPosition value)

def frontIndex : Action UInt64 := do
  expectOpen
  readFront

def headIndex : Action UInt64 := do
  expectOpen
  return (← store).head

def isEmpty : Action Bool := do
  expectOpen
  return (← readFront) = (← store).head

def size : Action UInt64 := do
  expectOpen
  let front ← readFront
  return (← store).head - front

-- The front moves on before the item is read, so an item that cannot be read is not handed out again.
def dequeue : Action (Option Bytes) := do
  expectOpen
  if (← readFront) = (← store).head then return none
  let index ← onFront (Page.increment frontPosition)
  return some (← onStore (Store.fetch index))

def peek : Action (Option Bytes) := do
  expectOpen
  let front ← readFront
  if front = (← store).head then return none
  return some (← onStore (Store.fetch front))

-- The item some places behind the front, if there is one.
def peekAt (offset : Int) : Action (Option Bytes) := do
  expectOpen
  if offset < 0 then return none
  let front ← readFront
  if ((← store).head - front).toNat ≤ offset.toNat then return none
  return some (← onStore (Store.fetch (front + UInt64.ofNat offset.toNat)))

def slot? (q : Queue) (id : SlotId) : Option Slot :=
  q.slots[id]?

def modifySlot (q : Queue) (id : SlotId) (f : Slot → Slot) : Queue :=
  { q with slots := q.slots.modify id f }

-- The slot of that number if it is still pending.
def pending? (q : Queue) (id : Option SlotId) : Option SlotId :=
  match id with
  | none => none
  | some id =>
    match q.slot? id with
    | some (.pending _) => some id
    | _ => none

def addSlot (q : Queue) : SlotId × Queue :=
  (q.slots.size, { q with slots := q.slots.push .fresh })

-- Finishes a slot with what a read comes to. The read's error goes to the slot.
def settle (id : SlotId) (read : Action (Option Bytes)) : Action Unit := do
  let result ← read.attempt
  modifyQueue fun q => q.modifySlot id fun slot => slot.settle result

-- Tries to finish a slot if there is one that is pending.
def complete (slotOf : Queue → Option SlotId) (read : Action (Option Bytes)) : Action Unit := do
  let (_, _, q) ← get
  match q.pending? (slotOf q) with
  | none => return ()
  | some id => settle id read

-- Those who look at an item are served before the one who takes it.
def completeWaiters : Action Unit := do
  complete Queue.peekSlot peek
  complete Queue.dequeueSlot dequeue

def enqueue (payload : Bytes) : Action Unit := do
  expectOpen
  discard (onStore (Store.append payload))
  completeWaiters

-- The slot of one kind if it is pending, or else a new one, which is noted as the slot of its kind.
def pendingSlot (slotOf : Queue → Option SlotId) (note : SlotId → Queue → Queue) :
    Action SlotId := do
  let (host, s, q) ← get
  match q.pending? (slotOf q) with
  | some id => return id
  | none =>
    let (id, q) := q.addSlot
    set (host, s, note id q)
    return id

-- A slot that waits for an item to take.
def dequeueAsync : Action SlotId := do
  expectOpen
  let id ← pendingSlot Queue.dequeueSlot fun id q => { q with dequeueSlot := some id }
  settle id dequeue
  return id

-- A slot that waits for an item to look at.
def peekAsync : Action SlotId := do
  expectOpen
  let id ← pendingSlot Queue.peekSlot fun id q => { q with peekSlot := some id }
  settle id peek
  return id

-- Drops items from the front, never more than there are.
def removeN (n : Int) : Action Unit := do
  expectOpen
  if n < 0 then return ()
  let front ← readFront
  let waiting := ((← store).head - front).toNat
  writeFront (front + UInt64.ofNat (min n.toNat waiting))

def removeAll : Action Unit := do
  expectOpen
  onStore Store.removeAll
  writeFront 0

-- Visits `n` items from an index on, up to the first that cannot be read.
def visitFrom (visit : Bytes → Action β) : Nat → UInt64 → Action (List β × Except Error Unit)
  | 0, _ => return ([], .ok ())
  | n + 1, index => do
    match ← (onStore (Store.fetch index)).attempt with
    | .error e => return ([], .error e)
    | .ok payload =>
      let b ← visit payload
      let (bs, result) ← visitFrom visit n (index + 1)
      return (b :: bs, result)

-- Visits the waiting items in order and takes none of them. What the visits gave is kept even if an
-- item cannot be read.
def forEach (visit : Bytes → Action β) : Action (List β × Except Error Unit) := do
  expectOpen
  let head := (← store).head
  let front ← readFront
  visitFrom visit (head - front).toNat front

-- Gives back the storage of items behind the front, except for the last of them.
def collect : Action Unit := do
  expectOpen
  let front ← readFront
  match ← (onStore (Store.removeBefore (front - 1))).attempt with
  | .ok () => return ()
  | .error (.outOfRange ..) => return ()
  | .error e => throw e

def flush : Action Unit := do
  expectOpen
  Step.inside frontPart Cache.flush
  onStore Store.flush

-- How often a waker was woken by a slot of the queue.
def wakes (q : Queue) (waker : Waker) : Nat :=
  q.slots.foldl (fun total slot => total + slot.wakes waker) 0

def cancelSlot (q : Queue) (id : Option SlotId) : Queue :=
  match id with
  | none => q
  | some id => q.modifySlot id fun slot => slot.cancel.2

-- Nobody waits for the queue any longer.
def cancelWaiting (q : Queue) : Queue :=
  { (q.cancelSlot q.dequeueSlot).cancelSlot q.peekSlot with dequeueSlot := none, peekSlot := none }

-- Closing again does nothing. The queue is closed from the start, its waiters are cancelled and its log is
-- closed even if the front cannot be let go, and then the error of the front is the one that is told.
def close : Action Unit := do
  if (← get).2.2.closed then return ()
  modifyQueue fun q => { q with closed := true }
  let front ← (Step.inside frontPart Cache.close).attempt
  modifyQueue cancelWaiting
  let log ← (onStore Store.close).attempt
  Step.ofExcept front
  Step.ofExcept log

def diagnostic (q : Queue) (s : Store) : String :=
  Text.openLayout "BigQueue" [
    ("dir", Text.quoted q.dir.text),
    ("head", toString s.head),
    ("tail", toString s.tail),
    ("closed", toString q.closed)]

theorem repairedFront_sub_le (front tail head : UInt64) :
    repairedFront front tail head - tail ≤ head - tail := by
  unfold repairedFront
  split
  · simp
  · next h => exact UInt64.not_lt.mp h

theorem repairedFront_of_le {front tail head : UInt64} (h : front - tail ≤ head - tail) :
    repairedFront front tail head = front := by
  simp [repairedFront, UInt64.not_lt.mpr h]

end Queue

end Spool
