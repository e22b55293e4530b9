import Spool.Disk.Listing
import Spool.Queue.Basic
import Spool.Waiting.Watch

namespace Spool

abbrev CacheId := Nat

abbrev StoreId := Nat

abbrev QueueId := Nat

-- A slot by the queue that set it up.
structure Waiter where
  queue : QueueId
  slot : SlotId
deriving DecidableEq

-- Somebody who blocks on a slot.
structure Watcher where
  waiter : Waiter
  watch : Watch

-- A host with everything that is open on it. One log can serve several queues, so each is told apart by number
-- of issue. Time passes only when somebody sleeps or waits.
structure Depot where
  host : Host
  openedAt : Nat
  caches : Array Cache
  stores : Array Store
  -- Each queue with the log that it is over.
  queues : Array (Queue × StoreId)
  watchers : Array Watcher

namespace Depot

abbrev Action (α : Type) := Step Depot α

def hostPart : Part Depot Host := ⟨Depot.host, fun host d => { d with host }⟩

def start (now : Nat) : Depot where
  host := ⟨.empty, now⟩
  openedAt := now
  caches := #[]
  stores := #[]
  queues := #[]
  watchers := #[]

def openCache (dir : Path) (pageSize : Nat) (policy : CachePolicy) : Action CacheId := do
  let cache ← Step.inside hostPart (Cache.open dir pageSize policy)
  modifyGet fun d => (d.caches.size, { d with caches := d.caches.push cache })

def openLog (dir : Path) (dataPageSize : Nat) (policy : CachePolicy) : Action StoreId := do
  let log ← Step.inside hostPart (Log.open dir dataPageSize policy)
  modifyGet fun d => (d.stores.size, { d with stores := d.stores.push (.ofLog log) })

def onCache (id : CacheId) (x : Cache.Action α) : Action α := do
  let d ← get
  match d.caches[id]? with
  | none => throw (.internal "no such cache")
  | some cache =>
    let part : Part Depot (Host × Cache) :=
      { get := fun d => (d.host, cache)
        set := fun (host, cache) d =>
          { d with host, caches := d.caches.modify id fun _ => cache } }
    Step.inside part x

def onStore (id : StoreId) (x : Store.Action α) : Action α := do
  let d ← get
  match d.stores[id]? with
  | none => throw (.internal "no such log")
  | some store =>
    let part : Part Depot (Host × Store) :=
      { get := fun d => (d.host, store)
        set := fun (host, store) d =>
          { d with host, stores := d.stores.modify id fun _ => store } }
    Step.inside part x

-- Calls on a log that no queue makes meet no planned faults.
def onLog (id : StoreId) (x : Log.Action α) : Action α :=
  onStore id (Step.inside Store.logPart x)

def onQueue (id : QueueId) (x : Queue.Action α) : Action α := do
  let d ← get
  match d.queues[id]? with
  | none => throw (.internal "no such queue")
  | some (queue, storeId) =>
    match d.stores[storeId]? with
    | none => throw (.internal "no such log")
    | some store =>
      let part : Part Depot (Host × Store × Queue) :=
        { get := fun d => (d.host, store, queue)
          set := fun (host, store, queue) d =>
            { d with
              host
              stores := d.stores.modify storeId fun _ => store
              queues := d.queues.modify id fun _ => (queue, storeId) } }
      Step.inside part x

def addQueue (queue : Queue) (store : StoreId) : Action QueueId :=
  modifyGet fun d => (d.queues.size, { d with queues := d.queues.push (queue, store) })

def openQueue (config : Config) : Action QueueId := do
  let (store, queue) ← Step.inside hostPart (Queue.open config)
  let storeId ← modifyGet fun d => (d.stores.size, { d with stores := d.stores.push store })
  addQueue queue storeId

-- A queue over a log that is already open.
def openQueueOver (dir : Path) (store : StoreId) : Action QueueId := do
  let queue ← onStore store (Queue.openOver dir)
  addQueue queue store

def closeCache (id : CacheId) : Action Unit :=
  onCache id Cache.close

def page? (d : Depot) (cache : CacheId) (page : PageId) : Option Page :=
  d.caches[cache]?.bind fun c => c.page? page

-- Gives back one hold on a page through a cache. Only the cache that mapped the page can still have it.
def release (d : Depot) (through owner : CacheId) (page : PageId) : Depot :=
  { d with
    caches := d.caches.modify owner fun c =>
      if through = owner then c.release d.host.now page else c.modifyPage page Page.release }

def slot? (d : Depot) (w : Waiter) : Option Slot :=
  d.queues[w.queue]?.bind fun (queue, _) => queue.slot? w.slot

def result? (d : Depot) (w : Waiter) : Option (Except Error Bytes) :=
  (d.slot? w).bind Slot.result?

def poll (d : Depot) (w : Waiter) (waker : Waker) : Option (Except Error Bytes) × Depot :=
  match d.slot? w with
  | none => (none, d)
  | some slot =>
    let (result, slot) := slot.poll waker
    (result, { d with
      queues := d.queues.modify w.queue fun (queue, store) =>
        (queue.modifySlot w.slot fun _ => slot, store) })

-- How often a waker was woken by any slot.
def wakes (d : Depot) (waker : Waker) : Nat :=
  d.queues.foldl (fun total (queue, _) => total + queue.wakes waker) 0

def expire (d : Depot) (now : Nat) (watcher : Watcher) : Watcher :=
  { watcher with watch := watcher.watch.expire now (d.result? watcher.waiter) }

-- Lets time pass. No slot is finished meanwhile.
def sleep (d : Depot) (nanos : Nat) : Depot :=
  let now := d.host.now + nanos
  { d with
    host := { d.host with now }
    caches := d.caches.map fun cache => cache.sweep now
    stores := d.stores.map fun store => { store with log := store.log.sweep now }
    watchers := d.watchers.map (d.expire now) }

-- Waits on a slot that may stay pending.
def waitFor (d : Depot) (w : Waiter) (timeout : Span) : Option (Except Error Bytes) × Depot :=
  match Watch.deadline? d.host.now timeout, d.result? w with
  | none, _ => (some (.error Watch.overflow), d)
  | some _, some result => (some result, d)
  | some _, none => (none, d.sleep timeout.toNanos)

def watch (d : Depot) (w : Waiter) (timeout : Option Span) : Nat × Depot :=
  let watcher : Watcher := ⟨w, .start d.host.now timeout (d.result? w)⟩
  (d.watchers.size, { d with watchers := d.watchers.push watcher })

-- What a watcher gets. If it is not through, time passes up to its deadline.
def join (d : Depot) (id : Nat) : Option (Except Error Bytes) × Depot :=
  match d.watchers[id]? with
  | none => (none, d)
  | some watcher =>
    match watcher.watch.result? (d.result? watcher.waiter), watcher.watch.deadline with
    | some view, _ => (view, d)
    | none, some deadline => (none, d.sleep (deadline - d.host.now))
    | none, none => (none, d)

def hasSettled (d : Depot) (id : CacheId) (size : Nat) (page : Option (CacheId × PageId)) : Bool :=
  let pageIsClosed := match page with
    | none => true
    | some (cacheId, pageId) =>
      match d.page? cacheId pageId with
      | none => true
      | some page => !page.isOpen
  (d.caches[id]?.map Cache.size) = some size && pageIsClosed

-- Sleeps a millisecond at a time, and at most `millis` of them, until a cache has the given size and
-- a page is closed.
def settle (d : Depot) (id : CacheId) (size : Nat) (page : Option (CacheId × PageId)) :
    Nat → Depot
  | 0 => d
  | millis + 1 =>
    if d.hasSettled id size page then d else settle (d.sleep 1000000) id size page millis

-- Whether a time of an entry lies between the opening of the depot and now.
def isRecent (d : Depot) (time : Int64) : Bool :=
  (d.openedAt : Int) ≤ time.toInt && time.toInt ≤ d.host.now

def changeDisk (d : Depot) (f : Disk → Except Refusal α × Disk) : Except Refusal α × Depot :=
  let (result, disk) := f d.host.disk
  (result, { d with host := { d.host with disk } })

end Depot

end Spool
