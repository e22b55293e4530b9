import Std.Data.TreeSet
import Spool.Cache.Policy
import Spool.Page.Basic
import Spool.Page.Scan

namespace Spool

-- Pages are told apart by the order in which they were mapped.
abbrev PageId := Nat

structure Resident where
  page : PageId
  -- When the page was last acquired or released, in milliseconds since the cache was opened.
  lastUse : Nat
deriving DecidableEq

-- The cache of one directory's pages. It keeps every page it ever handed out, because a page that left the
-- cache may still be in somebody's hands; `resident` says which of them it would hand out again.
structure Cache where
  dir : Path
  pageSize : Nat
  policy : CachePolicy
  -- The host's clock when the cache was opened, and when idle pages were last looked for.
  openedAt : Nat
  sweptAt : Nat
  pages : Array Page
  resident : Std.TreeMap UInt64 Resident
  closed : Bool

namespace Cache

abbrev Action (α : Type) := Step (Host × Cache) α

-- A call for the thread that looks for idle pages. Only a cache that lets them go has one.
def askSweeper (policy : CachePolicy) (call : SystemCall) (dir : Path) (message : String) (d : Disk) :
    Except Error Unit :=
  match policy with
  | .pinned => .ok ()
  | .evict .. => if d.refuses call dir then .error (.internal message) else .ok ()

def startSweeper (policy : CachePolicy) (dir : Path) (d : Disk) : Except Error Unit :=
  askSweeper policy .startThread dir ("failed to spawn page sweeper: " ++ Refusal.systemError.reason) d

def «open» (dir : Path) (pageSize : Nat) (policy : CachePolicy) : Step Host Cache := do
  Step.onDisk dir fun d => d.makeDirectories dir
  let host ← get
  Step.ofExcept (startSweeper policy dir host.disk)
  let now := host.now
  return { dir, pageSize, policy, openedAt := now, sweptAt := now, pages := #[], resident := ∅,
           closed := false }

-- The cache's own clock, in whole milliseconds, at most the largest word of them.
def millis (c : Cache) (now : Nat) : Nat :=
  min ((now - c.openedAt) / 1000000) (UInt64.size - 1)

def size (c : Cache) : Nat :=
  c.resident.size

def pagePath (c : Cache) (index : UInt64) : Path :=
  PageFile.path c.dir index

def page? (c : Cache) (id : PageId) : Option Page :=
  c.pages[id]?

def modifyPage (c : Cache) (id : PageId) (f : Page → Page) : Cache :=
  { c with pages := c.pages.modify id f }

def touch (c : Cache) (now : Nat) (index : UInt64) (id : PageId) : Cache :=
  { c with resident := c.resident.insert index ⟨id, c.millis now⟩ }

-- Hands out the page once more if the cache has it, even if its holder closed it.
def retain? (c : Cache) (now : Nat) (index : UInt64) : Option (PageId × Cache) :=
  match c.resident[index]? with
  | none => none
  | some r => some (r.page, (c.modifyPage r.page Page.retain).touch now index r.page)

-- Takes in a page that was just mapped, with its first hold.
def takeIn (c : Cache) (now : Nat) (page : Page) : PageId × Cache :=
  let grown := { c with pages := c.pages.push page.retain }
  (c.pages.size, grown.touch now page.index c.pages.size)

def acquire (index : UInt64) : Action PageId := do
  let (host, c) ← get
  match c.retain? host.now index with
  | some (id, c) =>
    set (host, c)
    return id
  | none =>
    if c.closed then throw (.cacheClosed c.dir)
    let page ← Step.inside Part.host (Page.map (c.pagePath index) index c.pageSize)
    modifyGet fun (host, c) =>
      let (id, c) := c.takeIn host.now page
      (id, (host, c))

-- Whether the cache would hand out this very page again.
def isResident (c : Cache) (page : Page) (id : PageId) : Bool :=
  (c.resident[page.index]?.map Resident.page) = some id

-- Gives back one hold. A page that left the cache does not touch the one that took its place.
def release (c : Cache) (now : Nat) (id : PageId) : Cache :=
  match c.page? id with
  | none => c
  | some page =>
    let c := if c.isResident page id then c.touch now page.index id else c
    c.modifyPage id Page.release

def releasePage (id : PageId) : Action Unit :=
  modify fun (host, c) => (host, c.release host.now id)

-- Does something with a page that was handed out.
def onPage (id : PageId) (access : Page.Access α) : Action α := do
  let (host, c) ← get
  match c.page? id with
  | none => throw (.internal "no such page")
  | some page =>
    let (a, page, disk) ← Step.ofExcept (access page host.disk)
    set ({ host with disk }, c.modifyPage id fun _ => page)
    return a

-- Flushes or closes a page that was handed out. The page may change even if that fails.
def settlePage (id : PageId) (settle : Page → Disk → Except Error Unit × Page) : Action Unit := do
  let (host, c) ← get
  match c.page? id with
  | none => throw (.internal "no such page")
  | some page =>
    let (result, page) := settle page host.disk
    set (host, c.modifyPage id fun _ => page)
    Step.ofExcept result

-- Does something with the page of a number and releases it, also when that fails.
def withPage (index : UInt64) (access : Page.Access α) : Action α := do
  let id ← acquire index
  let result ← (onPage id access).attempt
  releasePage id
  Step.ofExcept result

-- What the system says to the unflushed writes of one page that the cache has.
def syncResident (c : Cache) (d : Disk) (r : Resident) : Except Error Unit :=
  match c.page? r.page with
  | none => .ok ()
  | some page => page.sync d

-- What it says to those of all of them: the first refusal, if there is one.
def sync (c : Cache) (d : Disk) : Except Error Unit :=
  c.resident.values.forM (c.syncResident d)

-- One page that cannot be flushed does not keep the others from it.
def flushed (c : Cache) (d : Disk) : Cache :=
  c.resident.values.foldl (fun c r => c.modifyPage r.page fun p => (p.flush d).2) c

def flush : Action Unit := do
  let (host, c) ← get
  set (host, c.flushed host.disk)
  Step.ofExcept (c.sync host.disk)

-- The cache without its pages, which are closed, held or not.
def emptied (c : Cache) : Cache :=
  let c := c.resident.values.foldl (fun c r => c.modifyPage r.page Page.unmap) c
  { c with resident := ∅ }

def releaseAll : Action Unit := do
  let (host, c) ← get
  set (host, c.emptied)
  Step.ofExcept (c.sync host.disk)

-- The cache without one page, which is closed, held or not.
def uncache (c : Cache) (index : UInt64) : Cache :=
  match c.resident[index]? with
  | none => c
  | some r =>
    { c.modifyPage r.page Page.unmap with resident := c.resident.erase index }

-- What the system says to the unflushed writes of the page of a number, if the cache has it.
def syncPage (c : Cache) (d : Disk) (index : UInt64) : Except Error Unit :=
  match c.resident[index]? with
  | none => .ok ()
  | some r => c.syncResident d r

-- A file that is not there counts as removed.
def removeFile (path : Path) : Step Host Unit :=
  Step.onDisk path fun d =>
    match d.removeFile path with
    | .ok d => (.ok (), d)
    | .error .notFound => (.ok (), d)
    | .error e => (.error e, d)

-- Closes a page if the cache has it, and removes its file unless the last flush was refused.
def delete (index : UInt64) : Action Unit := do
  let (host, c) ← get
  set (host, c.uncache index)
  Step.ofExcept (c.syncPage host.disk index)
  Step.inside Part.host (removeFile (c.pagePath index))

def existingIndexes (c : Cache) (d : Disk) : Except Error (List UInt64) :=
  (PageFile.scan d c.dir).map fun pages => pages.map Prod.fst

-- The numbers of all pages on disk or in the cache, in order and each once.
def knownIndexes (c : Cache) (d : Disk) : Except Error (List UInt64) := do
  let existing ← c.existingIndexes d
  return (Std.TreeSet.ofList (existing ++ c.resident.keys)).toList

-- Deletes the known pages that are asked for, in order, up to the first that cannot be deleted.
def deleteWhere (asked : UInt64 → Bool) : Action Unit := do
  let (host, c) ← get
  let known ← Step.ofExcept (c.knownIndexes host.disk)
  (known.filter asked).forM delete

def deleteBefore (index : UInt64) : Action Unit :=
  deleteWhere fun known => known < index

def deleteAll : Action Unit :=
  deleteWhere fun _ => true

def fileSize (d : Disk) (path : Path) : Nat :=
  match d.lookup path with
  | .ok (.file id) => (d.content id).size
  | _ => 0

-- The bytes of all page files together.
def diskUsage (c : Cache) (d : Disk) : Except Error Nat :=
  (PageFile.scan d c.dir).map fun pages => pages.foldr (fun page total => fileSize d page.2 + total) 0

def stopSweeper (c : Cache) (d : Disk) : Except Error Unit :=
  askSweeper c.policy .joinThread c.dir "page sweeper thread panicked" d

def shut (c : Cache) : Cache :=
  { c with closed := true }.emptied

-- Closing again does nothing. The cache is closed and empty whatever goes wrong on the way, and a page
-- that could not be flushed is reported before a thread that could not be stopped.
def close : Action Unit := do
  let (host, c) ← get
  if c.closed then return ()
  set (host, c.shut)
  Step.ofExcept (c.sync host.disk)
  Step.ofExcept (c.stopSweeper host.disk)

def holders (c : Cache) (id : PageId) : Nat :=
  match c.page? id with
  | none => 0
  | some page => page.holders

def isIdle (c : Cache) (now : Nat) (ttl : Span) (r : Resident) : Bool :=
  c.holders r.page = 0 && ttl.toMillis ≤ c.millis now - r.lastUse

-- Drops and closes the pages that nobody holds and that were idle for long enough.
def evictIdle (c : Cache) (now : Nat) : Cache :=
  match c.policy.ttl? with
  | none => c
  | some ttl =>
    let idle := c.resident.toList.filter fun entry => c.isIdle now ttl entry.2
    idle.foldl (fun c entry => c.uncache entry.1) c

-- Looks for idle pages if it is time to. A closed cache no longer does.
def sweep (c : Cache) (now : Nat) : Cache :=
  match c.policy with
  | .pinned => c
  | .evict _ interval =>
    if c.closed || now - c.sweptAt < interval.toNanos then c
    else { c.evictIdle now with sweptAt := now }

def diagnostic (c : Cache) : String :=
  let ttl := match c.policy.ttl? with
    | none => "None"
    | some ttl => "Some(" ++ ttl.text ++ ")"
  Text.layout "PageFactory" [
    ("dir", Text.quoted c.dir.text),
    ("page_size", toString c.pageSize),
    ("ttl", ttl),
    ("cached", toString c.size)]

theorem page?_modifyPage (c : Cache) (id : PageId) (f : Page → Page) (other : PageId) :
    (c.modifyPage id f).page? other =
      if other = id then (c.page? other).map f else c.page? other := by
  by_cases h : other = id
  · subst h; simp [page?, modifyPage, Array.getElem?_modify]
  · simp [page?, modifyPage, Array.getElem?_modify, h, Ne.symm h]

theorem resident_modifyPage (c : Cache) (id : PageId) (f : Page → Page) :
    (c.modifyPage id f).resident = c.resident := rfl

theorem getElem?_resident_uncache (c : Cache) (index other : UInt64) :
    (c.uncache index).resident[other]? = if other = index then none else c.resident[other]? := by
  unfold uncache
  split
  · next hnone =>
    by_cases h : other = index
    · subst h; simp [hnone]
    · simp [h]
  · by_cases h : other = index
    · subst h; simp
    · simp [Std.TreeMap.getElem?_erase, h, Ne.symm h]

end Cache

end Spool
