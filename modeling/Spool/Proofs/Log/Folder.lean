import Spool.Log.Basic
import Spool.Proofs.Cache.Residents
import Spool.Proofs.Disk.Site

namespace Spool.Log

-- The three directories of a log. Each has a cache of its own within the log, and what is done with one of
-- them leaves the other two and the counters as they are.
inductive Folder where
  | index
  | data
  | ends
deriving DecidableEq

-- Two logs that differ in nothing but their caches.
structure SameCounts (l l' : Log) : Prop where
  dataPageSize : l.dataPageSize = l'.dataPageSize
  head : l.head = l'.head
  tail : l.tail = l'.tail
  cursor : l.cursor = l'.cursor

-- What closing leaves of a log.
def retired (l : Log) : Log :=
  { l with index := l.index.retired, data := l.data.retired, ends := l.ends.retired }

namespace Folder

def name : Folder → String
  | index => indexDir
  | data => dataDir
  | ends => endsDir

def part : Folder → Part (Host × Log) (Host × Cache)
  | index => indexPart
  | data => dataPart
  | ends => endsPart

-- How long the pages of a directory are.
def pageSize (dataPageSize : Nat) : Folder → Nat
  | index => Entry.pageSize
  | data => dataPageSize
  | ends => endsPageSize

def cache (l : Log) : Folder → Cache
  | index => l.index
  | data => l.data
  | ends => l.ends

section

variable {f g : Folder} (u : Host × Cache) (s : Host × Log)

theorem forall_of {P : Folder → Prop} (hindex : P .index) (hdata : P .data) (hends : P .ends) (f : Folder) :
    P f := by
  cases f with
  | index => exact hindex
  | data => exact hdata
  | ends => exact hends

theorem partName (f : Folder) : Disk.PartName f.name := by
  cases f <;> decide

theorem name_injective (h : f.name = g.name) : f = g := by
  cases f <;> cases g <;> first | rfl | exact absurd h (by decide)

theorem pageSize_pos {dataPageSize : Nat} (h : 0 < dataPageSize) (f : Folder) :
    0 < f.pageSize dataPageSize := by
  cases f with
  | index => exact (by decide : 0 < Entry.pageSize)
  | data => exact h
  | ends => exact (by decide : 0 < endsPageSize)

theorem place_not_mem (h : g ≠ f) (base : Location) : g.name :: base ∉ [f.name :: base] := by
  simpa using fun hname => h (name_injective hname)

theorem get_part (f : Folder) : f.part.get s = (s.1, f.cache s.2) := by
  cases f <;> rfl

theorem fst_set_part (f : Folder) : (f.part.set u s).1 = u.1 := by
  cases f <;> rfl

theorem cache_set_part (f g : Folder) :
    g.cache (f.part.set u s).2 = if g = f then u.2 else g.cache s.2 := by
  cases f <;> cases g <;> rfl

-- The cache that was there is put back.
theorem set_part_cache (f : Folder) (host : Host) : f.part.set (host, f.cache s.2) s = (host, s.2) := by
  cases f <;> rfl

theorem cache_sweep (l : Log) (now : Nat) (f : Folder) :
    f.cache (l.sweep now) = (f.cache l).sweep now := by
  cases f <;> rfl

theorem cache_retired (l : Log) (f : Folder) : f.cache l.retired = (f.cache l).retired := by
  cases f <;> rfl

theorem sameCounts_set_part (f : Folder) : SameCounts s.2 (f.part.set u s).2 := by
  cases f <;> exact ⟨rfl, rfl, rfl, rfl⟩

end

end Folder

section

variable {l l' l'' : Log}

theorem SameCounts.symm (h : SameCounts l l') : SameCounts l' l :=
  ⟨h.dataPageSize.symm, h.head.symm, h.tail.symm, h.cursor.symm⟩

theorem SameCounts.trans (h : SameCounts l l') (h' : SameCounts l' l'') : SameCounts l l'' :=
  ⟨h.dataPageSize.trans h'.dataPageSize, h.head.trans h'.head, h.tail.trans h'.tail,
    h.cursor.trans h'.cursor⟩

theorem SameCounts.checkIndex_eq (h : SameCounts l l') (index : UInt64) :
    l.checkIndex index = l'.checkIndex index := by
  unfold checkIndex contains size
  rw [h.head, h.tail]

end

private theorem run_close_part (f : Folder) (s : Host × Log) :
    (Step.inside f.part Cache.close).attempt.run s =
      (.ok (Cache.close.run (s.1, f.cache s.2)).1, f.part.set (s.1, (f.cache s.2).retired) s) := by
  rw [Step.run_attempt, Step.run_inside, Folder.get_part, Cache.snd_run_close]

-- No cache is spared because another one could not be let go.
theorem run_close (s : Host × Log) :
    Log.close.run s = ((do
      (Cache.close.run (s.1, s.2.index)).1
      (Cache.close.run (s.1, s.2.data)).1
      (Cache.close.run (s.1, s.2.ends)).1), (s.1, s.2.retired)) := by
  refine (Step.run_bind_of_run (run_close_part .index s)).trans ?_
  refine (Step.run_bind_of_run (run_close_part .data _)).trans ?_
  refine (Step.run_bind_of_run (run_close_part .ends _)).trans ?_
  show (do
    Step.ofExcept (Cache.close.run (s.1, s.2.index)).1
    Step.ofExcept (Cache.close.run (s.1, s.2.data)).1
    Step.ofExcept (Cache.close.run (s.1, s.2.ends)).1 : Action Unit).run (s.1, s.2.retired) = _
  rcases (Cache.close.run (s.1, s.2.index)).1 with e | u
  · rfl
  rcases (Cache.close.run (s.1, s.2.data)).1 with e | u
  · rfl
  rfl

theorem snd_run_close (s : Host × Log) : (Log.close.run s).2 = (s.1, s.2.retired) := by
  rw [run_close]

theorem run_close_of_calm {s : Host × Log} (h : s.1.disk.Calm) :
    Log.close.run s = (.ok (), (s.1, s.2.retired)) := by
  simp only [run_close, Cache.run_close_of_calm _ h]
  rfl

end Spool.Log
