import Spool.Proofs.Queue.Repairing
import Spool.Proofs.Queue.Steps

namespace Spool.Queue

-- Nobody waits for an item.
structure Idle (s : Host × Store × Queue) : Prop where
  dequeueSlot : s.2.2.dequeueSlot = none
  peekSlot : s.2.2.peekSlot = none

section

variable {dir : Path} {base : Location} {host : Host} {q : Line}

private theorem ends_openAt {l : Log} {pageSize : Nat} {policy : CachePolicy}
    (hopen : Step.Ends (Log.open dir pageSize policy) host (.ok l) fun host' =>
      Log.Holds dir base (host', l) q.ledger ∧
        Disk.Frame (base :: Log.folders base) host.disk host'.disk)
    (hfront : repairedFront ((host.disk.image (frontDir :: base)).word frontPage frontPosition)
      q.ledger.tail q.ledger.head = q.front)
    (hpassed : q.passed ≤ q.ledger.items.length) :
    ∃ sq, Step.Ends (openAt dir pageSize policy) host (.ok sq) fun host' =>
      Holds dir base (host', sq) q ∧ Idle (host', sq) := by
  obtain ⟨hrun, ⟨b, hshows, hkeeps⟩, hframe⟩ := hopen
  have hlog : Step.Ends (Log.open dir pageSize policy) host (.ok l) fun host' =>
      Log.Shows dir base (host', l) b ∧ Disk.Frame (base :: Log.folders base) host.disk host'.disk :=
    ⟨hrun, hshows, hframe⟩
  obtain ⟨sq, hends, hfaults, hfresh⟩ := exists_openAt hlog
  refine ⟨sq, hends.mono fun host' hqueue => ?_⟩
  rw [hkeeps.tail, hkeeps.head, keptFront, hfront] at hqueue
  obtain ⟨img, hserves, hword⟩ := hqueue.front
  have hstands : Stands dir base (host', sq) q.ledger img :=
    ⟨⟨b, hqueue.log, hkeeps⟩, hfaults, hserves, hqueue.notClosed⟩
  exact ⟨⟨⟨img, hstands, hword⟩, hpassed⟩, hfresh.dequeueSlot, hfresh.peekSlot⟩

section

variable {pageSize : Nat} (hpos : 0 < pageSize) (hle : pageSize ≤ Log.maxDataPageSize)
  (policy : CachePolicy)

include hpos hle

-- Whatever is kept as the front, it is the only index in the window of an empty log, or put there.
theorem ends_openAt_start {start : UInt64} (h : Log.StartsAt host.disk dir base start) :
    ∃ sq, Step.Ends (openAt dir pageSize policy) host (.ok sq) fun host' =>
      Holds dir base (host', sq) (.start pageSize start) ∧ Idle (host', sq) := by
  obtain ⟨l, hopen⟩ := h.open hpos hle policy
  refine ends_openAt (q := .start pageSize start) hopen ?_ (Nat.le_refl 0)
  generalize (host.disk.image (frontDir :: base)).word frontPage frontPosition = front
  have hlength : repairedFront front start (start + 0) - start ≤ start + 0 - start :=
    repairedFront_sub_le _ _ _
  show repairedFront front start (start + 0) = start + 0
  grind

-- A queue that is opened on the files of another takes up its line.
theorem Holds.openAt {s : Host × Store × Queue} (h : Holds dir base s q)
    (hintact : ∀ {k : Nat} {x : Log.Item}, q.ledger.items[k]? = some x → x.lost = false) :
    ∃ sq, Step.Ends (Queue.openAt dir pageSize policy) s.1 (.ok sq) fun host' =>
      Holds dir base (host', sq) ⟨{ q.ledger with pageSize }, q.passed⟩ ∧ Idle (host', sq) := by
  obtain ⟨l, hopen⟩ := h.log.reopen hpos hle policy hintact
  obtain ⟨img, hstands, hword⟩ := h.stands
  refine ends_openAt (q := ⟨{ q.ledger with pageSize }, q.passed⟩)
    (hopen.mono fun host' ht => ⟨ht.holds, ht.frame⟩) ?_ h.passed_le
  rw [hstands.front.image, hword]
  exact repairedFront_of_le (Line.front_sub_tail_le h.lawful h.passed_le)

end

end

end Spool.Queue
