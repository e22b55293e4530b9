import Spool.Proofs.Queue.Moves
import Spool.Proofs.Queue.Repairing
import Spool.Proofs.Queue.Run

namespace Spool.Queue

inductive Stage where
  | move (m : Move)
  | reopen (closing : Bool) (dataPageSize : Nat) (policy : CachePolicy)

namespace Stage

-- If closing fails, the queue is closed all the same, and it is opened again.
def perform (dir : Path) : Stage → Action Unit
  | move m => m.act
  | reopen closing dataPageSize policy => do
    if closing then discard Queue.close.attempt
    Queue.reopen dir dataPageSize false policy

def IsValid : Stage → Prop
  | move _ => True
  | reopen _ dataPageSize _ => 0 < dataPageSize ∧ dataPageSize ≤ Log.maxDataPageSize

end Stage

section

variable {dir : Path} {base : Location} {s t : Host × Store × Queue} {b : Log.Books} {front : UInt64}

theorem Fresh.slotOf_eq {q : Queue} (h : Fresh q) (kind : Kind) : slotOf kind q = none := by
  cases kind with
  | look => exact h.peekSlot
  | take => exact h.dequeueSlot

theorem Fresh.attended {q : Queue} (hfresh : Fresh q) (front head : UInt64) :
    q.Attended front head := by
  have hwaits : ∀ id, ¬q.Waits id := by
    rintro id ⟨wakers, hslot⟩
    rw [slot?, hfresh.slots] at hslot
    cases hslot
  refine Noted.attended ⟨fun h => absurd h (hwaits _), fun {kind} _ _ h => ?_, fun {kind} _ h => ?_⟩ hwaits
  · rw [hfresh.slotOf_eq kind] at h
    cases h
  · rw [hfresh.slotOf_eq kind] at h
    cases h

theorem Shows.close_attempt (h : Shows dir base s b front) :
    Step.Ends (discard Queue.close.attempt : Action PUnit) s (.ok ⟨⟩) fun t => t.1 = s.1 :=
  ⟨rfl, host_close h.notClosed⟩

-- A queue that was let go of is opened again over what its log finds.
theorem Shows.reopen_over {b' : Log.Books} {l : Log} {pageSize : Nat} {policy : CachePolicy}
    (h : Shows dir base s b front) (closing : Bool)
    (hlog : Step.Ends (Log.open dir pageSize policy) s.1 (.ok l) fun host' =>
      Log.Shows dir base (host', l) b' ∧ Disk.Frame (base :: Log.folders base) s.1.disk host'.disk) :
    Step.Ends ((Stage.reopen closing pageSize policy).perform dir) s (.ok ()) fun t =>
      Shows dir base t b' (repairedFront (keptFront s.1.disk base) b'.tail b'.head) ∧
        Fresh t.2.2 ∧ t.2.1.faults = [] := by
  obtain ⟨⟨st, q⟩, hopen, hfaults, hfresh⟩ := exists_openAt hlog
  have hrest : ∀ t : Host × Store × Queue, t.1 = s.1 →
      Step.Ends (Queue.reopen dir pageSize false policy) t (.ok ()) fun t =>
        Shows dir base t b' (repairedFront (keptFront s.1.disk base) b'.tail b'.head) ∧
          Fresh t.2.2 ∧ t.2.1.faults = [] := by
    rintro ⟨host, rest⟩ rfl
    unfold Queue.reopen
    refine (hopen.onHost rest).bind ?_
    rintro ⟨host', rest'⟩ ⟨hshows, -⟩
    exact Step.ends_modify ⟨hshows, hfresh, hfaults⟩
  unfold Stage.perform
  cases closing with
  | false => exact hrest s rfl
  | true => exact h.close_attempt.bind hrest

-- It takes up whatever is found on the disk.
theorem Shows.reopen (h : Shows dir base s b front) (closing : Bool) {pageSize : Nat}
    (hpos : 0 < pageSize) (hle : pageSize ≤ Log.maxDataPageSize) (policy : CachePolicy) :
    ∃ b', Step.Ends ((Stage.reopen closing pageSize policy).perform dir) s (.ok ()) (fun t =>
        Shows dir base t b' (repairedFront (keptFront s.1.disk base) b'.tail b'.head) ∧
          Fresh t.2.2 ∧ t.2.1.faults = []) ∧
      b'.head = (Log.Books.found pageSize base s.1).head ∧
      b'.tail = (Log.Books.found pageSize base s.1).tail ∧ b'.dataPageSize = pageSize := by
  obtain ⟨l, b', hlog, hhead, htail, hsize, -⟩ := Log.ends_open_any h.log.site hpos hle policy
  exact ⟨b', h.reopen_over closing hlog, hhead, htail, hsize⟩

end

end Spool.Queue
