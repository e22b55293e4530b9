import Spool.Proofs.Log.Reclaiming
import Spool.Proofs.Queue.Run

namespace Spool.Queue

-- All that may happen to a queue between opening and closing it.
inductive Act where
  | op (o : Op)
  | dequeueAsync
  | peekAsync
  -- A slot is polled or cancelled.
  | touch (id : SlotId) (f : Slot → Slot)

def Act.perform : Act → Action Unit
  | op o => discard o.perform
  | dequeueAsync => discard Queue.dequeueAsync
  | peekAsync => discard Queue.peekAsync
  | touch id f => modifyQueue fun q => q.modifySlot id f

def Act.enqueues : Act → Nat
  | op o => o.enqueues
  | _ => 0

-- What becomes of each item that is waiting and can be read: it stays if nothing is in front of the
-- front, or else unless its entry is on a page with a smaller number than that of the item there.
structure Reclaims (s : Host × Store × Queue) : Prop where
  collected : (Queue.collect.run s).1 = .ok ()
  peekAt : ∀ front (k : Nat) payload, (frontIndex.run s).1 = .ok front →
    ((Queue.peekAt k).run s).1 = .ok (some payload) →
    ((Queue.peekAt k).run (Queue.collect.run s).2).1 =
      if front ≠ s.2.1.tail ∧
          Log.Entry.pageOf (front + UInt64.ofNat k) < Log.Entry.pageOf (front - 1) then
        .error (.corrupted (front + UInt64.ofNat k))
      else .ok (some payload)

namespace Line

section

variable {q : Line} {k : Nat} {payload : Bytes}

theorem exists_of_look (h : q.look k = .ok (some payload)) :
    k < q.waiting ∧ q.ledger.fetch (q.front + UInt64.ofNat k) = .ok payload := by
  unfold look at h
  split at h
  · next hlt =>
    refine ⟨hlt, ?_⟩
    generalize q.ledger.fetch (q.front + UInt64.ofNat k) = r at h ⊢
    cases r with
    | error e => cases h
    | ok found =>
        cases h
        rfl
  · cases h

theorem front_ne_tail (hlawful : q.ledger.Lawful) (hpassed : q.passed ≤ q.ledger.items.length)
    (hpos : q.passed ≠ 0) : q.front ≠ q.ledger.tail := by
  have hshort := hlawful.short
  intro hsame
  apply hpos
  rw [← Circle.toNat_add_ofNat_sub q.ledger.tail (k := q.passed) (by omega)]
  show (q.front - q.ledger.tail).toNat = 0
  rw [hsame, UInt64.sub_self]
  rfl

theorem look_collect (hlawful : q.ledger.Lawful) (hpassed : q.passed ≤ q.ledger.items.length)
    (hlook : q.look k = .ok (some payload)) :
    q.collect.look k =
      if q.front ≠ q.ledger.tail ∧
          Log.Entry.pageOf (q.front + UInt64.ofNat k) < Log.Entry.pageOf (q.front - 1) then
        .error (.corrupted (q.front + UInt64.ofNat k))
      else .ok (some payload) := by
  have hshort := hlawful.short
  obtain ⟨hlt, hfetch⟩ := exists_of_look hlook
  by_cases hpos : q.passed = 0
  · have hfront : q.front = q.ledger.tail := by
      rw [front, hpos]
      exact UInt64.add_zero _
    rw [collect, if_pos hpos, hlook, if_neg (fun h => h.1 hfront)]
  · have hindex := toNat_front_sub_one hlawful hpassed hpos
    have hin : (q.front - 1 - q.ledger.tail).toNat < q.ledger.items.length := by omega
    unfold waiting at hlt
    have hplace : q.front + UInt64.ofNat k = q.front - 1 + UInt64.ofNat (k + 1) := by
      rw [Circle.add_ofNat_succ]
      grind
    have hbehind : q.front + UInt64.ofNat k - (q.front - 1) < q.ledger.head - (q.front - 1) := by
      rw [← Log.Ledger.head_removeBefore hin]
      refine (Log.Ledger.lt_window_iff (hlawful.removeBefore hin) _).mpr ?_
      show (q.front + UInt64.ofNat k - (q.front - 1)).toNat < _
      rw [hplace, Circle.toNat_add_ofNat_sub _ (by omega), Log.Ledger.length_removeBefore]
      omega
    have hfront : (⟨q.ledger.removeBefore (q.front - 1), 1⟩ : Line).front = q.front :=
      UInt64.sub_add_cancel _ _
    have hwaiting : k < (⟨q.ledger.removeBefore (q.front - 1), 1⟩ : Line).waiting := by
      show k < (q.ledger.removeBefore (q.front - 1)).items.length - 1
      rw [Log.Ledger.length_removeBefore]
      omega
    rw [collect, if_neg hpos, look, if_pos hwaiting, hfront,
      Log.Ledger.fetch_removeBefore hlawful hin hbehind hfetch]
    simp only [ne_eq, front_ne_tail hlawful hpassed hpos, not_false_eq_true, true_and]
    split <;> rfl

end

end Line

section

variable {dir : Path} {base : Location} {s t : Host × Store × Queue} {q q' : Line} {n : Nat}
  {r : Except Error (Option Bytes)} {read : Action (Option Bytes)}

-- What is noted of those who wait is not part of the line.
private theorem Holds.setQueue (h : Holds dir base s q) {queue : Queue}
    (hfront : queue.front = s.2.2.front) (hclosed : queue.closed = s.2.2.closed) :
    Holds dir base (s.1, s.2.1, queue) q := by
  obtain ⟨img, hstands, hword⟩ := h.stands
  refine ⟨⟨img, ⟨hstands.log, hstands.noFaults, ?_, ?_⟩, hword⟩, h.passed_le⟩
  · exact hfront ▸ hstands.front
  · exact hclosed.trans hstands.notClosed

private theorem ends_settle (id : SlotId)
    (hread : Step.Ends read s r fun t => Turns dir base s t q') :
    Step.Ends (settle id read) s (.ok ()) fun t => Holds dir base t q' := by
  unfold settle
  refine hread.attempt.bind ?_
  intro t ht
  exact Step.ends_modify (ht.holds.setQueue rfl rfl)

private theorem ends_complete (h : Holds dir base s q) (slotOf : Queue → Option SlotId)
    (hread : Step.Ends read s r fun t => Turns dir base s t q') :
    Step.Ends (complete slotOf read) s (.ok ()) fun t => Holds dir base t q ∨ Holds dir base t q' := by
  unfold complete
  refine Step.ends_get_bind ?_
  obtain ⟨host, st, queue⟩ := s
  simp only []
  cases queue.pending? (slotOf queue) with
  | none => exact Step.ends_pure (.inl h)
  | some id => exact (ends_settle id hread).mono fun t ht => .inr ht

private theorem ends_pendingSlot (h : Holds dir base s q) (slotOf : Queue → Option SlotId)
    {note : SlotId → Queue → Queue} (hfront : ∀ id queue, (note id queue).front = queue.front)
    (hclosed : ∀ id queue, (note id queue).closed = queue.closed) :
    ∃ id, Step.Ends (pendingSlot slotOf note) s (.ok id) fun t => Holds dir base t q := by
  obtain ⟨host, st, queue⟩ := s
  unfold pendingSlot
  cases hpending : queue.pending? (slotOf queue) with
  | some id =>
      refine ⟨id, Step.ends_get_bind ?_⟩
      simp only [hpending]
      exact Step.ends_pure h
  | none =>
      refine ⟨queue.addSlot.1, Step.ends_get_bind ?_⟩
      simp only [hpending]
      refine (Step.ends_set (Eq.refl _)).bind ?_
      rintro _ rfl
      exact Step.ends_pure (h.setQueue (hfront _ _) (hclosed _ _))

private theorem Holds.peekAt_ofNat (h : Holds dir base s q) (k : Nat) :
    Step.Ends (Queue.peekAt k) s (q.look k) fun t => Turns dir base s t q := by
  have hpeek := h.peekAt k
  rwa [if_neg (by omega), Int.toNat_natCast] at hpeek

-- The items stay, but the first of them may be taken.
private theorem Holds.completeWaiters (h : Holds dir base s q) :
    Step.Ends Queue.completeWaiters s (.ok ()) fun t =>
      Holds dir base t q ∨ Holds dir base t (q.skip 1) := by
  unfold Queue.completeWaiters
  refine (ends_complete h Queue.peekSlot h.peek).bind ?_
  intro t ht
  have hholds : Holds dir base t q := ht.elim id id
  exact ends_complete hholds Queue.dequeueSlot hholds.dequeue

private theorem Holds.ends_async (h : Holds dir base s q) (slotOf : Queue → Option SlotId)
    {note : SlotId → Queue → Queue} (hfront : ∀ id queue, (note id queue).front = queue.front)
    (hclosed : ∀ id queue, (note id queue).closed = queue.closed)
    (hread : ∀ t, Holds dir base t q → Step.Ends read t r fun u => Turns dir base t u q') :
    ∃ id, Step.Ends (do
        Queue.expectOpen
        let id ← pendingSlot slotOf note
        settle id read
        return id) s (.ok id) fun t => Holds dir base t q' := by
  obtain ⟨id, hslot⟩ := ends_pendingSlot h slotOf hfront hclosed
  refine ⟨id, h.expectOpen_bind (hslot.bind fun t ht => ?_)⟩
  exact (ends_settle id (hread t ht)).bind fun u hu => Step.ends_pure hu

-- A queue that holds some line, and whose log has room for more.
def Sits (dir : Path) (base : Location) (n : Nat) (s : Host × Store × Queue) : Prop :=
  ∃ q, Holds dir base s q ∧ q.ledger.Within n

private theorem Sits.enqueue (h : Sits dir base n s) (hn : n + 1 < UInt64.size) (payload : Bytes) :
    ∃ r, Step.Ends (Queue.enqueue payload) s r (Sits dir base (n + 1)) := by
  obtain ⟨q, hholds, hwithin⟩ := h
  have hgrown := Line.within_turn hwithin (.enqueue payload)
  have happend := (hholds.append hwithin hn payload).discard
  unfold Queue.enqueue
  split at happend
  · refine ⟨.ok (), hholds.expectOpen_bind (happend.bind fun t ht => ?_)⟩
    refine ht.holds.completeWaiters.mono ?_
    rintro u (hu | hu)
    · exact ⟨_, hu, hgrown⟩
    · exact ⟨_, hu, hgrown⟩
  · refine ⟨_, hholds.expectOpen_bind (happend.mono fun t ht => ?_).bind_error⟩
    exact ⟨_, ht.holds, hgrown⟩

theorem Sits.act (h : Sits dir base n s) {a : Act} (hn : n + a.enqueues < UInt64.size) :
    Sits dir base (n + a.enqueues) (a.perform.run s).2 := by
  obtain ⟨q, hholds, hwithin⟩ := h
  cases a with
  | op o =>
      by_cases hquiet : o.enqueues = 0
      · have hturn := (hholds.turn (.inl hquiet) hwithin hn).discard.2
        exact ⟨_, hturn.holds, Line.within_turn hwithin _⟩
      · cases o with
        | enqueue payload =>
            obtain ⟨r, henqueue⟩ := Sits.enqueue ⟨q, hholds, hwithin⟩ hn payload
            exact (henqueue.map fun _ => Answer.done).discard.2
        | _ => exact absurd rfl hquiet
  | dequeueAsync =>
      have hasync : ∃ id, Step.Ends Queue.dequeueAsync s (.ok id) fun t =>
          Holds dir base t (q.skip 1) :=
        hholds.ends_async _ (fun _ _ => rfl) (fun _ _ => rfl) fun t ht => ht.dequeue
      obtain ⟨id, hasync⟩ := hasync
      exact ⟨_, hasync.discard.2, hwithin⟩
  | peekAsync =>
      have hasync : ∃ id, Step.Ends Queue.peekAsync s (.ok id) fun t => Holds dir base t q :=
        hholds.ends_async _ (fun _ _ => rfl) (fun _ _ => rfl) fun t ht => ht.peek
      obtain ⟨id, hasync⟩ := hasync
      exact ⟨_, hasync.discard.2, hwithin⟩
  | touch id f => exact ⟨q, hholds.setQueue rfl rfl, hwithin⟩

theorem Sits.after (acts : List Act) (h : Sits dir base n s)
    (hn : n + Step.total Act.enqueues acts < UInt64.size) :
    Sits dir base (n + Step.total Act.enqueues acts) (Step.after (acts.map Act.perform) s) := by
  induction acts generalizing s n with
  | nil => exact h
  | cons a acts ih =>
      simp only [List.map_cons, Step.total, ← Nat.add_assoc] at hn ⊢
      exact ih (h.act (by omega)) hn

theorem Holds.reclaims (h : Holds dir base s q) : Reclaims s := by
  have hcollect := h.collect
  refine ⟨hcollect.1, fun front k payload hfront hpeek => ?_⟩
  obtain rfl : q.front = front := Except.ok.inj (h.frontIndex.1.symm.trans hfront)
  rw [(h.peekAt_ofNat k).1] at hpeek
  rw [(hcollect.2.holds.peekAt_ofNat k).1, h.tail_eq]
  exact Line.look_collect h.lawful h.passed_le hpeek

-- From any index on, and whatever was done before: what removing items from a log and collecting in a
-- queue leave behind.
theorem reclaim_law (host : Host) {start : UInt64} (h : Log.StartsAt host.disk dir base start)
    {pageSize : Nat} (hpos : 0 < pageSize) (hle : pageSize ≤ Log.maxDataPageSize)
    (policy : CachePolicy) :
    (∀ os : List Log.Op, Step.total Log.Op.appends os < UInt64.size →
      ∃ host' l, (Log.open dir pageSize policy).run host = (.ok l, host') ∧
        ∀ index, (Step.after (os.map Log.Op.perform) (host', l)).2.contains index = true →
          Log.Reclaims (Step.after (os.map Log.Op.perform) (host', l)) index) ∧
    (∀ acts : List Act, Step.total Act.enqueues acts < UInt64.size →
      ∃ host' sq, (openAt dir pageSize policy).run host = (.ok sq, host') ∧
        Reclaims (Step.after (acts.map Act.perform) (host', sq))) := by
  constructor
  · intro os hcount
    obtain ⟨l, hopen⟩ := h.open hpos hle policy
    obtain ⟨host', hrun, hstart, -⟩ := hopen.run_eq
    have hafter := (hstart.after_ops os (Log.Ledger.Within.start _ _ 0) (by omega)).1
    exact ⟨host', l, hrun, fun index hin => hafter.reclaims hin⟩
  · intro acts hcount
    obtain ⟨sq, hopen⟩ := ends_openAt_start hpos hle policy h
    obtain ⟨host', hrun, hholds, -⟩ := hopen.run_eq
    have hsits : Sits dir base 0 (host', sq) := ⟨_, hholds, Log.Ledger.Within.start _ _ 0⟩
    obtain ⟨q, hafter, -⟩ := hsits.after acts (by omega)
    exact ⟨host', sq, hrun, hafter.reclaims⟩

end

-- A window that goes round behind its second item.
theorem reclaim_law_turn :
    (∃ host' l, (Log.open ⟨"spool"⟩ 64 .pinned).run
          ⟨Log.seeded (Disk.empty.addDirectory ["spool"]) ["spool"] 18446744073709551614, 0⟩ =
        (.ok l, host') ∧
      ∀ index, (Step.after ([.append [1], .append [2], .append [3]].map Log.Op.perform)
          (host', l)).2.contains index = true →
        Log.Reclaims (Step.after ([.append [1], .append [2], .append [3]].map Log.Op.perform)
          (host', l)) index) ∧
    ∃ host' sq, (openAt ⟨"spool"⟩ 64 .pinned).run
          ⟨Log.seeded (Disk.empty.addDirectory ["spool"]) ["spool"] 18446744073709551614, 0⟩ =
        (.ok sq, host') ∧
      Reclaims (Step.after ([.dequeueAsync, .op (.enqueue [1]), .op (.enqueue [2]),
        .op (.enqueue [3]), .op .dequeue].map Act.perform) (host', sq)) := by
  have hvacant := Disk.vacant_addDirectory (by decide : Disk.PartName "spool")
  have hlaw := reclaim_law ⟨_, 0⟩ (Log.startsAt_seeded hvacant 18446744073709551614)
    (by decide : 0 < 64) (by decide) .pinned
  exact ⟨hlaw.1 [.append [1], .append [2], .append [3]] (by decide),
    hlaw.2 [.dequeueAsync, .op (.enqueue [1]), .op (.enqueue [2]), .op (.enqueue [3]), .op .dequeue]
      (by decide)⟩

end Spool.Queue
