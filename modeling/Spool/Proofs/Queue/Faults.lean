import Spool.Proofs.Queue.Balance

namespace Spool.Queue

-- Neither end nor the front has moved, and no slot has changed.
structure Unmoved (s t : Host × Store × Queue) : Prop where
  front : (frontIndex.run t).1 = (frontIndex.run s).1
  head : t.2.1.head = s.2.1.head
  tail : t.2.1.tail = s.2.1.tail
  slots : t.2.2.slots = s.2.2.slots

-- An operation failed, or stopped at an item that could not be read.
def Failed : Except Error Answer → Prop
  | .error _ => True
  | .ok (.visited _ (.error _)) => True
  | _ => False

-- What calls that fail can do to a queue.
structure Withstands (s : Host × Store × Queue) (front : UInt64) : Prop where
  frontIndex : (Queue.frontIndex.run s).1 = .ok front
  failed : ∀ o : Op, o ≠ .dequeue → Failed (o.perform.run s).1 → Unmoved s (o.perform.run s).2
  absent : front = s.2.1.head →
    Passes Queue.dequeue s none ∧ Unmoved s (Queue.dequeue.run s).2
  present : front ≠ s.2.1.head → Passes Queue.dequeue s (some front) ∧
    (∃ r : Except Error Bytes, (Queue.dequeue.run s).1 = r.map some) ∧
    (Queue.frontIndex.run (Queue.dequeue.run s).2).1 = .ok (front + 1) ∧
    (Queue.dequeue.run s).2.2.1.head = s.2.1.head ∧
    (Queue.dequeue.run s).2.2.1.tail = s.2.1.tail ∧
    (Queue.dequeue.run s).2.2.2.slots = s.2.2.slots
  enqueue : ∀ payload, (Queue.enqueue payload |>.run s).1 =
    ((onStore (Store.append payload)).run s).1.map fun _ => ()

section

variable {dir : Path} {base : Location} {s t : Host × Store × Queue} {b b' : Log.Books}
  {front : UInt64}

theorem Shows.unmoved (h : Shows dir base s b front) (ht : Shows dir base t b' front)
    (hlater : b.Later b') (hspares : Spares s t) : Unmoved s t where
  front := ht.frontIndex.1.trans h.frontIndex.1.symm
  head := ht.head_eq.trans (hlater.head.trans h.head_eq.symm)
  tail := ht.tail_eq.trans (hlater.tail.trans h.tail_eq.symm)
  slots := hspares.slots

-- An operation that stays with the books it finds moves nothing.
private theorem Shows.stays {x : Action Answer} {r : Except Error Answer}
    (h : Shows dir base s b front) (hlater : b.Later b')
    (hends : Step.Ends x s r fun t => Shows dir base t b' front ∧ Spares s t) :
    Unmoved s (x.run s).2 :=
  h.unmoved hends.2.1 hlater hends.2.2

theorem Shows.failed (h : Shows dir base s b front) (hattended : s.2.2.Attended front b.head) {o : Op}
    (hne : o ≠ .dequeue) (hfailed : Failed (o.perform.run s).1) : Unmoved s (o.perform.run s).2 := by
  cases o with
  | enqueue payload =>
      rcases h.enqueue hattended payload with ⟨e, -, hends⟩ | ⟨-, -, r, b', hends, -⟩
      · exact h.stays .refl (hends.map _)
      · have hdone : (Op.perform (.enqueue payload) |>.run s).1 = .ok .done := (hends.map _).1
        rw [hdone] at hfailed
        exact hfailed.elim
  | dequeue => exact absurd rfl hne
  | peek =>
      by_cases hnone : front = b.head
      · have hends := (hands_peek dir base).ends_none h hnone
        exact h.stays .refl ((hends.map _).mono fun t ht => ⟨ht.1, ht.2.spares⟩)
      · obtain ⟨r, b', hends, hlater, -⟩ := (hands_peek dir base).ends_some h hnone
        rw [UInt64.add_zero] at hends
        exact h.stays hlater (hends.map _)
  | peekAt offset =>
      obtain ⟨r, b', hends, hlater⟩ := h.peekAt offset
      exact h.stays hlater (hends.map _)
  | removeN n =>
      have hdone : (Op.perform (.removeN n) |>.run s).1 = .ok .done := ((h.removeN n).map _).1
      rw [hdone] at hfailed
      exact hfailed.elim
  | removeAll =>
      rcases h.removeAll with hends | ⟨e, hends⟩
      · have hdone : (Op.perform .removeAll |>.run s).1 = .ok .done := (hends.map _).1
        rw [hdone] at hfailed
        exact hfailed.elim
      · exact h.stays .refl (hends.map _)
  | forEach =>
      obtain ⟨bs, r, b', hends, hlater, -⟩ := h.forEach
      exact h.stays hlater (hends.map _)
  | collect =>
      cases hin : b.contains (front - 1) with
      | true =>
          rcases h.collect_inside hin with hends | ⟨fault, -, hends⟩
          · have hdone : (Op.perform .collect |>.run s).1 = .ok .done := (hends.map _).1
            rw [hdone] at hfailed
            exact hfailed.elim
          · exact h.stays .refl (hends.map _)
      | false =>
          obtain ⟨r, hends, -⟩ := h.collect_outside hin
          exact h.stays .refl (hends.map _)
  | flush =>
      obtain ⟨r, hends⟩ := h.flush
      exact h.stays .refl (hends.map _)
  | size => exact h.stays .refl ((h.size.map _).mono fun t ht => ⟨ht.1, ht.2.spares⟩)
  | isEmpty => exact h.stays .refl ((h.isEmpty.map _).mono fun t ht => ⟨ht.1, ht.2.spares⟩)
  | pass nanos => exact h.stays (.setNow .refl _) ((h.passTime nanos).map _)

theorem Shows.withstands (h : Shows dir base s b front) (hattended : s.2.2.Attended front b.head) :
    Withstands s front := by
  constructor
  case frontIndex => exact h.frontIndex.1
  case failed => exact fun o hne hfailed => h.failed hattended hne hfailed
  case absent =>
    intro hnone
    obtain ⟨t, hrun, ht, hglances⟩ := (hands_dequeue dir base).absent h (hnone.trans h.head_eq)
    refine ⟨⟨t, hglances.store, hrun⟩, ?_⟩
    rw [hrun]
    exact h.unmoved ht .refl hglances.spares
  case present =>
    intro hsome
    rw [h.head_eq] at hsome ⊢
    obtain ⟨t, hrun, -, hglances⟩ := (hands_dequeue dir base).present h hsome
    obtain ⟨r, b', hends, hlater, -⟩ := (hands_dequeue dir base).ends_some h hsome
    obtain ⟨hshows, hspares⟩ := hends.2
    exact ⟨⟨t, hglances.store, hrun⟩, ⟨r, hends.1⟩, hshows.frontIndex.1,
      hshows.head_eq.trans hlater.head, (hshows.tail_eq.trans hlater.tail).trans h.tail_eq.symm,
      hspares.slots⟩
  case enqueue =>
    intro payload
    rcases h.enqueue hattended payload with ⟨e, happend, hends⟩ | ⟨-, happend, r, b', hends, -⟩
    · rw [hends.1, happend.1]
      rfl
    · rw [hends.1, happend.1]
      rfl

-- Whatever was on the disk at first and whichever calls fail, an item that could not be read is passed
-- over: its index is handed out again only if the queue was emptied or all indexes have come round.
theorem fault_law (host : Host) (h : host.disk.Site dir base) {pageSize : Nat} (hpos : 0 < pageSize)
    (hle : pageSize ≤ Log.maxDataPageSize) (policy : CachePolicy) :
    ∃ host' sq, (openAt dir pageSize policy).run host = (.ok sq, host') ∧
      ∀ ms : List Move,
        (∃ front, Withstands (Step.after (ms.map Move.act) (host', sq)) front) ∧
        ((Account.start (host', sq)).after ms (host', sq)).deliveries.Pairwise Delivery.Before := by
  obtain ⟨host', sq, b, front, hrun, -, hstart⟩ := exists_accounted_openAt h hpos hle policy
  refine ⟨host', sq, hrun, fun ms => ?_⟩
  obtain ⟨b', front', hafter⟩ := hstart.after ms
  exact ⟨⟨front', hafter.shows.withstands hafter.attended⟩, hafter.balanced.tallied.sorted⟩

end

-- A payload that cannot be appended, an item that cannot be read, and one that comes for somebody who
-- cannot be told.
theorem fault_law_unread :
    ∃ host' sq, (openAt ⟨"spool"⟩ 64 .pinned).run ⟨Disk.empty.addDirectory ["spool"], 0⟩ =
        (.ok sq, host') ∧
      let ms : List Move := [.plan ⟨.append, "disk"⟩, .op (.enqueue [1]), .op (.enqueue [2, 3]),
        .plan ⟨.fetch, "disk"⟩, .op .dequeue, .ask .take, .plan ⟨.fetch, "disk"⟩, .op (.enqueue [4]),
        .plan ⟨.removeAll, "disk"⟩]
      (∃ front, Withstands (Step.after (ms.map Move.act) (host', sq)) front) ∧
        ((Account.start (host', sq)).after ms (host', sq)).deliveries.Pairwise Delivery.Before := by
  have hvacant := Disk.vacant_addDirectory (by decide : Disk.PartName "spool")
  obtain ⟨host', sq, hrun, hlaw⟩ := fault_law ⟨_, 0⟩ hvacant.site (by decide : 0 < 64) (by decide)
    .pinned
  exact ⟨host', sq, hrun, hlaw _⟩

end Spool.Queue
