import Spool.Proofs.Log.Reclaiming
import Spool.Proofs.Queue.Fifo
import Spool.Proofs.Queue.Reopening

namespace Spool.Queue

-- What leaves the tail of the log where it is.
def Event.isPlain : Event → Bool
  | .op .collect | .op .removeAll => false
  | _ => true

-- What a queue tells of its counters.
structure Gauges where
  front : Except Error UInt64
  head : Except Error UInt64
  size : Except Error Nat
  isEmpty : Except Error Bool

def gauges (s : Host × Store × Queue) : Gauges where
  front := (frontIndex.run s).1
  head := (headIndex.run s).1
  size := (size.run s).1.map UInt64.toNat
  isEmpty := (isEmpty.run s).1

-- What each step of a run comes to, and what the counters are afterwards.
def gauged : List (Action Answer) → Host × Store × Queue → List (Except Error Answer × Gauges)
  | [], _ => []
  | x :: xs, s =>
    let (answer, s) := x.run s
    (answer, gauges s) :: gauged xs s

-- All items that a queue ever accepted, and how many of them were consumed.
structure Intake where
  accepted : List Bytes
  consumed : Nat

namespace Intake

def none : Intake :=
  ⟨[], 0⟩

def waiting (i : Intake) : List Bytes :=
  i.accepted.drop i.consumed

def consume (i : Intake) (n : Nat) : Intake :=
  { i with consumed := i.consumed + min n i.waiting.length }

def answer (pageSize : Nat) (i : Intake) : Event → Except Error Answer
  | .op o => Fifo.answer pageSize i.waiting o
  | .reopen _ _ => .ok .done

def react (pageSize : Nat) (i : Intake) : Event → Intake
  | .op (.enqueue payload) =>
    if payload.length ≤ pageSize then { i with accepted := i.accepted ++ [payload] } else i
  | .op .dequeue => i.consume 1
  | .op (.removeN n) => i.consume n.toNat
  | _ => i

-- The counters run on from the index that the window starts at, and wrap around as words do.
def gauges (start : UInt64) (i : Intake) : Gauges where
  front := .ok (start + UInt64.ofNat i.consumed)
  head := .ok (start + UInt64.ofNat i.accepted.length)
  size := .ok (i.accepted.length - i.consumed)
  isEmpty := .ok (i.accepted.length = i.consumed)

def gauged (pageSize : Nat) (start : UInt64) : List Event → Intake → List (Except Error Answer × Gauges)
  | [], _ => []
  | e :: es, i =>
    (i.answer pageSize e, (i.react pageSize e).gauges start) ::
      gauged pageSize start es (i.react pageSize e)

end Intake

namespace Line

-- The line that a queue has after it took in some items and none of them was given back.
structure Takes (q : Line) (start : UInt64) (i : Intake) : Prop where
  tail : q.ledger.tail = start
  accepted : q.ledger.items.map Log.Item.payload = i.accepted
  consumed : q.passed = i.consumed

section

variable {q : Line} {start : UInt64} {i : Intake} {pageSize : Nat}

theorem Takes.payloads_eq (h : q.Takes start i) : q.payloads = i.waiting := by
  rw [payloads, Intake.waiting, ← h.accepted, ← h.consumed, List.map_drop]

theorem Takes.length_eq (h : q.Takes start i) : q.ledger.items.length = i.accepted.length := by
  rw [← h.accepted, List.length_map]

theorem Takes.skip (h : q.Takes start i) (n : Nat) : (q.skip n).Takes start (i.consume n) where
  tail := h.tail
  accepted := h.accepted
  consumed := by
    show q.passed + min n q.waiting = i.consumed + min n i.waiting.length
    rw [h.consumed, ← h.payloads_eq, length_payloads]

theorem Takes.enqueue (h : q.Takes start i) (payload : Bytes) :
    (q.turn (.enqueue payload)).Takes start
      (i.react q.ledger.pageSize (.op (.enqueue payload))) := by
  show (Line.mk (if payload.length ≤ q.ledger.pageSize then q.ledger.append payload else q.ledger)
    q.passed).Takes start (if payload.length ≤ q.ledger.pageSize then _ else i)
  split
  · refine ⟨h.tail, ?_, h.consumed⟩
    rw [Log.Ledger.items_append, List.map_append, h.accepted]
    rfl
  · exact ⟨h.tail, h.accepted, h.consumed⟩

theorem Takes.react (h : q.Takes start i) {e : Event} (hplain : e.isPlain) :
    (q.react e).Takes start (i.react q.ledger.pageSize e) := by
  cases e with
  | reopen closing policy => exact h
  | op o =>
      cases o with
      | enqueue payload => exact h.enqueue payload
      | dequeue => exact h.skip 1
      | removeN n => exact h.skip n.toNat
      | removeAll => cases hplain
      | collect => cases hplain
      | _ => exact h

theorem Whole.react (h : q.Whole pageSize) {e : Event} (hplain : e.isPlain) :
    (q.react e).Whole pageSize := by
  cases e with
  | reopen closing policy => exact h
  | op o =>
      cases o with
      | enqueue payload => exact h.enqueue payload
      | removeAll => cases hplain
      | collect => cases hplain
      | _ => exact ⟨h.intact, h.pageSize_eq, h.even⟩

theorem Takes.reply_eq (h : q.Takes start i) (hwhole : q.Whole pageSize) (hlawful : q.ledger.Lawful)
    (hpassed : q.passed ≤ q.ledger.items.length) (e : Event) : q.reply e = i.answer pageSize e := by
  cases e with
  | reopen closing policy => rfl
  | op o =>
      rw [Intake.answer, ← h.payloads_eq]
      exact hwhole.answer_eq hlawful hpassed o

theorem whole_start (pageSize : Nat) (start : UInt64) : (Line.start pageSize start).Whole pageSize where
  intact hk := by cases hk
  pageSize_eq := rfl
  even hk := by cases hk

theorem takes_start (pageSize : Nat) (start : UInt64) :
    (Line.start pageSize start).Takes start .none :=
  ⟨rfl, rfl, rfl⟩

end

end Line

-- A queue that nobody waits at, with all that it ever took in since its window started.
structure Circles (dir : Path) (base : Location) (pageSize : Nat) (start : UInt64)
    (s : Host × Store × Queue) (i : Intake) (n : Nat) : Prop where
  held : ∃ q, Holds dir base s q ∧ q.ledger.Within n ∧ q.Whole pageSize ∧ q.Takes start i
  idle : Idle s

section

variable {dir : Path} {base : Location} {pageSize n : Nat} {start : UInt64}
  {s : Host × Store × Queue} {i : Intake}

theorem Circles.react (h : Circles dir base pageSize start s i n) {e : Event} (hplain : e.isPlain)
    (hn : n + e.enqueues < UInt64.size) :
    Step.Ends (e.perform dir pageSize) s (i.answer pageSize e) fun t =>
      Circles dir base pageSize start t (i.react pageSize e) (n + e.enqueues) := by
  obtain ⟨q, hholds, hwithin, hwhole, htakes⟩ := h.held
  have htakes' : (q.react e).Takes start (i.react pageSize e) := by
    rw [← hwhole.pageSize_eq]
    exact htakes.react hplain
  rw [← htakes.reply_eq hwhole hholds.lawful hholds.passed_le e]
  cases e with
  | op o =>
      refine (hholds.turn (.inr h.idle) hwithin hn).mono fun t ht => ⟨?_, ht.idle h.idle⟩
      exact ⟨q.turn o, ht.holds, Line.within_turn hwithin o, hwhole.react hplain, htakes'⟩
  | reopen closing policy =>
      have hreopen := (hholds.reopen hwhole closing policy).map fun _ => Answer.done
      exact hreopen.mono fun t ht => ⟨⟨q, ht.1, hwithin, hwhole, htakes'⟩, ht.2⟩

theorem Circles.gauges_eq (h : Circles dir base pageSize start s i n) :
    gauges s = i.gauges start := by
  obtain ⟨q, hholds, -, -, htakes⟩ := h.held
  have hfront : (frontIndex.run s).1 = .ok (start + UInt64.ofNat i.consumed) := by
    rw [← htakes.tail, ← htakes.consumed]
    exact hholds.frontIndex.1
  have hhead : (headIndex.run s).1 = .ok (start + UInt64.ofNat i.accepted.length) := by
    rw [← htakes.tail, ← htakes.length_eq]
    exact hholds.headIndex.1
  have hwaiting : q.waiting = i.accepted.length - i.consumed := by
    rw [Line.waiting, htakes.length_eq, htakes.consumed]
  have hsize : (size.run s).1.map UInt64.toNat = .ok (i.accepted.length - i.consumed) := by
    have hshort := hholds.lawful.short
    have hle : q.waiting ≤ q.ledger.items.length := Nat.sub_le _ _
    rw [hholds.size.1, ← hwaiting, Except.map, Circle.toNat_ofNat (by omega)]
  have hempty : (isEmpty.run s).1 = .ok (decide (i.accepted.length = i.consumed)) := by
    rw [hholds.isEmpty.1, ← htakes.length_eq, ← htakes.consumed]
    simp only [Line.waiting_eq_zero_iff hholds.passed_le, eq_comm]
  rw [gauges, hfront, hhead, hsize, hempty, Intake.gauges]

theorem Circles.gauged_eq (es : List Event) (h : Circles dir base pageSize start s i n)
    (hplain : ∀ e ∈ es, e.isPlain) (hn : n + Step.total Event.enqueues es < UInt64.size) :
    gauged (es.map (Event.perform dir pageSize)) s = i.gauged pageSize start es := by
  induction es generalizing s i n with
  | nil => rfl
  | cons e es ih =>
      simp only [Step.total, ← Nat.add_assoc] at hn
      obtain ⟨t, hrun, ht⟩ := (h.react (hplain e List.mem_cons_self) (by omega)).run_eq
      rw [List.map_cons, gauged, hrun, Intake.gauged]
      show (_, gauges t) :: gauged _ t = _
      rw [ht.gauges_eq, ih ht (fun e' he' => hplain e' (List.mem_cons_of_mem _ he')) hn]

theorem circles_openAt {host : Host} (h : Log.StartsAt host.disk dir base start)
    (hpos : 0 < pageSize) (hle : pageSize ≤ Log.maxDataPageSize) (policy : CachePolicy) :
    ∃ sq, Step.Ends (openAt dir pageSize policy) host (.ok sq) fun host' =>
      Circles dir base pageSize start (host', sq) .none 0 := by
  obtain ⟨sq, hopen⟩ := ends_openAt_start hpos hle policy h
  exact ⟨sq, hopen.mono fun host' ht => ⟨⟨_, ht.1, Log.Ledger.Within.start _ _ 0,
    Line.whole_start pageSize start, Line.takes_start pageSize start⟩, ht.2⟩⟩

-- Wherever the window starts, all answers are those of the list, and all counters are sums of what
-- came and what went.
theorem circling_law (host : Host) (es : List Event) (h : Log.StartsAt host.disk dir base start)
    (hpos : 0 < pageSize) (hle : pageSize ≤ Log.maxDataPageSize) (policy : CachePolicy)
    (hplain : ∀ e ∈ es, e.isPlain) (hcount : Step.total Event.enqueues es < UInt64.size) :
    ∃ host' sq, (openAt dir pageSize policy).run host = (.ok sq, host') ∧
      gauges (host', sq) = Intake.none.gauges start ∧
      gauged (es.map (Event.perform dir pageSize)) (host', sq) =
        Intake.none.gauged pageSize start es := by
  obtain ⟨sq, hopen⟩ := circles_openAt h hpos hle policy
  obtain ⟨host', hrun, hcircles⟩ := hopen.run_eq
  exact ⟨host', sq, hrun, hcircles.gauges_eq, hcircles.gauged_eq es hplain (by omega)⟩

end

-- The front and the head pass the last index, and the queue is opened again while only the head has.
theorem circling_law_turn : ∃ host' sq,
    (openAt ⟨"spool"⟩ 64 .pinned).run
        ⟨Log.seeded (Disk.empty.addDirectory ["spool"]) ["spool"] 18446744073709551614, 0⟩ =
      (.ok sq, host') ∧
    gauged ([.op (.enqueue [1]), .op (.enqueue [2]), .op (.enqueue [3]), .reopen true .pinned,
        .op .dequeue, .op (.peekAt 1), .op (.removeN 5)].map (Event.perform ⟨"spool"⟩ 64))
        (host', sq) =
      [(.ok .done, ⟨.ok 18446744073709551614, .ok 18446744073709551615, .ok 1, .ok false⟩),
        (.ok .done, ⟨.ok 18446744073709551614, .ok 0, .ok 2, .ok false⟩),
        (.ok .done, ⟨.ok 18446744073709551614, .ok 1, .ok 3, .ok false⟩),
        (.ok .done, ⟨.ok 18446744073709551614, .ok 1, .ok 3, .ok false⟩),
        (.ok (.item (some [1])), ⟨.ok 18446744073709551615, .ok 1, .ok 2, .ok false⟩),
        (.ok (.item (some [3])), ⟨.ok 18446744073709551615, .ok 1, .ok 2, .ok false⟩),
        (.ok .done, ⟨.ok 1, .ok 1, .ok 0, .ok true⟩)] := by
  have hvacant := Disk.vacant_addDirectory (by decide : Disk.PartName "spool")
  obtain ⟨host', sq, hrun, -, hgauged⟩ := circling_law ⟨_, 0⟩
    [.op (.enqueue [1]), .op (.enqueue [2]), .op (.enqueue [3]), .reopen true .pinned,
      .op .dequeue, .op (.peekAt 1), .op (.removeN 5)]
    (Log.startsAt_seeded hvacant 18446744073709551614) (by decide : 0 < 64) (by decide) .pinned
    (by decide) (by decide)
  exact ⟨host', sq, hrun, hgauged⟩

end Spool.Queue
