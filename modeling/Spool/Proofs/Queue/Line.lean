import Spool.Proofs.Log.Run
import Spool.Queue.Basic

namespace Spool.Queue

inductive Op where
  | enqueue (payload : Bytes)
  | dequeue
  | peek
  | peekAt (offset : Int)
  | removeN (n : Int)
  | removeAll
  | forEach
  | collect
  | flush
  | size
  | isEmpty
  -- Time passes, and the caches of the log look for idle pages.
  | pass (nanos : Nat)

inductive Answer where
  | done
  | item (payload : Option Bytes)
  | visited (payloads : List Bytes) (result : Except Error Unit)
  | count (n : Nat)
  | truth (b : Bool)

def passTime (nanos : Nat) : Action Unit :=
  modify fun (host, s, q) =>
    let now := host.now + nanos
    ({ host with now }, { s with log := s.log.sweep now }, q)

def Op.perform : Op → Action Answer
  | enqueue payload => do
    Queue.enqueue payload
    return .done
  | dequeue => return .item (← Queue.dequeue)
  | peek => return .item (← Queue.peek)
  | peekAt offset => return .item (← Queue.peekAt offset)
  | removeN n => do
    Queue.removeN n
    return .done
  | removeAll => do
    Queue.removeAll
    return .done
  | forEach => do
    let (payloads, result) ← Queue.forEach pure
    return .visited payloads result
  | collect => do
    Queue.collect
    return .done
  | flush => do
    Queue.flush
    return .done
  | size => return .count (← Queue.size).toNat
  | isEmpty => return .truth (← Queue.isEmpty)
  | pass nanos => do
    passTime nanos
    return .done

-- How many items an operation may add.
def Op.enqueues : Op → Nat
  | enqueue _ => 1
  | _ => 0

structure Line where
  ledger : Log.Ledger
  passed : Nat

namespace Line

def start (pageSize : Nat) (tail : UInt64) : Line :=
  ⟨.start pageSize tail, 0⟩

def front (q : Line) : UInt64 :=
  q.ledger.tail + UInt64.ofNat q.passed

-- How many items are waiting.
def waiting (q : Line) : Nat :=
  q.ledger.items.length - q.passed

-- What is read some places behind the front.
def look (q : Line) (offset : Nat) : Except Error (Option Bytes) :=
  if offset < q.waiting then (q.ledger.fetch (q.front + UInt64.ofNat offset)).map some else .ok none

-- What visits of the items from an index on come to.
def visited (g : Log.Ledger) : Nat → UInt64 → List Bytes × Except Error Unit
  | 0, _ => ([], .ok ())
  | n + 1, index =>
    match g.fetch index with
    | .error e => ([], .error e)
    | .ok payload =>
      let (payloads, result) := visited g n (index + 1)
      (payload :: payloads, result)

def answer (q : Line) : Op → Except Error Answer
  | .enqueue payload =>
    if payload.length ≤ q.ledger.pageSize then .ok .done
    else .error (.itemTooLarge payload.length q.ledger.pageSize)
  | .dequeue => (q.look 0).map .item
  | .peek => (q.look 0).map .item
  | .peekAt offset => if offset < 0 then .ok (.item none) else (q.look offset.toNat).map .item
  | .forEach =>
    let (payloads, result) := visited q.ledger q.waiting q.front
    .ok (.visited payloads result)
  | .size => .ok (.count q.waiting)
  | .isEmpty => .ok (.truth (q.waiting = 0))
  | _ => .ok .done

-- The front moves on, but not past the head.
def skip (q : Line) (n : Nat) : Line :=
  { q with passed := q.passed + min n q.waiting }

-- The item right in front of the front stays.
def collect (q : Line) : Line :=
  if q.passed = 0 then q else ⟨q.ledger.removeBefore (q.front - 1), 1⟩

def turn (q : Line) : Op → Line
  | .enqueue payload => { q with ledger := q.ledger.turn (.append payload) }
  | .dequeue => q.skip 1
  | .removeN n => q.skip n.toNat
  | .removeAll => start q.ledger.pageSize 0
  | .collect => q.collect
  | _ => q

section

variable {q : Line} {n : Nat}

theorem waiting_eq_zero_iff (hpassed : q.passed ≤ q.ledger.items.length) :
    q.waiting = 0 ↔ q.passed = q.ledger.items.length := by
  unfold waiting
  omega

-- The items that are waiting are those from the front to the head.
theorem head_sub_front (hpassed : q.passed ≤ q.ledger.items.length) :
    q.ledger.head - q.front = UInt64.ofNat q.waiting := by
  have hlength : q.passed + q.waiting = q.ledger.items.length := Nat.add_sub_of_le hpassed
  rw [Log.Ledger.head, front, ← hlength, ← Circle.add_ofNat_add]
  exact Circle.add_ofNat_sub _ _

theorem toNat_head_sub_front (hlawful : q.ledger.Lawful) (hpassed : q.passed ≤ q.ledger.items.length) :
    (q.ledger.head - q.front).toNat = q.waiting := by
  have hshort := hlawful.short
  have hle : q.waiting ≤ q.ledger.items.length := Nat.sub_le _ _
  rw [head_sub_front hpassed, Circle.toNat_ofNat (by omega)]

theorem front_eq_head_iff (hlawful : q.ledger.Lawful) (hpassed : q.passed ≤ q.ledger.items.length) :
    q.front = q.ledger.head ↔ q.waiting = 0 := by
  have hshort := hlawful.short
  rw [waiting_eq_zero_iff hpassed]
  constructor
  · intro h
    exact Circle.add_ofNat_inj (by omega) hshort h
  · intro h
    rw [front, h, Log.Ledger.head]

theorem front_sub_tail_le (hlawful : q.ledger.Lawful) (hpassed : q.passed ≤ q.ledger.items.length) :
    q.front - q.ledger.tail ≤ q.ledger.head - q.ledger.tail := by
  have hshort := hlawful.short
  rw [UInt64.le_iff_toNat_le, Log.Ledger.head_sub_tail, Circle.toNat_ofNat hshort, front,
    Circle.toNat_add_ofNat_sub _ (by omega)]
  exact hpassed

theorem skip_le (q : Line) (n : Nat) (hpassed : q.passed ≤ q.ledger.items.length) :
    (q.skip n).passed ≤ (q.skip n).ledger.items.length := by
  show q.passed + min n (q.ledger.items.length - q.passed) ≤ q.ledger.items.length
  omega

theorem front_skip (q : Line) (n : Nat) :
    (q.skip n).front = q.front + UInt64.ofNat (min n q.waiting) :=
  (Circle.add_ofNat_add _ _ _).symm

theorem front_enqueue (q : Line) (payload : Bytes) : (q.turn (.enqueue payload)).front = q.front := by
  show (if payload.length ≤ q.ledger.pageSize then _ else q.ledger).tail + _ = _
  split <;> rfl

theorem passed_le_enqueue (q : Line) (payload : Bytes) (hpassed : q.passed ≤ q.ledger.items.length) :
    q.passed ≤ (q.turn (.enqueue payload)).ledger.items.length := by
  show q.passed ≤ (if payload.length ≤ q.ledger.pageSize then q.ledger.append payload
    else q.ledger).items.length
  split
  · rw [Log.Ledger.items_append, List.length_append]
    omega
  · exact hpassed

theorem skip_zero (q : Line) : q.skip 0 = q := by
  rw [skip, Nat.zero_min, Nat.add_zero]

theorem skip_of_waiting_eq_zero (hnone : q.waiting = 0) : q.skip n = q := by
  rw [skip, hnone, Nat.min_zero, Nat.add_zero]

-- The item in front of the front, if there is one, is in the window.
theorem toNat_front_sub_one (hlawful : q.ledger.Lawful) (hpassed : q.passed ≤ q.ledger.items.length)
    (hpos : q.passed ≠ 0) : (q.front - 1 - q.ledger.tail).toNat = q.passed - 1 := by
  have hshort := hlawful.short
  obtain ⟨k, hk⟩ := Nat.exists_eq_succ_of_ne_zero hpos
  have hfront : q.front - 1 = q.ledger.tail + UInt64.ofNat k := by
    rw [front, hk, Circle.add_ofNat_succ, UInt64.add_sub_cancel]
  rw [hfront, Circle.toNat_add_ofNat_sub _ (by omega), hk]
  rfl

-- If there is none, the index in front of the front is a full turn away.
theorem front_sub_one_outside (q : Line) (hlawful : q.ledger.Lawful) (hpassed : q.passed = 0) :
    ¬(q.front - 1 - q.ledger.tail).toNat < q.ledger.items.length := by
  have hshort : q.ledger.items.length < 18446744073709551616 := hlawful.short
  have hturn : q.front - 1 - q.ledger.tail = 0 - 1 := by
    rw [front, hpassed]
    show q.ledger.tail + 0 - 1 - q.ledger.tail = _
    grind
  rw [hturn]
  show ¬18446744073709551615 < _
  omega

end

end Line

end Spool.Queue
