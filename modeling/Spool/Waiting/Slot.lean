import Spool.Bytes.LittleEndian
import Spool.Error

namespace Spool

-- Wakers are told apart by name.
abbrev Waker := String

inductive Outcome where
  | payload (bs : Bytes)
  | failed (e : Error)
  | cancelled
deriving DecidableEq

-- What a waiter is told.
def Outcome.toExcept : Outcome → Except Error Bytes
  | payload bs => .ok bs
  | failed e => .error (.waiterFailed e)
  | cancelled => .error .cancelled

-- A place for one result that is still to come.
inductive Slot where
  | pending (wakers : List Waker)
  -- Also who was woken when the outcome came.
  | finished (outcome : Outcome) (woken : List Waker)
deriving DecidableEq

namespace Slot

def fresh : Slot := pending []

def isDone : Slot → Bool
  | pending _ => false
  | finished .. => true

def result? : Slot → Option (Except Error Bytes)
  | pending _ => none
  | finished outcome _ => some outcome.toExcept

-- Whether this was the first outcome, and the slot afterwards. A later outcome changes nothing.
def finish (slot : Slot) (outcome : Outcome) : Bool × Slot :=
  match slot with
  | pending wakers => (true, finished outcome wakers)
  | finished .. => (false, slot)

def resolve (slot : Slot) (bs : Bytes) : Bool × Slot :=
  slot.finish (.payload bs)

def fail (slot : Slot) (e : Error) : Bool × Slot :=
  slot.finish (.failed e)

def cancel (slot : Slot) : Bool × Slot :=
  slot.finish .cancelled

-- Finishes the slot with what a read came to. A read that found nothing leaves it pending.
def settle (slot : Slot) : Except Error (Option Bytes) → Slot
  | .ok (some bs) => (slot.resolve bs).2
  | .ok none => slot
  | .error e => (slot.fail e).2

-- The result if there is one. If not, the waker is noted, once however often it polls.
def poll (slot : Slot) (waker : Waker) : Option (Except Error Bytes) × Slot :=
  match slot with
  | pending wakers =>
    (none, pending (if waker ∈ wakers then wakers else wakers ++ [waker]))
  | finished .. => (slot.result?, slot)

-- How often the slot has woken a waker.
def wakes (slot : Slot) (waker : Waker) : Nat :=
  match slot with
  | pending _ => 0
  | finished _ woken => woken.count waker

def diagnostic (slot : Slot) : String :=
  Text.layout "Waiter" [("done", toString slot.isDone)]

theorem poll_fst (slot : Slot) (waker : Waker) : (slot.poll waker).1 = slot.result? := by
  cases slot <;> rfl

theorem isDone_poll (slot : Slot) (waker : Waker) :
    (slot.poll waker).2.isDone = slot.isDone := by
  cases slot <;> rfl

end Slot

end Spool
