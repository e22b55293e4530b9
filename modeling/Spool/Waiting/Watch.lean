import Spool.Span
import Spool.Waiting.Slot

namespace Spool

-- Somebody who blocks until there is a result. Whoever gives up looks once more when that time is there, and
-- is told what there is to see then.
structure Watch where
  deadline : Option Nat
  -- What there was to see when the deadline passed, or what came in place of that.
  lastView : Option (Option (Except Error Bytes))

namespace Watch

-- Only the first sight after the deadline counts.
def expire (w : Watch) (now : Nat) (view : Option (Except Error Bytes)) : Watch :=
  match w.deadline, w.lastView with
  | some deadline, none => if deadline ≤ now then { w with lastView := some view } else w
  | _, _ => w

-- Clocks count whole seconds up to the largest signed word.
def clockEnd : Nat := 9223372036854775808 * 1000000000

-- When a wait is over, unless no clock can tell.
def deadline? (now : Nat) (timeout : Span) : Option Nat :=
  if now + timeout.toNanos < clockEnd then some (now + timeout.toNanos) else none

def overflow : Error := .panicked "overflow when adding duration to instant"

-- Somebody who has no time to wait looks once, at once.
def startUntil (deadline : Option Nat) (now : Nat) (view : Option (Except Error Bytes)) : Watch :=
  match deadline with
  | none => ⟨none, some (some (.error overflow))⟩
  | some deadline => expire ⟨some deadline, none⟩ now view

-- The deadline is worked out before anything is looked at, and a wait that has none breaks off there.
def start (now : Nat) (timeout : Option Span) (view : Option (Except Error Bytes)) : Watch :=
  match timeout with
  | none => ⟨none, none⟩
  | some timeout => startUntil (deadline? now timeout) now view

-- What the watch came to, if it is over: what was seen at the deadline, or the outcome if that came before.
def result? (w : Watch) (view : Option (Except Error Bytes)) : Option (Option (Except Error Bytes)) :=
  match w.lastView with
  | some view => some view
  | none => view.map some

theorem eq_of_deadline? {now : Nat} {timeout : Span} {deadline : Nat}
    (h : deadline? now timeout = some deadline) : deadline = now + timeout.toNanos := by
  unfold deadline? at h
  split at h
  · exact (Option.some.inj h).symm
  · cases h

theorem start_of_not_timed {now : Nat} {timeout : Span} (h : deadline? now timeout = none)
    (view : Option (Except Error Bytes)) :
    start now (some timeout) view = ⟨none, some (some (.error overflow))⟩ :=
  congrArg (startUntil · now view) h

theorem start_of_timed {now deadline : Nat} {timeout : Span} (h : deadline? now timeout = some deadline)
    (view : Option (Except Error Bytes)) :
    start now (some timeout) view = expire ⟨some deadline, none⟩ now view :=
  congrArg (startUntil · now view) h

theorem expire_of_le {now deadline : Nat} (h : deadline ≤ now) (view : Option (Except Error Bytes)) :
    expire ⟨some deadline, none⟩ now view = ⟨some deadline, some view⟩ :=
  if_pos h

theorem expire_of_lt {now deadline : Nat} (h : now < deadline) (view : Option (Except Error Bytes)) :
    expire ⟨some deadline, none⟩ now view = ⟨some deadline, none⟩ :=
  if_neg (Nat.not_le_of_lt h)

theorem result?_expire {w : Watch} {now : Nat} {view : Option (Except Error Bytes)}
    {r : Option (Except Error Bytes)} (h : w.result? view = some r) :
    (w.expire now view).result? view = some r := by
  obtain ⟨deadline, lastView⟩ := w
  cases lastView with
  | some seen => cases deadline <;> exact h
  | none =>
      cases deadline with
      | none => exact h
      | some deadline =>
          obtain ⟨outcome, rfl, rfl⟩ := Option.map_eq_some_iff.mp h
          by_cases hdue : deadline ≤ now
          · simp [expire, hdue, result?]
          · simp [expire, hdue, result?]

-- An outcome that comes later is no news for a watch that is over.
theorem result?_mono {w : Watch} {view view' : Option (Except Error Bytes)}
    {r : Option (Except Error Bytes)} (hview : ∀ outcome, view = some outcome → view' = some outcome)
    (h : w.result? view = some r) : w.result? view' = some r := by
  obtain ⟨deadline, lastView⟩ := w
  cases lastView with
  | some seen => exact h
  | none =>
      obtain ⟨outcome, hsome, rfl⟩ := Option.map_eq_some_iff.mp h
      exact Option.map_eq_some_iff.mpr ⟨outcome, hview outcome hsome, rfl⟩

end Watch

end Spool
