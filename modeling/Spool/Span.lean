namespace Spool

-- A length of time.
structure Span where
  secs : UInt64
  nanos : Nat
  nanos_lt : nanos < 1000000000 := by decide
deriving DecidableEq

namespace Span

def zero : Span := ⟨0, 0, by decide⟩

def ofSecs (n : UInt64) : Span := ⟨n, 0, by decide⟩

def ofMillis (n : Nat) : Span :=
  ⟨UInt64.ofNat (n / 1000), n % 1000 * 1000000, by omega⟩

-- Nanoseconds past a full second carry over. Past the last second there is no span.
def ofParts? (secs : UInt64) (nanos : Nat) : Option Span :=
  if secs.toNat + nanos / 1000000000 < UInt64.size then
    some ⟨UInt64.ofNat (secs.toNat + nanos / 1000000000), nanos % 1000000000,
      Nat.mod_lt _ (by decide)⟩
  else none

def toNanos (s : Span) : Nat :=
  s.secs.toNat * 1000000000 + s.nanos

-- Whole milliseconds, at most the largest word of them: what is below one is dropped.
def toMillis (s : Span) : Nat :=
  min (s.toNanos / 1000000) (UInt64.size - 1)

def isZero (s : Span) : Bool :=
  s.secs == 0 && s.nanos == 0

-- The digits of `part` in a fraction of `width` places, without trailing zeros.
def fraction (part : Nat) : Nat → List Char
  | 0 => []
  | width + 1 =>
    if part % 10 = 0 then fraction (part / 10) width
    else
      let digits := Nat.toDigits 10 part
      List.replicate (width + 1 - digits.length) '0' ++ digits

-- `part` counts units of one place, `places` of which make one whole.
def decimalText (whole part places : Nat) (unit : String) : String :=
  match fraction part places with
  | [] => toString whole ++ unit
  | digits => toString whole ++ "." ++ String.ofList digits ++ unit

def text (s : Span) : String :=
  if s.secs ≠ 0 then decimalText s.secs.toNat s.nanos 9 "s"
  else if 1000000 ≤ s.nanos then decimalText (s.nanos / 1000000) (s.nanos % 1000000) 6 "ms"
  else if 1000 ≤ s.nanos then decimalText (s.nanos / 1000) (s.nanos % 1000) 3 "µs"
  else decimalText s.nanos 0 0 "ns"

-- Parts that are already in order are kept as they are.
theorem ofParts?_self (s : Span) : ofParts? s.secs s.nanos = some s := by
  obtain ⟨secs, nanos, h⟩ := s
  have hdiv : nanos / 1000000000 = 0 := Nat.div_eq_of_lt h
  have hmod : nanos % 1000000000 = nanos := Nat.mod_eq_of_lt h
  simp [ofParts?, hdiv, hmod, secs.toNat_lt]

end Span

end Spool
