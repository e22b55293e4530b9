import Spool.Json.Basic
import Spool.Json.Text

namespace Spool.Json

def ofString (s : String) : Json :=
  .text (written s.toList)

-- The value of a text whose escapes all stand for characters.
def string? : Json → Option String
  | .text written => (unescape? written).map String.ofList
  | _ => none

def ofNat (n : Nat) : Json :=
  .number (Nat.toDigits 10 n)

-- A number written as digits alone.
def natural? : Json → Option Nat
  | .number numeral => if numeral.all Char.isDigit then some (Nat.ofDigitChars 10 numeral 0) else none
  | _ => none

def below? (bound : Nat) (j : Json) : Option Nat :=
  match natural? j with
  | none => none
  | some n => if n < bound then some n else none

theorem natural?_ofNat (n : Nat) : natural? (ofNat n) = some n := by
  have hdigits : (Nat.toDigits 10 n).all Char.isDigit = true :=
    List.all_eq_true.mpr fun _ hc => Nat.isDigit_of_mem_toDigits (by decide) (by decide) hc
  simp [natural?, ofNat, hdigits, Nat.ofDigitChars_ten_toDigits]

theorem below?_ofNat {bound n : Nat} (h : n < bound) : below? bound (ofNat n) = some n := by
  simp [below?, natural?_ofNat, h]

end Spool.Json
