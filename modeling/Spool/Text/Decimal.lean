namespace Spool.Decimal

-- The shortest numeral: no sign, no leading zero.
def ofWord (n : UInt64) : List Char :=
  Nat.toDigits 10 n.toNat

-- The value of a nonempty run of digits.
def value? (cs : List Char) : Option Nat :=
  if cs ≠ [] ∧ cs.all Char.isDigit then some (Nat.ofDigitChars 10 cs 0) else none

-- Drops one plus sign in front.
def unsigned : List Char → List Char
  | '+' :: cs => cs
  | cs => cs

-- A value past the largest word is not read.
def toWord? (cs : List Char) : Option UInt64 :=
  match value? (unsigned cs) with
  | none => none
  | some n => if n < UInt64.size then some (UInt64.ofNat n) else none

theorem value?_toDigits (n : Nat) : value? (Nat.toDigits 10 n) = some n := by
  have hdigits : (Nat.toDigits 10 n).all Char.isDigit = true :=
    List.all_eq_true.mpr fun _ hc => Nat.isDigit_of_mem_toDigits (by decide) (by decide) hc
  simp [value?, Nat.toDigits_ne_nil, hdigits, Nat.ofDigitChars_ten_toDigits]

-- What a numeral denotes is the value of its digits, with a plus sign in front of them or not.
def Denotes (numeral : List Char) (n : Nat) : Prop :=
  ∃ digits, (numeral = digits ∨ numeral = '+' :: digits) ∧ digits ≠ [] ∧ (∀ c ∈ digits, c.isDigit = true) ∧
    Nat.ofDigitChars 10 digits 0 = n

theorem value?_eq_some_iff {digits : List Char} {n : Nat} : value? digits = some n ↔
    digits ≠ [] ∧ (∀ c ∈ digits, c.isDigit = true) ∧ Nat.ofDigitChars 10 digits 0 = n := by
  unfold value?
  rw [Option.ite_none_right_eq_some, List.all_eq_true, and_assoc, Option.some.injEq]

-- Where all are digits there is no sign to drop.
theorem unsigned_of_value? {digits : List Char} {n : Nat} (h : value? digits = some n) :
    unsigned digits = digits := by
  obtain ⟨-, hdigits, -⟩ := value?_eq_some_iff.mp h
  unfold unsigned
  split
  · exact absurd (hdigits '+' List.mem_cons_self) (by decide)
  · rfl

theorem eq_or_eq_unsigned (numeral : List Char) :
    numeral = unsigned numeral ∨ numeral = '+' :: unsigned numeral := by
  unfold unsigned
  split
  · exact .inr rfl
  · exact .inl rfl

theorem denotes_iff {numeral : List Char} {n : Nat} :
    Denotes numeral n ↔ value? (unsigned numeral) = some n := by
  constructor
  · rintro ⟨digits, rfl | rfl, hvalue⟩
    · have hvalue := value?_eq_some_iff.mpr hvalue
      rwa [unsigned_of_value? hvalue]
    · exact value?_eq_some_iff.mpr hvalue
  · intro hvalue
    exact ⟨unsigned numeral, eq_or_eq_unsigned numeral, value?_eq_some_iff.mp hvalue⟩

theorem toWord?_of_denotes {numeral : List Char} {n : Nat} (h : Denotes numeral n) :
    toWord? numeral = if n < UInt64.size then some (UInt64.ofNat n) else none := by
  unfold toWord?
  rw [denotes_iff.mp h]

theorem toWord?_eq_some_iff {numeral : List Char} {i : UInt64} :
    toWord? numeral = some i ↔ Denotes numeral i.toNat := by
  constructor
  · intro h
    unfold toWord? at h
    cases hvalue : value? (unsigned numeral) with
    | none =>
      rw [hvalue] at h
      cases h
    | some n =>
      simp only [hvalue, Option.ite_none_right_eq_some, Option.some.injEq] at h
      obtain ⟨hlt, rfl⟩ := h
      rw [UInt64.toNat_ofNat_of_lt' hlt]
      exact denotes_iff.mpr hvalue
  · intro h
    rw [toWord?_of_denotes h, if_pos i.toNat_lt, UInt64.ofNat_toNat]

theorem denotes_toDigits (n : Nat) : Denotes (Nat.toDigits 10 n) n := by
  have hvalue := value?_toDigits n
  rwa [denotes_iff, unsigned_of_value? hvalue]

theorem toWord?_ofWord (n : UInt64) : toWord? (ofWord n) = some n :=
  toWord?_eq_some_iff.mpr (denotes_toDigits n.toNat)

end Spool.Decimal
