import Mathlib.Data.Nat.Bitwise
import Spool.Bytes.Checksum

namespace Spool.Checksum

section Register

variable {r r' x : UInt32} {b b' : UInt8}

private theorem xor_swap (a b c d : UInt32) : a ^^^ b ^^^ (c ^^^ d) = a ^^^ c ^^^ (b ^^^ d) := by
  ac_rfl

private theorem toNat_xor_lt {k : Nat} {x y : UInt32} (hx : x.toNat < 2 ^ k) (hy : y.toNat < 2 ^ k) :
    (x ^^^ y).toNat < 2 ^ k := by
  rw [UInt32.toNat_xor]
  exact Nat.xor_lt_two_pow hx hy

private theorem and_one_eq_one_iff (x : UInt32) : x &&& 1 = 1 ↔ x.toNat % 2 = 1 := by
  rw [← UInt32.toNat_inj, UInt32.toNat_and, UInt32.toNat_one, Nat.and_one_is_mod]

private theorem toNat_half (x : UInt32) : (x >>> 1).toNat = x.toNat / 2 := by
  rw [UInt32.toNat_shiftRight]
  exact Nat.shiftRight_eq_div_pow _ 1

private theorem half_xor (x y : UInt32) : (x ^^^ y) >>> 1 = x >>> 1 ^^^ y >>> 1 := by
  rw [← UInt32.toNat_inj, UInt32.toNat_xor, toNat_half, toNat_half, toNat_half, UInt32.toNat_xor]
  exact Nat.xor_div_two

theorem shift_xor (x y : UInt32) : shift (x ^^^ y) = shift x ^^^ shift y := by
  have hodd : (x ^^^ y) &&& 1 = 1 ↔ ¬(x &&& 1 = 1 ↔ y &&& 1 = 1) := by
    simp only [and_one_eq_one_iff, UInt32.toNat_xor, Nat.xor_mod_two_eq_one]
  unfold shift
  rw [half_xor]
  by_cases hx : x &&& 1 = 1 <;> by_cases hy : y &&& 1 = 1
  · rw [if_pos hx, if_pos hy, if_neg (by tauto), xor_swap, UInt32.xor_self, UInt32.xor_zero]
  · rw [if_pos hx, if_neg hy, if_pos (by tauto)]
    ac_rfl
  · rw [if_neg hx, if_pos hy, if_pos (by tauto)]
    ac_rfl
  · rw [if_neg hx, if_neg hy, if_neg (by tauto)]

theorem shifts_xor (n : Nat) (x y : UInt32) : shifts n (x ^^^ y) = shifts n x ^^^ shifts n y := by
  induction n generalizing x y with
  | zero => rfl
  | succ n ih => rw [shifts, shifts, shifts, shift_xor, ih]

-- The polynomial has the highest bit, so it was not added where that bit is missing.
theorem toNat_of_shift_lt (h : (shift x).toNat < 2 ^ 31) : x.toNat = 2 * (shift x).toNat := by
  have hhalf : (x >>> 1).toNat < 2 ^ 31 := by
    rw [toNat_half]
    have := x.toNat_lt
    omega
  unfold shift at h ⊢
  split at h
  · next hodd =>
    have hpolynomial := toNat_xor_lt hhalf h
    rw [← UInt32.xor_assoc, UInt32.xor_self, UInt32.zero_xor] at hpolynomial
    exact absurd hpolynomial (by decide)
  · next heven =>
    rw [if_neg heven, toNat_half]
    rw [and_one_eq_one_iff] at heven
    omega

theorem toNat_of_shifts_lt {n k : Nat} (hn : n + k = 32) (h : (shifts n x).toNat < 2 ^ k) :
    x.toNat = 2 ^ n * (shifts n x).toNat := by
  induction n generalizing x k with
  | zero => rw [shifts, Nat.pow_zero, Nat.one_mul]
  | succ n ih =>
      rw [shifts] at h ⊢
      have hshift : (shift x).toNat = 2 ^ n * (shifts n (shift x)).toNat :=
        ih (k := k + 1) (by omega) (Nat.lt_trans h (Nat.pow_lt_pow_right (by omega) (by omega)))
      have hlt : (shift x).toNat < 2 ^ 31 := by
        rw [hshift, show 31 = n + k by omega, Nat.pow_add]
        exact Nat.mul_lt_mul_of_pos_left h (Nat.two_pow_pos n)
      rw [toNat_of_shift_lt hlt, hshift, Nat.pow_succ, ← Nat.mul_assoc, Nat.mul_comm 2]

theorem shifts_eq_zero_iff {n : Nat} (hn : n ≤ 32) : shifts n x = 0 ↔ x = 0 := by
  constructor
  · intro h
    have hx := toNat_of_shifts_lt (x := x) (Nat.add_sub_of_le hn) (by rw [h]; exact Nat.two_pow_pos _)
    rw [h] at hx
    exact UInt32.toNat_inj.mp hx
  · rintro rfl
    clear hn
    induction n with
    | zero => rfl
    | succ n ih => exact ih

theorem feed_xor (r r' : UInt32) (b b' : UInt8) :
    feed r b ^^^ feed r' b' = shifts 8 (r ^^^ r' ^^^ (b.toUInt32 ^^^ b'.toUInt32)) := by
  rw [feed, feed, ← shifts_xor, xor_swap]

private theorem toUInt32_xor_eq_zero_iff : b.toUInt32 ^^^ b'.toUInt32 = 0 ↔ b = b' := by
  rw [UInt32.xor_eq_zero_iff, ← UInt32.toNat_inj, UInt8.toNat_toUInt32, UInt8.toNat_toUInt32,
    UInt8.toNat_inj]

private theorem toNat_toUInt32_xor_lt (b b' : UInt8) :
    (b.toUInt32 ^^^ b'.toUInt32).toNat < 2 ^ 8 :=
  toNat_xor_lt b.toNat_lt b'.toNat_lt

-- What is fed to two different registers keeps them different.
theorem foldl_feed_injective (bs : Bytes) (h : bs.foldl feed r = bs.foldl feed r') : r = r' := by
  induction bs generalizing r r' with
  | nil => exact h
  | cons b bs ih =>
      have hzero : shifts 8 (r ^^^ r' ^^^ (b.toUInt32 ^^^ b.toUInt32)) = 0 := by
        rw [← feed_xor, ih h, UInt32.xor_self]
      rw [shifts_eq_zero_iff (by omega), UInt32.xor_self, UInt32.xor_zero] at hzero
      exact UInt32.xor_eq_zero_iff.mp hzero

-- Registers that a few bytes bring together differ by no more than those bytes could make up for.
theorem toNat_xor_lt_of_foldl_feed_eq {bs bs' : Bytes} (hlength : bs.length = bs'.length)
    (hshort : bs.length ≤ 4) (h : bs.foldl feed r = bs'.foldl feed r') :
    (r ^^^ r').toNat < 2 ^ (8 * bs.length) := by
  induction bs generalizing bs' r r' with
  | nil =>
      obtain rfl := List.length_eq_zero_iff.mp hlength.symm
      obtain rfl : r = r' := h
      rw [UInt32.xor_self]
      exact Nat.two_pow_pos _
  | cons b bs ih =>
      obtain ⟨b', bs', rfl⟩ := List.exists_cons_of_length_eq_add_one hlength.symm
      simp only [List.length_cons] at hlength hshort ⊢
      have hrest : (feed r b ^^^ feed r' b').toNat < 2 ^ (8 * bs.length) :=
        ih (Nat.succ.inj hlength) (by omega) h
      rw [feed_xor] at hrest
      have hall := toNat_of_shifts_lt (k := 24) rfl
        (Nat.lt_of_lt_of_le hrest (Nat.pow_le_pow_right (by omega) (by omega)))
      have hlt : (r ^^^ r' ^^^ (b.toUInt32 ^^^ b'.toUInt32)).toNat < 2 ^ (8 * (bs.length + 1)) := by
        rw [hall, Nat.mul_add, Nat.mul_one, Nat.pow_add, Nat.mul_comm]
        exact Nat.mul_lt_mul_of_pos_right hrest (Nat.two_pow_pos 8)
      have hbyte : (b.toUInt32 ^^^ b'.toUInt32).toNat < 2 ^ (8 * (bs.length + 1)) :=
        Nat.lt_of_lt_of_le (toNat_toUInt32_xor_lt b b') (Nat.pow_le_pow_right (by omega) (by omega))
      have hboth := toNat_xor_lt hlt hbyte
      rwa [UInt32.xor_assoc, UInt32.xor_self, UInt32.xor_zero] at hboth

-- The first byte that differs leaves a difference that the three behind it cannot make up for.
theorem foldl_feed_ne {bs bs' : Bytes} (hlength : bs.length = bs'.length) (hshort : bs.length ≤ 4)
    (hne : bs ≠ bs') (r : UInt32) : bs.foldl feed r ≠ bs'.foldl feed r := by
  induction bs generalizing bs' r with
  | nil => exact absurd (List.length_eq_zero_iff.mp hlength.symm).symm hne
  | cons b bs ih =>
      obtain ⟨b', bs', rfl⟩ := List.exists_cons_of_length_eq_add_one hlength.symm
      simp only [List.length_cons] at hlength hshort
      by_cases hfirst : b = b'
      · subst hfirst
        exact ih (by omega) (by omega) (fun h => hne (congrArg _ h)) (feed r b)
      · intro hsame
        have hrest : (feed r b ^^^ feed r b').toNat < 2 ^ (8 * bs.length) :=
          toNat_xor_lt_of_foldl_feed_eq (Nat.succ.inj hlength) (by omega) hsame
        rw [feed_xor, UInt32.xor_self, UInt32.zero_xor] at hrest
        have hall := toNat_of_shifts_lt (k := 24) rfl
          (Nat.lt_of_lt_of_le hrest (Nat.pow_le_pow_right (by omega) (by omega)))
        have hbyte := toNat_toUInt32_xor_lt b b'
        have hzero : (b.toUInt32 ^^^ b'.toUInt32).toNat = 0 := by omega
        exact hfirst (toUInt32_xor_eq_zero_iff.mp (UInt32.toNat_inj.mp hzero))

end Register

section Payload

variable {payload payload' : Bytes}

theorem crc32_ne (front back : Bytes) {bs bs' : Bytes} (hlength : bs.length = bs'.length)
    (hshort : bs.length ≤ 4) (hne : bs ≠ bs') :
    crc32 (front ++ bs ++ back) ≠ crc32 (front ++ bs' ++ back) := by
  unfold crc32
  simp only [List.foldl_append]
  intro hsame
  rw [UInt32.xor_left_inj] at hsame
  exact foldl_feed_ne hlength hshort hne _ (foldl_feed_injective back hsame)

-- A payload that is damaged within four bytes in a row has another checksum.
theorem ofPayload_ne (hlength : payload.length = payload'.length) (hne : payload ≠ payload')
    (start : Nat) (hsame : ∀ k, k < start ∨ start + 4 ≤ k → payload[k]? = payload'[k]?) :
    ofPayload payload ≠ ofPayload payload' := by
  have hfront : payload.take start = payload'.take start := by
    apply List.ext_getElem?
    intro k
    simp only [List.getElem?_take]
    split
    · next hk => exact hsame k (.inl hk)
    · rfl
  have hback : payload.drop (start + 4) = payload'.drop (start + 4) := by
    apply List.ext_getElem?
    intro k
    simp only [List.getElem?_drop]
    exact hsame _ (.inr (Nat.le_add_right _ _))
  have hsplit : ∀ bs : Bytes,
      bs = bs.take start ++ (bs.drop start).take 4 ++ bs.drop (start + 4) := fun bs => by
    rw [List.append_assoc, ← List.drop_drop, List.take_append_drop, List.take_append_drop]
  have hmiddle : (payload.drop start).take 4 ≠ (payload'.drop start).take 4 := by
    intro hmiddle
    apply hne
    rw [hsplit payload, hsplit payload', hfront, hmiddle, hback]
  have hcut : ((payload.drop start).take 4).length = ((payload'.drop start).take 4).length := by
    simp only [List.length_take, List.length_drop, hlength]
  have hall := crc32_ne (LittleEndian.encode 8 payload.length ++ payload.take start)
    (payload.drop (start + 4)) hcut (List.length_take_le _ _) hmiddle
  have hbytes : ∀ bs : Bytes, LittleEndian.encode 8 bs.length ++ bs =
      LittleEndian.encode 8 bs.length ++ bs.take start ++ (bs.drop start).take 4 ++
        bs.drop (start + 4) := fun bs => by
    rw [List.append_assoc, List.append_assoc, ← List.append_assoc (bs.take start), ← hsplit bs]
  rw [ofPayload, ofPayload, hbytes payload, hbytes payload', ← hlength, ← hfront, ← hback]
  exact hall

end Payload

end Spool.Checksum
