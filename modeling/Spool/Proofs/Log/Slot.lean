import Spool.Log.Entry
import Spool.Proofs.Page.Sheet

namespace Spool.Log.Entry

-- The fields of a record are found behind one another.
private theorem fieldAt_skip {width n : Nat} {rest : Bytes} {position length : Nat}
    (h : width ≤ position) :
    fieldAt (LittleEndian.encode width n ++ rest) position length =
      fieldAt rest (position - width) length := by
  have hlength := LittleEndian.length_encode width n
  rw [fieldAt, fieldAt, List.drop_append, List.drop_eq_nil_of_le (by omega), hlength, List.nil_append]

private theorem fieldAt_first {width n : Nat} {rest : Bytes} (h : n < LittleEndian.capacity width) :
    fieldAt (LittleEndian.encode width n ++ rest) 0 width = n := by
  rw [fieldAt, List.drop_zero, List.take_left' (LittleEndian.length_encode width n),
    LittleEndian.decode_encode h]

theorem decode_encode (e : Entry) : decode e.encode = e := by
  have h8 : ∀ n : UInt64, n.toNat < LittleEndian.capacity 8 := UInt64.toNat_lt
  have h4 : ∀ n : UInt32, n.toNat < LittleEndian.capacity 4 := UInt32.toNat_lt
  have hdataPage : fieldAt e.encode 0 8 = e.dataPage.toNat := by
    simp only [encode, List.append_assoc]
    exact fieldAt_first (h8 _)
  have hoffset : fieldAt e.encode 8 4 = e.offset.toNat := by
    simp (disch := decide) only [encode, List.append_assoc, fieldAt_skip]
    exact fieldAt_first (h4 _)
  have hlength : fieldAt e.encode 12 4 = e.length.toNat := by
    simp (disch := decide) only [encode, List.append_assoc, fieldAt_skip]
    exact fieldAt_first (h4 _)
  have htimestamp : fieldAt e.encode 16 8 = e.timestamp.toUInt64.toNat := by
    simp (disch := decide) only [encode, List.append_assoc, fieldAt_skip]
    exact fieldAt_first (h8 _)
  have hchecksum : fieldAt e.encode 24 4 = e.checksum.toNat := by
    simp (disch := decide) only [encode, List.append_assoc, fieldAt_skip]
    exact fieldAt_first (h4 _)
  unfold decode
  simp only [hdataPage, hoffset, hlength, htimestamp, hchecksum, UInt64.ofNat_toNat,
    UInt32.ofNat_toNat, Int64.toInt64_toUInt64]

-- The bytes that a field is read from are the form of its number.
private theorem encode_fieldAt {bs : Bytes} {position length : Nat} (h : position + length ≤ bs.length) :
    LittleEndian.encode length (fieldAt bs position length) = (bs.drop position).take length := by
  have hlength : ((bs.drop position).take length).length = length := by
    rw [List.length_take, List.length_drop]
    omega
  have hencode := LittleEndian.encode_decode ((bs.drop position).take length)
  rwa [hlength] at hencode

private theorem fieldAt_lt {bs : Bytes} {position length : Nat} (h : position + length ≤ bs.length) :
    fieldAt bs position length < LittleEndian.capacity length := by
  have hlength : ((bs.drop position).take length).length = length := by
    rw [List.length_take, List.length_drop]
    omega
  have hlt := LittleEndian.decode_lt ((bs.drop position).take length)
  rwa [hlength] at hlt

-- Any bytes come back from their entry, but for the spare ones.
theorem encode_decode {bs : Bytes} (h : bs.length = width) :
    (decode bs).encode = bs.take 28 ++ List.replicate 4 0 := by
  have hword : ∀ position, position + 8 ≤ width →
      LittleEndian.encode 8 (UInt64.ofNat (fieldAt bs position 8)).toNat = (bs.drop position).take 8 := by
    intro position hle
    rw [UInt64.toNat_ofNat_of_lt' (fieldAt_lt (h ▸ hle)), encode_fieldAt (h ▸ hle)]
  have hhalf : ∀ position, position + 4 ≤ width →
      LittleEndian.encode 4 (UInt32.ofNat (fieldAt bs position 4)).toNat = (bs.drop position).take 4 := by
    intro position hle
    rw [UInt32.toNat_ofNat_of_lt' (fieldAt_lt (h ▸ hle)), encode_fieldAt (h ▸ hle)]
  have hspare : LittleEndian.encode 4 0 = List.replicate 4 0 := by decide
  simp only [encode, decode, UInt64.toUInt64_toInt64]
  rw [hword 0 (by decide), hhalf 8 (by decide), hhalf 12 (by decide), hword 16 (by decide),
    hhalf 24 (by decide), hspare, List.drop_zero]
  simp only [← List.take_add]

theorem decode_zeros : decode (List.replicate width 0) = ⟨0, 0, 0, 0, 0⟩ := by
  decide

theorem toNat_pageOf (i : UInt64) : (pageOf i).toNat = i.toNat / perPage := by
  rw [pageOf, UInt64.toNat_ofNat']
  exact Nat.mod_eq_of_lt (Nat.lt_of_le_of_lt (Nat.div_le_self _ _) i.toNat_lt)

-- The page of a slot is the upper part of the index, and its place there the lower part.
theorem pageOf_eq_shift (i : UInt64) : pageOf i = i >>> 17 := by
  apply UInt64.toNat_inj.mp
  rw [toNat_pageOf, UInt64.toNat_shiftRight, Nat.shiftRight_eq_div_pow]
  rfl

theorem positionOf_eq_mask (i : UInt64) : positionOf i = ((i &&& 131071) * 32).toNat := by
  have hmask : (i &&& 131071).toNat = i.toNat % perPage := by
    rw [UInt64.toNat_and]
    exact Nat.and_two_pow_sub_one_eq_mod i.toNat 17
  have hlt : i.toNat % perPage < perPage := Nat.mod_lt _ (by decide)
  rw [UInt64.toNat_mul, hmask]
  simp only [positionOf, perPage, width] at hlt ⊢
  exact (Nat.mod_eq_of_lt (by simp; omega)).symm

theorem positionOf_mod_width (i : UInt64) : positionOf i % width = 0 :=
  Nat.mul_mod_left _ _

-- The slots of different indexes are on different pages or apart on one.
theorem pageOf_ne_or_positionOf_apart {i j : UInt64} (h : i ≠ j) :
    pageOf i ≠ pageOf j ∨ positionOf i + width ≤ positionOf j ∨ positionOf j + width ≤ positionOf i := by
  have hne : i.toNat ≠ j.toNat := fun heq => h (UInt64.toNat_inj.mp heq)
  by_cases hpage : pageOf i = pageOf j
  · right
    have hsame : i.toNat / perPage = j.toNat / perPage := by
      rw [← toNat_pageOf, ← toNat_pageOf, hpage]
    simp only [positionOf, perPage, width] at hsame ⊢
    omega
  · exact Or.inl hpage

-- Without the turn of the circle, a larger index has its slot on the same page or a later one.
theorem pageOf_le_pageOf {i j : UInt64} (h : i ≤ j) : pageOf i ≤ pageOf j := by
  rw [UInt64.le_iff_toNat_le, toNat_pageOf, toNat_pageOf]
  exact Nat.div_le_div_right (UInt64.le_iff_toNat_le.mp h)

end Spool.Log.Entry
