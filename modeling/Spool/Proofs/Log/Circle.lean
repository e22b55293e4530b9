namespace Spool.Circle

theorem ofNat_sub_toNat (i t : UInt64) : t + UInt64.ofNat (i - t).toNat = i := by
  rw [UInt64.ofNat_toNat, UInt64.add_comm, UInt64.sub_add_cancel]

theorem toNat_ofNat {k : Nat} (h : k < UInt64.size) : (UInt64.ofNat k).toNat = k := by
  rw [UInt64.toNat_ofNat']
  exact Nat.mod_eq_of_lt h

theorem add_ofNat_sub (t : UInt64) (k : Nat) : t + UInt64.ofNat k - t = UInt64.ofNat k := by
  rw [UInt64.add_comm, UInt64.add_sub_cancel]

theorem toNat_add_ofNat_sub (t : UInt64) {k : Nat} (h : k < UInt64.size) :
    (t + UInt64.ofNat k - t).toNat = k := by
  rw [add_ofNat_sub, toNat_ofNat h]

theorem add_ofNat_inj {t : UInt64} {k l : Nat} (hk : k < UInt64.size) (hl : l < UInt64.size)
    (h : t + UInt64.ofNat k = t + UInt64.ofNat l) : k = l := by
  rw [← toNat_add_ofNat_sub t hk, h, toNat_add_ofNat_sub t hl]

theorem add_ofNat_add (t : UInt64) (k n : Nat) :
    t + UInt64.ofNat k + UInt64.ofNat n = t + UInt64.ofNat (k + n) := by
  rw [UInt64.ofNat_add, UInt64.add_assoc]

theorem add_ofNat_succ (t : UInt64) (k : Nat) : t + UInt64.ofNat (k + 1) = t + UInt64.ofNat k + 1 :=
  (add_ofNat_add t k 1).symm

-- Without a full turn, a place further on is a larger word.
theorem toNat_add_ofNat {t : UInt64} {k : Nat} (h : t.toNat + k < UInt64.size) :
    (t + UInt64.ofNat k).toNat = t.toNat + k := by
  have hk : k < UInt64.size := by omega
  rw [UInt64.toNat_add, toNat_ofNat hk]
  exact Nat.mod_eq_of_lt h

theorem toNat_succ {t : UInt64} (h : t.toNat + 1 < UInt64.size) : (t + 1).toNat = t.toNat + 1 :=
  toNat_add_ofNat h

-- A place in a window, and how far it is from the end.
theorem toNat_sub_of_le {t i h : UInt64} (hle : i - t ≤ h - t) :
    (h - i).toNat = (h - t).toNat - (i - t).toNat := by
  have hsplit : h - i = h - t - (i - t) := by grind
  rw [hsplit, UInt64.toNat_sub_of_le _ _ hle]

-- A place that moves on stays in the window unless it moves past the end.
theorem add_ofNat_sub_le {t i h : UInt64} {k : Nat} (hle : i - t ≤ h - t) (hk : k ≤ (h - i).toNat) :
    i + UInt64.ofNat k - t ≤ h - t := by
  rw [toNat_sub_of_le hle] at hk
  rw [UInt64.le_iff_toNat_le] at hle
  have hlt := UInt64.toNat_lt (h - t)
  have hmove : i + UInt64.ofNat k - t = i - t + UInt64.ofNat k := by grind
  rw [hmove, UInt64.le_iff_toNat_le, toNat_add_ofNat (show _ < 2 ^ 64 by omega)]
  omega

theorem add_ofNat_sub_lt {t i h : UInt64} {k : Nat} (hle : i - t ≤ h - t) (hk : k < (h - i).toNat) :
    i + UInt64.ofNat k - t < h - t := by
  have hshort : k < UInt64.size := Nat.lt_trans hk (UInt64.toNat_lt (h - i))
  refine UInt64.lt_of_le_of_ne (add_ofNat_sub_le hle (Nat.le_of_lt hk)) fun hend => ?_
  have hsame : h - i = UInt64.ofNat k := by grind
  rw [hsame, toNat_ofNat hshort] at hk
  exact Nat.lt_irrefl _ hk

-- A place that moves on leaves less to go.
theorem toNat_sub_add {i h : UInt64} {k : Nat} (hk : k ≤ (h - i).toNat) :
    (h - (i + UInt64.ofNat k)).toNat = (h - i).toNat - k := by
  have hshort : k < UInt64.size := Nat.lt_of_le_of_lt hk (UInt64.toNat_lt _)
  have hle : i + UInt64.ofNat k - i ≤ h - i := by
    rw [UInt64.le_iff_toNat_le, toNat_add_ofNat_sub i hshort]
    exact hk
  rw [toNat_sub_of_le hle, toNat_add_ofNat_sub i hshort]

theorem one_le_toNat_sub {i h : UInt64} (hne : i ≠ h) : 1 ≤ (h - i).toNat := by
  apply Nat.one_le_iff_ne_zero.mpr
  intro hzero
  have hsub : h - i = 0 := UInt64.toNat_inj.mp hzero
  exact hne (by grind)

theorem toNat_sub_succ {i h : UInt64} (hne : i ≠ h) : (h - (i + 1)).toNat + 1 = (h - i).toNat := by
  have hone := one_le_toNat_sub hne
  have hle : 1 ≤ h - i := by
    rw [UInt64.le_iff_toNat_le]
    exact hone
  have hmove : h - (i + 1) = h - i - 1 := by grind
  rw [hmove, UInt64.toNat_sub_of_le _ _ hle]
  exact Nat.sub_add_cancel hone

theorem toNat_succ_sub {t h : UInt64} (hroom : (h - t).toNat + 1 < UInt64.size) :
    (h + 1 - t).toNat = (h - t).toNat + 1 := by
  have hmove : h + 1 - t = h - t + UInt64.ofNat 1 := by grind
  rw [hmove, toNat_add_ofNat hroom]

theorem sub_add_one_ne_zero {t h : UInt64} (hroom : (h - t).toNat + 1 < UInt64.size) :
    h - t + 1 ≠ 0 := by
  intro hzero
  have hnext := toNat_succ_sub hroom
  have hmove : h + 1 - t = h - t + 1 := by grind
  rw [hmove, hzero] at hnext
  cases hnext

-- A window that grows by a place comes back to nothing if it was all but a full turn.
theorem toNat_succ_sub_cases (t h : UInt64) :
    (h + 1 - t).toNat = (h - t).toNat + 1 ∨
      (h - t).toNat + 1 = UInt64.size ∧ (h + 1 - t).toNat = 0 := by
  by_cases hroom : (h - t).toNat + 1 < UInt64.size
  · exact .inl (toNat_succ_sub hroom)
  · have hlt : (h - t).toNat < UInt64.size := UInt64.toNat_lt (h - t)
    have hfull : (h - t).toNat + 1 = UInt64.size := Nat.le_antisymm hlt (Nat.le_of_not_lt hroom)
    have hmove : h + 1 - t = h - t + 1 := by grind
    refine .inr ⟨hfull, ?_⟩
    rw [hmove, UInt64.toNat_add, UInt64.toNat_one, hfull]
    rfl

end Spool.Circle
