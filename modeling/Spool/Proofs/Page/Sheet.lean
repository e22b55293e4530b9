import Spool.Disk.Content

namespace Spool

-- What a file holds, seen as a length and a byte at every position.
structure Sheet where
  size : Nat
  byteAt : Nat → UInt8

namespace Sheet

def blank : Sheet := ⟨0, fun _ => 0⟩

def growTo (s : Sheet) (size : Nat) : Sheet :=
  { s with size := max s.size size }

def read (s : Sheet) (position length : Nat) : Bytes :=
  (List.range' position length).map s.byteAt

def write (s : Sheet) (position : Nat) (data : Bytes) : Sheet :=
  { s with
    byteAt := fun p =>
      if position ≤ p then data[p - position]?.getD (s.byteAt p) else s.byteAt p }

-- The word of eight bytes at a position.
def word (s : Sheet) (position : Nat) : UInt64 :=
  UInt64.ofNat (LittleEndian.decode (s.read position 8))

def setWord (s : Sheet) (position : Nat) (value : UInt64) : Sheet :=
  s.write position (LittleEndian.encode 8 value.toNat)

theorem length_read (s : Sheet) (position length : Nat) : (s.read position length).length = length := by
  simp [read]

-- A sheet that is long enough stays as it is.
theorem growTo_eq_self {s : Sheet} {size : Nat} (h : size ≤ s.size) : s.growTo size = s := by
  rw [growTo, Nat.max_eq_left h]

theorem read_growTo (s : Sheet) (size position length : Nat) :
    (s.growTo size).read position length = s.read position length := rfl

theorem read_blank (position length : Nat) : blank.read position length = List.replicate length 0 := by
  rw [read, blank, List.map_const', List.length_range']

private theorem byteAt_write_inside (s : Sheet) {position : Nat} {data : Bytes} {i : Nat}
    (h : i < data.length) : (s.write position data).byteAt (position + i) = data[i] := by
  have hle : position ≤ position + i := by omega
  have hi : position + i - position = i := by omega
  show (if position ≤ position + i then data[position + i - position]?.getD _ else _) = _
  rw [if_pos hle, hi, List.getElem?_eq_getElem h, Option.getD_some]

private theorem byteAt_write_outside (s : Sheet) {position p : Nat} {data : Bytes}
    (h : p < position ∨ position + data.length ≤ p) :
    (s.write position data).byteAt p = s.byteAt p := by
  show (if position ≤ p then data[p - position]?.getD (s.byteAt p) else s.byteAt p) = s.byteAt p
  by_cases hle : position ≤ p
  · rw [if_pos hle, List.getElem?_eq_none (by omega), Option.getD_none]
  · rw [if_neg hle]

theorem read_write_self (s : Sheet) (position : Nat) (data : Bytes) :
    (s.write position data).read position data.length = data := by
  apply List.ext_getElem
  · exact length_read _ _ _
  · intro i _ hi
    simp only [read, List.getElem_map, List.getElem_range', Nat.one_mul]
    exact byteAt_write_inside s hi

-- A read sees nothing of a write in front of it or behind it.
theorem read_write_of_disjoint (s : Sheet) {position length start : Nat} {data : Bytes}
    (h : position + length ≤ start ∨ start + data.length ≤ position) :
    (s.write start data).read position length = s.read position length := by
  apply List.map_congr_left
  intro p hp
  rw [List.mem_range'_1] at hp
  apply byteAt_write_outside
  omega

private theorem word_encode (value : UInt64) :
    UInt64.ofNat (LittleEndian.decode (LittleEndian.encode 8 value.toNat)) = value := by
  have hlt : value.toNat < LittleEndian.capacity 8 := value.toNat_lt
  rw [LittleEndian.decode_encode hlt, UInt64.ofNat_toNat]

theorem word_setWord (s : Sheet) (position : Nat) (value : UInt64) :
    (s.setWord position value).word position = value := by
  have hread := read_write_self s position (LittleEndian.encode 8 value.toNat)
  rw [LittleEndian.length_encode] at hread
  rw [word, setWord, hread, word_encode]

theorem word_setWord_of_disjoint (s : Sheet) {position start : Nat} (value : UInt64)
    (h : position + 8 ≤ start ∨ start + 8 ≤ position) :
    (s.setWord start value).word position = s.word position := by
  have hread : (s.setWord start value).read position 8 = s.read position 8 := by
    apply read_write_of_disjoint
    rw [LittleEndian.length_encode]
    exact h
  rw [word, hread, word]

end Sheet

namespace Content

def sheet (c : Content) : Sheet := ⟨c.size, c.byteAt⟩

theorem sheet_empty : empty.sheet = Sheet.blank := by
  simp only [sheet, Sheet.blank, Sheet.mk.injEq]
  exact ⟨rfl, funext byteAt_empty⟩

theorem sheet_growTo (c : Content) (size : Nat) : (c.growTo size).sheet = c.sheet.growTo size := rfl

theorem sheet_write (c : Content) (position : Nat) (data : Bytes) :
    (c.write position data).sheet = c.sheet.write position data := by
  simp only [sheet, Sheet.write, Sheet.mk.injEq]
  exact ⟨rfl, funext (byteAt_write c position data)⟩

end Content

abbrev Image := UInt64 → Option Sheet

namespace Image

def sheet (img : Image) (page : UInt64) : Sheet :=
  (img page).getD Sheet.blank

def set (img : Image) (page : UInt64) (s : Sheet) : Image :=
  fun other => if other = page then some s else img other

-- A page as it is mapped: there, and at least of the page size.
def mapped (img : Image) (size : Nat) (page : UInt64) : Sheet :=
  (img.sheet page).growTo size

def touch (img : Image) (size : Nat) (page : UInt64) : Image :=
  img.set page (img.mapped size page)

def write (img : Image) (size : Nat) (page : UInt64) (position : Nat) (data : Bytes) : Image :=
  img.set page ((img.mapped size page).write position data)

def setWord (img : Image) (size : Nat) (page : UInt64) (position : Nat) (value : UInt64) : Image :=
  img.set page ((img.mapped size page).setWord position value)

def bytes (img : Image) (page : UInt64) (position length : Nat) : Bytes :=
  (img.sheet page).read position length

def word (img : Image) (page : UInt64) (position : Nat) : UInt64 :=
  (img.sheet page).word position

-- An image after the pages that are asked for were deleted.
def without (img : Image) (asked : UInt64 → Bool) : Image :=
  fun page => if asked page then none else img page

theorem sheet_set (img : Image) (page : UInt64) (s : Sheet) (other : UInt64) :
    (img.set page s).sheet other = if other = page then s else img.sheet other := by
  unfold sheet set
  split <;> rfl

theorem word_of_none {img : Image} {page : UInt64} (h : img page = none) (position : Nat) :
    img.word page position = 0 := by
  rw [word, sheet, h, Option.getD_none, Sheet.word, Sheet.read_blank]
  decide

theorem set_self (img : Image) (page : UInt64) (s : Sheet) : (img.set page s) page = some s :=
  if_pos rfl

theorem set_eq_self {img : Image} {page : UInt64} {s : Sheet} (h : img page = some s) :
    img.set page s = img := by
  funext other
  unfold set
  split
  · next hother => rw [hother, h]
  · rfl

theorem set_set (img : Image) (page : UInt64) (s t : Sheet) :
    (img.set page s).set page t = img.set page t := by
  funext other
  unfold set
  split <;> rfl

section Covers

variable {img : Image} {page : UInt64} {s : Sheet} {size : Nat} (h : img page = some s)
  (hsize : size ≤ s.size)

include h hsize

-- A page that is long enough is mapped as it is.
theorem mapped_eq : img.mapped size page = s := by
  rw [mapped, sheet, h, Option.getD_some, Sheet.growTo_eq_self hsize]

theorem touch_eq_self : img.touch size page = img := by
  rw [touch, mapped_eq h hsize]
  exact set_eq_self h

end Covers

theorem touch_set_sheet (img : Image) (size : Nat) (page : UInt64) :
    (img.set page (img.sheet page)).touch size page = img.touch size page := by
  simp only [touch, mapped, sheet_set, if_true, set_set]

theorem touch_zero (img : Image) (page : UInt64) : img.touch 0 page = img.set page (img.sheet page) := by
  rw [touch, mapped, Sheet.growTo_eq_self (Nat.zero_le _)]

theorem sheet_touch_zero (img : Image) (page other : UInt64) :
    (img.touch 0 page).sheet other = img.sheet other := by
  rw [touch_zero, sheet_set]
  split
  · next h => rw [h]
  · rfl

-- A file that was made first is extended in the same way.
theorem touch_touch_zero (img : Image) (size : Nat) (page : UInt64) :
    (img.touch 0 page).touch size page = img.touch size page := by
  rw [touch_zero, touch_set_sheet]

theorem mapped_touch (img : Image) (size : Nat) (page : UInt64) :
    (img.touch size page).mapped size page = img.mapped size page := by
  simp only [touch, mapped, sheet_set, if_true, Sheet.growTo, Nat.max_assoc, Nat.max_self]

theorem word_mapped (img : Image) (size : Nat) (page : UInt64) (position : Nat) :
    (img.mapped size page).word position = img.word page position := by
  rw [mapped, word, Sheet.word, Sheet.word, Sheet.read_growTo]

theorem bytes_touch (img : Image) (size : Nat) (page other : UInt64) (position length : Nat) :
    (img.touch size page).bytes other position length = img.bytes other position length := by
  unfold bytes touch
  rw [sheet_set]
  split
  · next h => rw [h, mapped, Sheet.read_growTo]
  · rfl

theorem word_touch (img : Image) (size : Nat) (page other : UInt64) (position : Nat) :
    (img.touch size page).word other position = img.word other position := by
  have h := bytes_touch img size page other position 8
  unfold bytes at h
  rw [word, word, Sheet.word, Sheet.word, h]

theorem bytes_write_self (img : Image) (size : Nat) (page : UInt64) (position : Nat) (data : Bytes) :
    (img.write size page position data).bytes page position data.length = data := by
  unfold bytes write
  rw [sheet_set, if_pos rfl, Sheet.read_write_self]

theorem bytes_write_of_ne (img : Image) (size : Nat) {page other : UInt64} (h : other ≠ page)
    (start : Nat) (data : Bytes) (position length : Nat) :
    (img.write size page start data).bytes other position length = img.bytes other position length := by
  unfold bytes write
  rw [sheet_set, if_neg h]

theorem bytes_write_of_disjoint (img : Image) (size : Nat) (page : UInt64) {position length start : Nat}
    {data : Bytes} (h : position + length ≤ start ∨ start + data.length ≤ position) :
    (img.write size page start data).bytes page position length = img.bytes page position length := by
  unfold bytes write
  rw [sheet_set, if_pos rfl, Sheet.read_write_of_disjoint _ h, mapped, Sheet.read_growTo]

theorem word_setWord (img : Image) (size : Nat) (page : UInt64) (position : Nat) (value : UInt64) :
    (img.setWord size page position value).word page position = value := by
  unfold word setWord
  rw [sheet_set, if_pos rfl, Sheet.word_setWord]

theorem word_setWord_of_disjoint (img : Image) (size : Nat) (page : UInt64) {position start : Nat}
    (value : UInt64) (h : position + 8 ≤ start ∨ start + 8 ≤ position) :
    (img.setWord size page start value).word page position = img.word page position := by
  unfold word setWord
  rw [sheet_set, if_pos rfl, Sheet.word_setWord_of_disjoint _ value h]
  rfl

theorem without_without (img : Image) (asked more : UInt64 → Bool) :
    (img.without asked).without more = img.without fun page => asked page || more page := by
  funext page
  by_cases hmore : more page = true
  · simp [without, hmore]
  · simp [without, hmore]

-- It does not matter whether a page that is not there is asked for.
theorem without_congr {img : Image} {asked asked' : UInt64 → Bool}
    (h : ∀ page, (img page).isSome → asked page = asked' page) :
    img.without asked = img.without asked' := by
  funext page
  simp only [without]
  cases himg : img page with
  | none => simp
  | some s => rw [h page (by simp [himg])]

theorem bytes_without (img : Image) (asked : UInt64 → Bool) (page : UInt64) (position length : Nat) :
    (img.without asked).bytes page position length =
      if asked page then List.replicate length 0 else img.bytes page position length := by
  unfold bytes sheet without
  cases asked page with
  | true => exact Sheet.read_blank position length
  | false => rfl

theorem isSome_set_iff {img : Image} {page other : UInt64} {s : Sheet} :
    ((img.set page s) other).isSome ↔ other = page ∨ (img other).isSome := by
  unfold set
  split
  · next h => simp [h]
  · next h => simp [h]

-- A page that is there stays when a page is mapped or written.
theorem isSome_set {img : Image} {page other : UInt64} {s : Sheet} (h : (img other).isSome) :
    ((img.set page s) other).isSome :=
  isSome_set_iff.mpr (.inr h)

theorem isSome_write_self (img : Image) (size : Nat) (page : UInt64) (position : Nat) (data : Bytes) :
    ((img.write size page position data) page).isSome :=
  isSome_set_iff.mpr (.inl rfl)

theorem isSome_setWord {img : Image} {size : Nat} {page other : UInt64} {position : Nat} {value : UInt64}
    (h : (img other).isSome) : ((img.setWord size page position value) other).isSome :=
  isSome_set h

theorem isSome_touch {img : Image} {size : Nat} {page other : UInt64} (h : (img other).isSome) :
    ((img.touch size page) other).isSome :=
  isSome_set h

theorem isSome_touch_self (img : Image) (size : Nat) (page : UInt64) : ((img.touch size page) page).isSome :=
  isSome_set_iff.mpr (.inl rfl)

theorem isSome_without_iff {img : Image} {asked : UInt64 → Bool} {page : UInt64} :
    ((img.without asked) page).isSome ↔ asked page = false ∧ (img page).isSome := by
  unfold without
  cases asked page <;> simp

-- What a page leaves behind that could not be mapped: its file may have been made or extended.
def Missed (img : Image) (page : UInt64) (img' : Image) : Prop :=
  img' = img ∨ ∃ size, img' = img.touch size page

-- A page that is there and long enough.
def Covers (img : Image) (size : Nat) (page : UInt64) : Prop :=
  ∃ s, img page = some s ∧ size ≤ s.size

theorem covers_set_self (img : Image) (page : UInt64) {s : Sheet} {size : Nat} (h : size ≤ s.size) :
    (img.set page s).Covers size page :=
  ⟨s, set_self img page s, h⟩

theorem covers_touch_self (img : Image) (size : Nat) (page : UInt64) :
    (img.touch size page).Covers size page :=
  covers_set_self img page (Nat.le_max_right _ _)

theorem Covers.touch {img : Image} {size : Nat} {page : UInt64} (h : img.Covers size page)
    (other : UInt64) : (img.touch size other).Covers size page := by
  by_cases hpage : page = other
  · rw [hpage]
    exact covers_touch_self img size other
  · obtain ⟨s, hs, hsize⟩ := h
    exact ⟨s, (if_neg hpage).trans hs, hsize⟩

-- A write makes and extends as a mapping does, whatever is written.
theorem covers_write_iff {img : Image} {size : Nat} {page other : UInt64} {position : Nat}
    {data : Bytes} :
    (img.write size other position data).Covers size page ↔ (img.touch size other).Covers size page := by
  by_cases hpage : page = other
  · rw [hpage]
    exact iff_of_true (covers_set_self img other (Nat.le_max_right _ _)) (covers_touch_self img size other)
  · unfold Covers write touch set
    simp only [if_neg hpage]

theorem Covers.without {img : Image} {size : Nat} {page : UInt64} (h : img.Covers size page)
    {asked : UInt64 → Bool} (hasked : asked page = false) : (img.without asked).Covers size page := by
  obtain ⟨s, hs, hsize⟩ := h
  exact ⟨s, (if_neg (by simp [hasked])).trans hs, hsize⟩

end Image

end Spool
