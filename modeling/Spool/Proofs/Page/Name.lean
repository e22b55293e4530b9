import Spool.Proofs.Path.Join

namespace Spool.PageFile

theorem name_injective {i j : UInt64} (h : name i = name j) : i = j := by
  have hi := indexOfName?_name i
  rw [h, indexOfName?_name] at hi
  exact (Option.some.inj hi).symm

private theorem isDigit_of_mem_ofWord {i : UInt64} {c : Char} (h : c ∈ Decimal.ofWord i) :
    c.isDigit = true :=
  Nat.isDigit_of_mem_toDigits (by decide) (by decide) h

private theorem toList_name (i : UInt64) :
    (name i).toList = nameHead ++ Decimal.ofWord i ++ nameTail :=
  String.toList_ofList

private theorem not_mem_name {i : UInt64} {c : Char} (hhead : c ∉ nameHead) (htail : c ∉ nameTail)
    (hdigit : c.isDigit = false) : c ∉ (name i).toList := by
  rw [toList_name, List.mem_append, List.mem_append]
  rintro ((h | h) | h)
  · exact hhead h
  · rw [isDigit_of_mem_ofWord h] at hdigit
    exact absurd hdigit (by decide)
  · exact htail h

theorem isName_name (i : UInt64) : Path.IsName (name i) := by
  have hslash : '/' ∉ (name i).toList := not_mem_name (by decide) (by decide) (by decide)
  have hfirst : 'p' ∈ (name i).toList := by
    rw [toList_name]
    exact List.mem_append_left _ (List.mem_append_left _ (by decide))
  constructor
  · intro h
    rw [h] at hfirst
    exact absurd hfirst (by decide)
  · exact hslash
  · intro h
    rw [h] at hfirst
    exact absurd hfirst (by decide)
  · intro h
    rw [h] at hfirst
    exact absurd hfirst (by decide)

theorem index?_join_name (dir : Path) (i : UInt64) : index? (dir.join (name i)) = some i := by
  rw [index?, Path.fileName?_join dir (isName_name i), Option.bind_some, indexOfName?_name]

theorem nul_not_mem_name (i : UInt64) : '\x00' ∉ (name i).toList :=
  not_mem_name (by decide) (by decide) (by decide)

-- Every character of a name is one byte, and no word has more than twenty digits.
private theorem utf8ByteSize_ofList (cs : List Char) (h : ∀ c ∈ cs, c.utf8Size = 1) :
    (String.ofList cs).utf8ByteSize = cs.length := by
  induction cs with
  | nil => rfl
  | cons c cs ih =>
      have hsplit : String.ofList (c :: cs) = String.ofList [c] ++ String.ofList cs := by
        rw [← String.ofList_append]
        rfl
      have hone : (String.ofList [c]).utf8ByteSize = c.utf8Size := by
        rw [← String.singleton_eq_ofList, String.utf8ByteSize_singleton]
      have hrest := ih fun d hd => h d (List.mem_cons_of_mem _ hd)
      rw [hsplit, String.utf8ByteSize_append, hone, hrest, h c List.mem_cons_self, List.length_cons]
      omega

private theorem utf8Size_of_isDigit {c : Char} (h : c.isDigit = true) : c.utf8Size = 1 := by
  simp only [Char.isDigit, Bool.and_eq_true, decide_eq_true_eq] at h
  have hle : c.val ≤ 127 := UInt32.le_trans h.2 (by decide)
  simp [Char.utf8Size, hle]

theorem utf8ByteSize_name_le (i : UInt64) : (name i).utf8ByteSize ≤ 29 := by
  have hhead : nameHead.all (·.utf8Size = 1) = true := by decide
  have htail : nameTail.all (·.utf8Size = 1) = true := by decide
  have hone : ∀ c ∈ nameHead ++ Decimal.ofWord i ++ nameTail, c.utf8Size = 1 := by
    intro c hc
    rcases List.mem_append.mp hc with hc | hc
    · rcases List.mem_append.mp hc with hc | hc
      · exact of_decide_eq_true (List.all_eq_true.mp hhead c hc)
      · exact utf8Size_of_isDigit (isDigit_of_mem_ofWord hc)
    · exact of_decide_eq_true (List.all_eq_true.mp htail c hc)
  have hdigits : (Decimal.ofWord i).length ≤ 20 := by
    have hlt : i.toNat < 10 ^ 20 := Nat.lt_trans i.toNat_lt (by decide)
    exact (Nat.length_toDigits_le_iff (by decide) (by decide)).mpr hlt
  have hhead : nameHead.length = 5 := by decide
  have htail : nameTail.length = 4 := by decide
  rw [name, utf8ByteSize_ofList _ hone, List.length_append, List.length_append]
  omega

end Spool.PageFile
