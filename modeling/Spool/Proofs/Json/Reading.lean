import Spool.Json.Parser
import Spool.Json.Printer
import Spool.Json.Scalar
import Spool.Proofs.Json.Text

namespace Spool.Json

section

variable {c : Char} {cs rest : List Char} {ts older : List Token}

-- The same scanner with more tokens behind it.
def Scanner.over (older : List Token) (s : Scanner) : Scanner :=
  ⟨s.mode, s.tokens ++ older⟩

theorem stepBetween_over {tokens : List Token} :
    Scanner.stepBetween (tokens ++ older) c =
      (Scanner.stepBetween tokens c).map (Scanner.over older) := by
  simp only [Scanner.stepBetween, apply_ite (Option.map (Scanner.over older))]
  rfl

-- What was scanned before has no part in a step.
theorem step_over (s : Scanner) : (s.over older).step c = (s.step c).map (Scanner.over older) := by
  obtain ⟨mode, tokens⟩ := s
  cases mode with
  | between => exact stepBetween_over
  | word taken =>
      simp only [Scanner.step, Scanner.over, apply_ite (Option.map (Scanner.over older)),
        ← stepBetween_over]
      rfl
  | text taken =>
      simp only [Scanner.step, apply_ite (Option.map (Scanner.over older))]
      rfl
  | escape taken =>
      simp only [Scanner.step, apply_ite (Option.map (Scanner.over older))]
      rfl
  | hex taken left =>
      simp only [Scanner.step, apply_ite (Option.map (Scanner.over older))]
      rfl

theorem foldlM_step_over (s : Scanner) :
    cs.foldlM Scanner.step (s.over older) =
      (cs.foldlM Scanner.step s).map (Scanner.over older) := by
  induction cs generalizing s with
  | nil => rfl
  | cons c cs ih =>
      rw [List.foldlM_cons, List.foldlM_cons, step_over]
      cases s.step c with
      | none => rfl
      | some s' => exact ih s'

theorem finish?_over (s : Scanner) :
    (s.over older).finish? = s.finish?.map (older.reverse ++ ·) := by
  obtain ⟨mode, tokens⟩ := s
  cases mode <;> simp [Scanner.finish?, Scanner.over]

theorem not_isBlank_of_isMark (h : isMark c = true) : isBlank c = false := by
  simp only [isMark, Bool.or_eq_true, decide_eq_true_eq] at h
  obtain ((((rfl | rfl) | rfl) | rfl) | rfl) | rfl := h <;> rfl

theorem not_isWordChar_of_isMark (h : isMark c = true) : isWordChar c = false := by
  simp only [isMark, Bool.or_eq_true, decide_eq_true_eq] at h
  obtain ((((rfl | rfl) | rfl) | rfl) | rfl) | rfl := h <;> rfl

-- A mark may stand wherever the text may end.
theorem step_mark {s : Scanner} (hs : s.finish? = some ts) (h : isMark c = true) :
    s.step c = some ⟨.between, .mark c :: ts.reverse⟩ := by
  have hbetween (tokens : List Token) :
      Scanner.stepBetween tokens c = some ⟨.between, .mark c :: tokens⟩ := by
    simp [Scanner.stepBetween, not_isBlank_of_isMark h, h]
  obtain ⟨mode, tokens⟩ := s
  cases mode with
  | between =>
      obtain rfl : tokens.reverse = ts := Option.some.inj hs
      rw [List.reverse_reverse]
      exact hbetween tokens
  | word taken =>
      obtain rfl : (.word taken.reverse :: tokens).reverse = ts := Option.some.inj hs
      rw [List.reverse_reverse]
      simp only [Scanner.step, not_isWordChar_of_isMark h, Bool.false_eq_true, if_false]
      exact hbetween _
  | text taken => cases hs
  | escape taken => cases hs
  | hex taken left => cases hs

theorem tokens?_append_mark (hcs : tokens? cs = some ts) (h : isMark c = true) :
    tokens? (cs ++ c :: rest) = (tokens? rest).map (ts ++ .mark c :: ·) := by
  obtain ⟨s, hs, hfinish⟩ := Option.bind_eq_some_iff.mp hcs
  have hstart : (⟨.between, .mark c :: ts.reverse⟩ : Scanner) =
      Scanner.over (.mark c :: ts.reverse) ⟨.between, []⟩ := rfl
  unfold tokens?
  rw [List.foldlM_append, hs, Option.bind_eq_bind, Option.bind_some, List.foldlM_cons,
    step_mark hfinish h, Option.bind_eq_bind, Option.bind_some, hstart, foldlM_step_over]
  cases rest.foldlM Scanner.step ⟨.between, []⟩ with
  | none => rfl
  | some s' =>
      rw [Option.map_some, Option.bind_some, Option.bind_some, finish?_over]
      simp

theorem tokens?_mark (h : isMark c = true) :
    tokens? (c :: rest) = (tokens? rest).map (.mark c :: ·) :=
  tokens?_append_mark (show tokens? [] = some [] from rfl) h

end

section

variable {outer : List Frame} {r r' : Reader} {token : Token} {ts : List Token} {j : Json}

-- The same reader with more containers open around what it reads.
def Reader.under (outer : List Frame) : Reader → Reader
  | .value frames => .value (frames ++ outer)
  | .first frames => .first (frames ++ outer)
  | .member members frames => .member members (frames ++ outer)
  | .colon members name frames => .colon members name (frames ++ outer)
  | .after complete frames => .after complete (frames ++ outer)

theorem stepValue_under {frames : List Frame} :
    Reader.stepValue (frames ++ outer) token =
      (Reader.stepValue frames token).map (Reader.under outer) := by
  cases token with
  | text written => rfl
  | word cs =>
      rw [Reader.stepValue, Reader.stepValue, Option.map_map]
      rfl
  | mark c =>
      simp only [Reader.stepValue, apply_ite (Option.map (Reader.under outer))]
      rfl

theorem stepAfter_under {c : Char} {frame : Frame} {frames : List Frame} :
    Reader.stepAfter j c (frame :: frames ++ outer) =
      (Reader.stepAfter j c (frame :: frames)).map (Reader.under outer) := by
  cases frame with
  | array items =>
      simp only [List.cons_append, Reader.stepAfter, apply_ite (Option.map (Reader.under outer))]
      rfl
  | object members name =>
      simp only [List.cons_append, Reader.stepAfter, apply_ite (Option.map (Reader.under outer))]
      rfl

-- A step that is made alone is made inside of containers: it closes none of them.
theorem step_under (h : r.step token = some r') :
    (r.under outer).step token = some (r'.under outer) := by
  rw [← Option.map_some (f := Reader.under outer), ← h]
  cases r with
  | value frames => exact stepValue_under
  | first frames =>
      simp only [Reader.step, apply_ite (Option.map (Reader.under outer)), ← stepValue_under]
      rfl
  | member members frames =>
      cases token with
      | text name => rfl
      | word cs => rfl
      | mark c =>
          simp only [Reader.step, apply_ite (Option.map (Reader.under outer))]
          rfl
  | colon members name frames =>
      simp only [Reader.step, apply_ite (Option.map (Reader.under outer))]
      rfl
  | after complete frames =>
      cases token with
      | text written => rfl
      | word cs => rfl
      | mark c =>
          cases frames with
          | nil => cases h
          | cons frame frames => exact stepAfter_under

theorem foldlM_step_under (h : ts.foldlM Reader.step r = some r') :
    ts.foldlM Reader.step (r.under outer) = some (r'.under outer) := by
  induction ts generalizing r with
  | nil =>
      cases h
      rfl
  | cons token ts ih =>
      obtain ⟨next, hnext, hrest⟩ := Option.bind_eq_some_iff.mp h
      rw [List.foldlM_cons, step_under hnext]
      exact ih hrest

-- A value is read the same way wherever it stands.
theorem read_under (h : ofTokens? ts = some j) :
    ts.foldlM Reader.step (.value outer) = some (.after j outer) := by
  obtain ⟨r, hr, hfinish⟩ := Option.bind_eq_some_iff.mp h
  have hafter : r = .after j [] := by
    unfold Reader.finish? at hfinish
    split at hfinish
    · cases hfinish
      rfl
    · cases hfinish
  rw [hafter] at hr
  exact foldlM_step_under hr

end

-- The text of a member from those of its name and its value.
def memberText (text : List Char × List Char) : List Char :=
  text.1 ++ ':' :: text.2

def membersText : List (List Char × List Char) → List Char
  | [] => []
  | [pair] => memberText pair
  | pair :: pairs => memberText pair ++ ',' :: membersText pairs

def objectText (pairs : List (List Char × List Char)) : List Char :=
  '\x7b' :: membersText pairs ++ ['\x7d']

-- Two pairs that are read as a name and a value, with or without blanks around them.
structure IsMemberText (text : List Char × List Char) (member : List Char × Json) : Prop where
  name : tokens? text.1 = some [.text member.1]
  value : parse? (String.ofList text.2) = some member.2

section

variable {α : Type} {text : α → List Char × List Char} {member : α → List Char × Json} {a : α}
  {as : List α} {c : Char} {rest : List Char} {ts : List Token} {read : List (List Char × Json)}
  {outer : List Frame}

theorem tokens?_memberText (h : IsMemberText (text a) (member a)) (hc : isMark c = true)
    (hrest : tokens? rest = some ts) :
    ∃ value, ofTokens? value = some (member a).2 ∧
      tokens? (memberText (text a) ++ c :: rest) =
        some (.text (member a).1 :: .mark ':' :: value ++ .mark c :: ts) := by
  obtain ⟨value, htokens, hvalue⟩ := Option.bind_eq_some_iff.mp h.value
  rw [String.toList_ofList] at htokens
  refine ⟨value, hvalue, ?_⟩
  rw [memberText, List.append_assoc, List.cons_append, tokens?_append_mark h.name rfl,
    tokens?_append_mark htokens hc, hrest]
  rfl

theorem read_member {name : List Char} {value : Json} (h : ofTokens? ts = some value) :
    (Token.text name :: .mark ':' :: ts).foldlM Reader.step (.member read outer) =
      some (.after value (.object read name :: outer)) := by
  show ts.foldlM Reader.step (.value (.object read name :: outer)) = _
  exact read_under h

-- Behind each member stands a comma or the end of the object.
theorem read_members (h : ∀ b ∈ a :: as, IsMemberText (text b) (member b)) :
    ∃ ts, tokens? (membersText ((a :: as).map text) ++ ['\x7d']) = some ts ∧
      ∀ read outer, ts.foldlM Reader.step (.member read outer) =
        some (.after (.object (read.reverse ++ (a :: as).map member)) outer) := by
  have hfirst : IsMemberText (text a) (member a) := h a List.mem_cons_self
  induction as generalizing a with
  | nil =>
      obtain ⟨value, hvalue, htokens⟩ :=
        tokens?_memberText (c := '\x7d') hfirst rfl (show tokens? [] = some [] from rfl)
      refine ⟨_, htokens, fun read outer => ?_⟩
      rw [List.foldlM_append, read_member hvalue]
      simp [Reader.step, Reader.stepAfter]
  | cons next as ih =>
      obtain ⟨ts, hts, hread⟩ := ih (fun b hb => h b (List.mem_cons_of_mem a hb))
        (h next (List.mem_cons_of_mem a List.mem_cons_self))
      obtain ⟨value, hvalue, htokens⟩ := tokens?_memberText (c := ',') hfirst rfl hts
      have hjoin : membersText ((a :: next :: as).map text) ++ ['\x7d'] =
          memberText (text a) ++ ',' :: (membersText ((next :: as).map text) ++ ['\x7d']) := by
        simp [membersText]
      rw [← hjoin] at htokens
      refine ⟨_, htokens, fun read outer => ?_⟩
      rw [List.foldlM_append, read_member hvalue]
      show ts.foldlM Reader.step (.member (member a :: read) outer) = _
      rw [hread, List.reverse_cons, List.append_assoc, List.singleton_append, ← List.map_cons]

theorem parse?_objectText (h : ∀ a ∈ as, IsMemberText (text a) (member a)) :
    parse? (String.ofList (objectText (as.map text))) = some (.object (as.map member)) := by
  rw [parse?, String.toList_ofList, objectText, List.cons_append, tokens?_mark rfl]
  cases as with
  | nil => rfl
  | cons a as =>
      obtain ⟨ts, hts, hread⟩ := read_members h
      rw [hts]
      show (ts.foldlM Reader.step (.member [] [])).bind Reader.finish? = _
      rw [hread]
      rfl

end

section

variable {s : String} {n : Nat} {cs taken : List Char}

theorem tokens?_written (cs : List Char) :
    tokens? (Token.text (written cs)).chars = some [.text (written cs)] := by
  show ((written cs ++ ['"']).foldlM Scanner.step ⟨.text [], []⟩).bind Scanner.finish? = _
  rw [List.foldlM_append, scan_written]
  simp [Scanner.step, Scanner.finish?]

theorem step_between_digit {c : Char} (h : c.isDigit = true) :
    Scanner.step ⟨.between, []⟩ c = some ⟨.word [c], []⟩ := by
  have hne (d : Char) (hd : d.isDigit = false) : c ≠ d := by
    rintro rfl
    exact absurd h (Bool.eq_false_iff.mp hd)
  have hblank : isBlank c = false := by
    simp [isBlank, hne ' ' rfl, hne '\t' rfl, hne '\n' rfl, hne '\r' rfl]
  have hmark : isMark c = false := by
    simp [isMark, hne '\x7b' rfl, hne '\x7d' rfl, hne '[' rfl, hne ']' rfl, hne ':' rfl, hne ',' rfl]
  have hword : isWordChar c = true := by
    simp [isWordChar, Char.isAlphanum, h]
  simp [Scanner.step, Scanner.stepBetween, hblank, hmark, hne '"' rfl, hword]

theorem scan_digits (h : ∀ c ∈ cs, c.isDigit = true) :
    cs.foldlM Scanner.step ⟨.word taken, []⟩ = some ⟨.word (cs.reverse ++ taken), []⟩ := by
  induction cs generalizing taken with
  | nil => rfl
  | cons c cs ih =>
      have hword : isWordChar c = true := by
        simp [isWordChar, Char.isAlphanum, h c List.mem_cons_self]
      rw [List.foldlM_cons]
      simp only [Scanner.step, hword, if_true]
      show List.foldlM _ _ _ = _
      rw [ih fun d hd => h d (List.mem_cons_of_mem c hd), List.reverse_cons, List.append_assoc]
      rfl

-- A numeral has no zero in front, unless it is zero alone.
theorem head_toDigits_ne_zero {c : Char} (hn : 0 < n) (h : Nat.toDigits 10 n = c :: cs) :
    c ≠ '0' := by
  induction n using Nat.strongRecOn generalizing c cs with
  | ind n ih =>
      by_cases hlt : n < 10
      · have hnonzero : ∀ d < 10, 0 < d → Nat.digitChar d ≠ '0' := by decide
        rw [Nat.toDigits_of_lt_base hlt] at h
        obtain ⟨rfl, -⟩ := List.cons.inj h
        exact hnonzero n hlt hn
      · rw [Nat.toDigits_of_base_le (by decide) (by omega)] at h
        obtain ⟨d, ds, hd⟩ := List.exists_cons_of_ne_nil (Nat.toDigits_ne_nil (n := n / 10) (b := 10))
        rw [hd, List.cons_append] at h
        obtain ⟨rfl, -⟩ := List.cons.inj h
        exact ih (n / 10) (by omega) (by omega) hd

theorem isNumeral_toDigits (n : Nat) : isNumeral (Nat.toDigits 10 n) = true := by
  by_cases hn : n = 0
  · subst hn
    rfl
  obtain ⟨c, cs, h⟩ := List.exists_cons_of_ne_nil (Nat.toDigits_ne_nil (n := n) (b := 10))
  have hdigits : ∀ d ∈ c :: cs, d.isDigit = true := fun d hd =>
    Nat.isDigit_of_mem_toDigits (by decide) (by decide) (h ▸ hd)
  have hc : c.isDigit = true := hdigits c List.mem_cons_self
  have hzero : c ≠ '0' := head_toDigits_ne_zero (Nat.pos_of_ne_zero hn) h
  have hminus : c ≠ '-' := fun heq => absurd (heq ▸ hc) (by decide)
  have hrest : cs.dropWhile Char.isDigit = [] := by
    rw [← List.append_nil cs,
      List.dropWhile_append_of_pos fun d hd => hdigits d (List.mem_cons_of_mem c hd),
      List.dropWhile_nil]
  rw [h]
  simp [isNumeral, isUnsignedNumeral, hminus, hc, hrest, isFractionPart, isExponentPart]

theorem parse?_render_ofString (s : String) :
    parse? (ofString s).render = some (ofString s) := by
  have htext : (ofString s).render.toList = (Token.text (written s.toList)).chars := by
    simp [render, ofString, tokens]
  rw [parse?, htext, tokens?_written]
  rfl

theorem tokens?_toDigits (n : Nat) :
    tokens? (Nat.toDigits 10 n) = some [.word (Nat.toDigits 10 n)] := by
  have hdigits : ∀ d ∈ Nat.toDigits 10 n, d.isDigit = true := fun d hd =>
    Nat.isDigit_of_mem_toDigits (by decide) (by decide) hd
  obtain ⟨c, cs, h⟩ := List.exists_cons_of_ne_nil (Nat.toDigits_ne_nil (n := n) (b := 10))
  rw [h] at hdigits ⊢
  rw [tokens?, List.foldlM_cons, step_between_digit (hdigits c List.mem_cons_self)]
  show (cs.foldlM Scanner.step ⟨.word [c], []⟩).bind Scanner.finish? = _
  rw [scan_digits fun d hd => hdigits d (List.mem_cons_of_mem c hd)]
  simp [Scanner.finish?]

theorem ofWord?_toDigits (n : Nat) : ofWord? (Nat.toDigits 10 n) = some (ofNat n) := by
  have hne (name : List Char) (hname : isNumeral name = false) : Nat.toDigits 10 n ≠ name := by
    rintro rfl
    exact absurd (isNumeral_toDigits n) (Bool.eq_false_iff.mp hname)
  unfold ofWord?
  rw [if_neg (hne _ rfl), if_neg (hne _ rfl), if_neg (hne _ rfl), if_pos (isNumeral_toDigits n)]
  rfl

theorem parse?_render_ofNat (n : Nat) : parse? (ofNat n).render = some (ofNat n) := by
  have htext : (ofNat n).render.toList = Nat.toDigits 10 n := by
    simp [render, ofNat, tokens, Token.chars]
  have hread : ofTokens? [.word (Nat.toDigits 10 n)] = some (ofNat n) := by
    simp [ofTokens?, Reader.step, Reader.stepValue, ofWord?_toDigits, Reader.finish?]
  rw [parse?, htext, tokens?_toDigits]
  exact hread

end

-- The texts of a member's name and value in what is written of a value.
def renderedTexts (member : List Char × Json) : List Char × List Char :=
  ((Token.text member.1).chars, member.2.render.toList)

theorem flatMap_memberTokens (members : List (List Char × Json)) :
    (memberTokens members).flatMap Token.chars = membersText (members.map renderedTexts) := by
  induction members with
  | nil => rfl
  | cons member members ih =>
      cases members with
      | nil => simp [memberTokens, membersText, memberText, renderedTexts, render, Token.chars]
      | cons next members =>
          simp [memberTokens, ih, membersText, memberText, renderedTexts, render, Token.chars]

theorem toList_render_object (members : List (List Char × Json)) :
    (object members).render.toList = objectText (members.map renderedTexts) := by
  simp [render, tokens, Token.chars, flatMap_memberTokens, objectText]

theorem isMemberText_rendered {member : List Char × Json} (hname : written member.1 = member.1)
    (hvalue : parse? member.2.render = some member.2) :
    IsMemberText (renderedTexts member) member where
  name := by
    show tokens? (Token.text member.1).chars = _
    rw [← hname]
    exact tokens?_written member.1
  value := by
    rw [renderedTexts, String.ofList_toList]
    exact hvalue

theorem parse?_render_object {members : List (List Char × Json)}
    (h : ∀ m ∈ members, written m.1 = m.1 ∧ parse? m.2.render = some m.2) :
    parse? (object members).render = some (.object members) := by
  have htexts : ∀ m ∈ members, IsMemberText (renderedTexts m) (id m) := fun m hm =>
    isMemberText_rendered (h m hm).1 (h m hm).2
  rw [← String.ofList_toList (s := (object members).render), toList_render_object,
    parse?_objectText htexts, List.map_id]

end Spool.Json
