import Spool.Json.Lexer
import Spool.Json.Text

namespace Spool.Json

-- The ways to write a character: behind a backslash, by its number, or as it is.
inductive Spelling (c : Char) : List Char → Prop where
  | short {letter : Char} (hne : letter ≠ 'u') (hescape : shortEscape? letter = some c)
    (hshort : isShortEscape letter = true) : Spelling c ['\\', letter]
  | control (hlt : c.toNat < 0x20) : Spelling c (controlEscape c)
  | plain (hbackslash : c ≠ '\\') (hquote : c ≠ '"') (hle : 0x20 ≤ c.toNat) : Spelling c [c]

theorem spelling_escape (c : Char) : Spelling c (escape c) := by
  unfold escape
  split
  · exact .short (by decide) rfl rfl
  · exact .short (by decide) rfl rfl
  · exact .short (by decide) rfl rfl
  · exact .short (by decide) rfl rfl
  · exact .short (by decide) rfl rfl
  · exact .short (by decide) rfl rfl
  · exact .short (by decide) rfl rfl
  · next hquote hbackslash _ _ _ _ _ =>
    split
    · next hlt => exact .control hlt
    · next hle => exact .plain hbackslash hquote (Nat.not_lt.mp hle)

section

variable {c letter : Char} {cs rest : List Char}

-- The digits of a control stand for its number.
theorem unit?_digits : ∀ n < 0x20,
    unit? '0' '0' (Nat.digitChar (n / 16)) (Nat.digitChar (n % 16)) = some n := by
  decide

theorem not_surrogate_of_lt {n : Nat} (h : n < 0x20) :
    isHighSurrogate n = false ∧ isLowSurrogate n = false := by
  unfold isHighSurrogate isLowSurrogate
  simp only [Bool.and_eq_false_iff, decide_eq_false_iff_not]
  omega

theorem unescape?_short (hne : letter ≠ 'u') (hescape : shortEscape? letter = some c) :
    unescape? ('\\' :: letter :: rest) = (unescape? rest).map (c :: ·) := by
  rw [unescape?.eq_4 letter rest (fun _ _ _ _ _ _ _ _ _ h => absurd h hne)
    (fun _ _ _ _ _ h => absurd h hne), hescape]

-- What comes behind the digits matters only if they are half of a pair.
theorem unescape?_control (hlt : c.toNat < 0x20) :
    unescape? (controlEscape c ++ rest) = (unescape? rest).map (c :: ·) := by
  have hunit := unit?_digits c.toNat hlt
  obtain ⟨hhigh, hlow⟩ := not_surrogate_of_lt hlt
  have hc : Char.ofNat c.toNat = c := Char.ofNat_toNat c
  by_cases hpair : ∃ e f g h more, rest = '\\' :: 'u' :: e :: f :: g :: h :: more
  · obtain ⟨e, f, g, h, more, rfl⟩ := hpair
    show unescape? ('\\' :: 'u' :: '0' :: '0' :: _ :: _ :: '\\' :: 'u' :: e :: f :: g :: h :: more) = _
    rw [unescape?.eq_2]
    simp only [hunit, hhigh, hlow, hc, Bool.false_eq_true, if_false]
  · have hrest : ∀ e f g h more, rest = '\\' :: 'u' :: e :: f :: g :: h :: more → False :=
      fun e f g h more heq => hpair ⟨e, f, g, h, more, heq⟩
    show unescape? ('\\' :: 'u' :: '0' :: '0' :: _ :: _ :: rest) = _
    rw [unescape?.eq_3 _ _ _ _ _ hrest]
    simp only [hunit, hhigh, hlow, hc, Bool.or_false, Bool.false_eq_true, if_false]

theorem unescape?_plain (h : c ≠ '\\') : unescape? (c :: rest) = (unescape? rest).map (c :: ·) :=
  unescape?.eq_6 c rest (fun _ _ _ _ _ _ _ _ _ hc => absurd hc h) (fun _ _ _ _ _ hc => absurd hc h)
    (fun _ _ hc => absurd hc h) (fun hc => absurd hc h)

theorem Spelling.unescape?_append (h : Spelling c cs) :
    unescape? (cs ++ rest) = (unescape? rest).map (c :: ·) := by
  cases h with
  | short hne hescape _ => exact unescape?_short hne hescape
  | control hlt => exact unescape?_control hlt
  | plain hbackslash _ _ => exact unescape?_plain hbackslash

theorem unescape?_written (cs : List Char) : unescape? (written cs) = some cs := by
  induction cs with
  | nil => rw [written, List.flatMap_nil, unescape?]
  | cons c cs ih =>
      unfold written at ih ⊢
      rw [List.flatMap_cons, (spelling_escape c).unescape?_append, ih]
      rfl

section

variable {taken : List Char} {tokens : List Token}

theorem isHexDigit_digitChar : ∀ n < 16, isHexDigit (Nat.digitChar n) = true := by
  decide

theorem step_text_backslash :
    Scanner.step ⟨.text taken, tokens⟩ '\\' = some ⟨.escape ('\\' :: taken), tokens⟩ :=
  rfl

theorem step_hex {left : Nat} (h : isHexDigit c = true) :
    Scanner.step ⟨.hex taken (left + 2), tokens⟩ c = some ⟨.hex (c :: taken) (left + 1), tokens⟩ := by
  simp [Scanner.step, h]

theorem step_last_hex (h : isHexDigit c = true) :
    Scanner.step ⟨.hex taken 1, tokens⟩ c = some ⟨.text (c :: taken), tokens⟩ := by
  simp [Scanner.step, h]

-- The scanner stays inside of a text for as long as what was written of it.
theorem Spelling.scan (h : Spelling c cs) :
    cs.foldlM Scanner.step ⟨.text taken, tokens⟩ = some ⟨.text (cs.reverse ++ taken), tokens⟩ := by
  cases h with
  | @short letter hne _ hshort =>
      rw [List.foldlM_cons, step_text_backslash]
      simp [Scanner.step, hne, hshort]
  | control hlt =>
      have hhigh : isHexDigit (Nat.digitChar (c.toNat / 16)) = true :=
        isHexDigit_digitChar _ (by omega)
      have hlow : isHexDigit (Nat.digitChar (c.toNat % 16)) = true :=
        isHexDigit_digitChar _ (Nat.mod_lt _ (by decide))
      have hu : Scanner.step ⟨.escape ('\\' :: taken), tokens⟩ 'u' =
          some ⟨.hex ('u' :: '\\' :: taken) 4, tokens⟩ := rfl
      have hzero : isHexDigit '0' = true := by decide
      unfold controlEscape
      simp only [List.foldlM_cons, List.foldlM_nil, step_text_backslash, hu, Option.bind_eq_bind,
        Option.bind_some]
      simp [step_hex, step_last_hex, hzero, hhigh, hlow]
  | plain hbackslash hquote hle =>
      simp [Scanner.step, hquote, hbackslash, Nat.not_lt.mpr hle]

theorem scan_written (cs : List Char) :
    (written cs).foldlM Scanner.step ⟨.text taken, tokens⟩ =
      some ⟨.text ((written cs).reverse ++ taken), tokens⟩ := by
  induction cs generalizing taken with
  | nil => rfl
  | cons c cs ih =>
      unfold written at ih ⊢
      rw [List.flatMap_cons, List.foldlM_append, (spelling_escape c).scan]
      show List.foldlM _ _ _ = _
      rw [ih, List.reverse_append, List.append_assoc]

end

end

end Spool.Json
