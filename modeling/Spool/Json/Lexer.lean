import Spool.Json.Basic

namespace Spool.Json

-- What the scanner is inside of. It takes one character at a time, so scanning is a fold over the text.
inductive Mode where
  | between
  -- Inside a numeral or name; what was taken is kept last character first, here and below.
  | word (taken : List Char)
  | text (taken : List Char)
  -- Behind a backslash.
  | escape (taken : List Char)
  -- Inside the digits of a numbered escape, with some left to come.
  | hex (taken : List Char) (left : Nat)
deriving DecidableEq

structure Scanner where
  mode : Mode
  -- Last token first.
  tokens : List Token
deriving DecidableEq

def isBlank (c : Char) : Bool :=
  c = ' ' || c = '\t' || c = '\n' || c = '\r'

def isMark (c : Char) : Bool :=
  c = '\x7b' || c = '\x7d' || c = '[' || c = ']' || c = ':' || c = ','

def isWordChar (c : Char) : Bool :=
  c.isAlphanum || c = '-' || c = '+' || c = '.'

def isHexDigit (c : Char) : Bool :=
  c.isDigit || ('a' ≤ c && c ≤ 'f') || ('A' ≤ c && c ≤ 'F')

def isShortEscape (c : Char) : Bool :=
  c = '"' || c = '\\' || c = '/' || c = 'b' || c = 'f' || c = 'n' || c = 'r' || c = 't'

def Scanner.stepBetween (tokens : List Token) (c : Char) : Option Scanner :=
  if isBlank c then some ⟨.between, tokens⟩
  else if isMark c then some ⟨.between, .mark c :: tokens⟩
  else if c = '"' then some ⟨.text [], tokens⟩
  else if isWordChar c then some ⟨.word [c], tokens⟩
  else none

-- A word ends at the first character that cannot belong to it, and that character starts anew.
def Scanner.step (s : Scanner) (c : Char) : Option Scanner :=
  match s.mode with
  | .between => stepBetween s.tokens c
  | .word taken =>
    if isWordChar c then some ⟨.word (c :: taken), s.tokens⟩
    else stepBetween (.word taken.reverse :: s.tokens) c
  | .text taken =>
    if c = '"' then some ⟨.between, .text taken.reverse :: s.tokens⟩
    else if c = '\\' then some ⟨.escape (c :: taken), s.tokens⟩
    else if c.toNat < 0x20 then none
    else some ⟨.text (c :: taken), s.tokens⟩
  | .escape taken =>
    if c = 'u' then some ⟨.hex (c :: taken) 4, s.tokens⟩
    else if isShortEscape c then some ⟨.text (c :: taken), s.tokens⟩
    else none
  | .hex taken left =>
    if !isHexDigit c then none
    else if left ≤ 1 then some ⟨.text (c :: taken), s.tokens⟩
    else some ⟨.hex (c :: taken) (left - 1), s.tokens⟩

-- A word may end with the text; a quoted text may not.
def Scanner.finish? (s : Scanner) : Option (List Token) :=
  match s.mode with
  | .between => some s.tokens.reverse
  | .word taken => some (.word taken.reverse :: s.tokens).reverse
  | _ => none

def tokens? (cs : List Char) : Option (List Token) :=
  (cs.foldlM Scanner.step ⟨.between, []⟩).bind Scanner.finish?

end Spool.Json
