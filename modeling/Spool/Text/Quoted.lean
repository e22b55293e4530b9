import Spool.Text.Printable
import Spool.Text.GraphemeExtend

namespace Spool.Text

-- A character by its number in lower-case hexadecimal.
def codePointEscape (c : Char) : List Char :=
  ['\\', 'u', '\x7b'] ++ Nat.toDigits 16 c.toNat ++ ['\x7d']

-- The fillers of Hangul: letters, but blank and meant to be passed over.
def isFiller (c : Char) : Bool :=
  c = '\u115f' || c = '\u1160' || c = '\u3164' || c = '\uffa0'

-- The halfwidth katakana sound marks: they extend the letter in front, in a cell of their own.
def isSoundMark (c : Char) : Bool :=
  c = '\uff9e' || c = '\uff9f'

-- Whether a character shows as itself wherever it stands.
def isVisible (c : Char) : Bool :=
  isPrintable c && !isFiller c && (isSoundMark c || !isGraphemeExtend c)

-- Single quotes stay as they are: they cannot end the text.
def escape (c : Char) : List Char :=
  match c with
  | '\x00' => ['\\', '0']
  | '\t' => ['\\', 't']
  | '\r' => ['\\', 'r']
  | '\n' => ['\\', 'n']
  | '\\' => ['\\', '\\']
  | '"' => ['\\', '"']
  | c => if isVisible c then [c] else codePointEscape c

def quoted (s : String) : String :=
  String.ofList ('"' :: s.toList.flatMap escape ++ ['"'])

end Spool.Text
