namespace Spool

-- A number keeps its numeral and a text keeps its escapes. What they stand for is worked out only where it
-- matters, so a value that is passed over may hold a numeral of any size and half of a surrogate pair.
inductive Json where
  | null
  | bool (b : Bool)
  | number (numeral : List Char)
  -- What is written between the quotes.
  | text (written : List Char)
  | array (items : List Json)
  | object (members : List (List Char × Json))

namespace Json

-- The pieces that a JSON text is made of, blanks left out.
inductive Token where
  -- One of the six marks of punctuation.
  | mark (c : Char)
  | text (written : List Char)
  -- A numeral or one of the three names.
  | word (cs : List Char)
deriving DecidableEq

def isDigitRun (cs : List Char) : Bool :=
  cs ≠ [] ∧ cs.all Char.isDigit

def unsignedExponent : List Char → List Char
  | '+' :: cs => cs
  | '-' :: cs => cs
  | cs => cs

def isExponentPart : List Char → Bool
  | [] => true
  | c :: cs => (c = 'e' || c = 'E') && isDigitRun (unsignedExponent cs)

def isFractionPart : List Char → Bool
  | '.' :: cs => isDigitRun (cs.takeWhile Char.isDigit) && isExponentPart (cs.dropWhile Char.isDigit)
  | cs => isExponentPart cs

def isUnsignedNumeral : List Char → Bool
  | [] => false
  | '0' :: cs => isFractionPart cs
  | c :: cs => c.isDigit && isFractionPart (cs.dropWhile Char.isDigit)

-- The grammar of numbers: no leading zeros, and digits on both sides of a point.
def isNumeral : List Char → Bool
  | '-' :: cs => isUnsignedNumeral cs
  | cs => isUnsignedNumeral cs

def ofWord? (cs : List Char) : Option Json :=
  if cs = "null".toList then some .null
  else if cs = "true".toList then some (.bool true)
  else if cs = "false".toList then some (.bool false)
  else if isNumeral cs then some (.number cs)
  else none

end Json

end Spool
