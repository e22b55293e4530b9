import Spool.Path
import Spool.Text.Decimal

namespace Spool.PageFile

def nameHead : List Char := "page-".toList

def nameTail : List Char := ".dat".toList

def name (index : UInt64) : String :=
  String.ofList (nameHead ++ Decimal.ofWord index ++ nameTail)

def path (dir : Path) (index : UInt64) : Path :=
  dir.join (name index)

-- What stands between the two fixed ends of a page file's name.
def numeral? (name : List Char) : Option (List Char) :=
  (nameHead.isPrefixOf? name).bind nameTail.isSuffixOf?

-- Also accepts numerals that no page file is created with: leading zeros and a plus sign.
def indexOfName? (name : String) : Option UInt64 :=
  (numeral? name.toList).bind Decimal.toWord?

def index? (p : Path) : Option UInt64 :=
  p.fileName?.bind indexOfName?

theorem isPrefixOf?_append (left right : List Char) :
    left.isPrefixOf? (left ++ right) = some right := by
  induction left with
  | nil => rfl
  | cons c left ih =>
    show (if c == c then left.isPrefixOf? (left ++ right) else none) = some right
    rw [if_pos (beq_self_eq_true c), ih]

theorem isSuffixOf?_append (left right : List Char) :
    right.isSuffixOf? (left ++ right) = some left := by
  show (right.reverse.isPrefixOf? (left ++ right).reverse).map List.reverse = some left
  rw [List.reverse_append, isPrefixOf?_append, Option.map_some, List.reverse_reverse]

theorem numeral?_name (numeral : List Char) :
    numeral? (nameHead ++ numeral ++ nameTail) = some numeral := by
  rw [numeral?, List.append_assoc, isPrefixOf?_append, Option.bind_some, isSuffixOf?_append]

theorem indexOfName?_name (index : UInt64) : indexOfName? (name index) = some index := by
  rw [indexOfName?, name, String.toList_ofList, numeral?_name]
  exact Decimal.toWord?_ofWord index

end Spool.PageFile
