import Spool.Json.Lexer

namespace Spool.Json

-- An open container: what it holds so far, last first.
inductive Frame where
  | array (items : List Json)
  -- The value of the member called `name` comes next.
  | object (members : List (List Char × Json)) (name : List Char)

inductive Reader where
  | value (outer : List Frame)
  -- Behind an opening bracket: a value or the end of an empty array.
  | first (outer : List Frame)
  -- The name of a member, or the end of the object if it is still empty.
  | member (members : List (List Char × Json)) (outer : List Frame)
  | colon (members : List (List Char × Json)) (name : List Char) (outer : List Frame)
  -- A value is complete.
  | after (complete : Json) (outer : List Frame)

def Reader.stepValue (outer : List Frame) : Token → Option Reader
  | .text written => some (.after (.text written) outer)
  | .word cs => (ofWord? cs).map fun value => .after value outer
  | .mark c =>
    if c = '[' then some (.first outer)
    else if c = '\x7b' then some (.member [] outer)
    else none

-- After a comma another item or member must follow.
def Reader.stepAfter (complete : Json) (c : Char) : List Frame → Option Reader
  | [] => none
  | .array items :: outer =>
    if c = ',' then some (.value (.array (complete :: items) :: outer))
    else if c = ']' then some (.after (.array (complete :: items).reverse) outer)
    else none
  | .object members name :: outer =>
    if c = ',' then some (.member ((name, complete) :: members) outer)
    else if c = '\x7d' then some (.after (.object ((name, complete) :: members).reverse) outer)
    else none

def Reader.step (r : Reader) (token : Token) : Option Reader :=
  match r, token with
  | .value outer, token => stepValue outer token
  | .first outer, token =>
    if token = .mark ']' then some (.after (.array []) outer)
    else stepValue (.array [] :: outer) token
  | .member members outer, .text name => some (.colon members name outer)
  | .member members outer, token =>
    if token = .mark '\x7d' ∧ members.isEmpty then some (.after (.object []) outer) else none
  | .colon members name outer, token =>
    if token = .mark ':' then some (.value (.object members name :: outer)) else none
  | .after complete outer, .mark c => stepAfter complete c outer
  | .after _ _, _ => none

def Reader.finish? : Reader → Option Json
  | .after complete [] => some complete
  | _ => none

def ofTokens? (tokens : List Token) : Option Json :=
  (tokens.foldlM Reader.step (.value [])).bind Reader.finish?

-- One value with blanks around it and nothing else.
def parse? (s : String) : Option Json :=
  (tokens? s.toList).bind ofTokens?

end Spool.Json
