import Spool.Json.Basic

namespace Spool.Json

def Token.chars : Token → List Char
  | .mark c => [c]
  | .text written => '"' :: written ++ ['"']
  | .word cs => cs

mutual

def tokens : Json → List Token
  | .null => [.word "null".toList]
  | .bool true => [.word "true".toList]
  | .bool false => [.word "false".toList]
  | .number numeral => [.word numeral]
  | .text written => [.text written]
  | .array items => .mark '[' :: itemTokens items ++ [.mark ']']
  | .object members => .mark '\x7b' :: memberTokens members ++ [.mark '\x7d']

def itemTokens : List Json → List Token
  | [] => []
  | [item] => item.tokens
  | item :: items => item.tokens ++ .mark ',' :: itemTokens items

def memberTokens : List (List Char × Json) → List Token
  | [] => []
  | [(name, value)] => .text name :: .mark ':' :: value.tokens
  | (name, value) :: members =>
    .text name :: .mark ':' :: value.tokens ++ .mark ',' :: memberTokens members

end

def render (j : Json) : String :=
  String.ofList (j.tokens.flatMap Token.chars)

end Spool.Json
